/-
A session uses its manager only while it has one, as long as no step orphans it.

`close_fd` clears `owner_`, and some functions go on using it behind a call that closes the session. `Orphans` names these
steps: a check of limits that closes a connected session and then makes another test, and a session that reconnects to itself.

- `run_owner`: a run without such a step never uses a null owner;
- `run_owner_total`: the fault in a run with one.

The environment of the fixed runs of the gateway is here too.

Witness `run_owner_startOne`: a session is started and checked. In `run_owner_total` a limit for received data is exceeded, and
the test behind it reads through the owner that the close has cleared.
-/
import AtFrame.Inner.Solo
import AtFrame.Gateway.Walks

namespace AtFrame.Gateway

open AtFrame.Lib

/-! ## Deciding what orphans a session -/

instance (c : Core) (s : ℕ) : (period : Period) → Decidable (c.Tested s period)
  | .hour => inferInstanceAs (Decidable (_ = _ ∧ _ ∧ _))
  | .minute => inferInstanceAs (Decidable (_ = _ ∧ _ ∧ _))
  | .total => inferInstanceAs (Decidable (True ∧ _ ∧ _))

instance (c : Core) (s : ℕ) (period : Period) (checkRecv checkSend : Bool) :
    Decidable (c.TripsFirst s period checkRecv checkSend) := inferInstanceAs (Decidable (_ ∧ _ ∧ _))

instance : DecidablePred Orphans := by
  rintro ⟨_, _ | _⟩ <;> dsimp only [Orphans] <;> infer_instance

/-! ## Fixed runs -/

/-- clients send one of `msgs` in each frame, named by the first byte of its buffer; everything the gateway calls succeeds,
and a message from a session to a server has `len` bytes -/
@[reducible] def scriptEnv (msgs : List CsMsg) (len : ℕ) : GwEnv where
  ext := { Ext.idle with build := fun _ => [1], verify := fun buf => buf.head?.bind fun b => msgs[b.toNat]? }
  stack := 8
  depth := 8
  offset := 0
  uvWrite _ := 0
  sendData _ := 0
  sendData_le _ := le_rfl
  serialize _ _ := some len
  allocate n := UInt64.ofNat (n % 2 ^ 32 + 1)
  allocate_ne n h := by
    have h' := congrArg UInt64.toNat h
    rw [UInt64.toNat_ofNat', UInt64.toNat_zero] at h'
    omega

theorem scriptEnv_fresh (msgs : List CsMsg) (len : ℕ) {n : ℕ} (hn : n ≤ 2 ^ 32) :
    Set.InjOn (scriptEnv msgs len).allocate (Set.Iio n) := by
  intro i hi j hj hij
  rw [Set.mem_Iio] at hi hj
  have h := congrArg UInt64.toNat hij
  simp only [UInt64.toNat_ofNat'] at h
  omega

/-- a configuration without limits -/
def openConf : GwConf where
  total := {}
  hour := {}
  minute := {}
  maxClientNumber := 0
  reconnectTimeout := 60
  firstIdleTimeout := 10
  sendBufferSize := 4096
  defaultRouter := 1
  crypt := defaultCryptConfigure

/-- a frame with the `n`-th message -/
def scriptFrame (n : UInt8) : Bytes := toLe32 0 ++ toLe32 1 ++ [n]

/-- a client that asks for a session without encryption -/
def plainStartReq : CsMsg := handshakeMsg .EN_MTT_HANDSHAKE
  { sessionId := 0, step := .EN_HST_START_REQ, switchType := .EN_SST_DIRECT, cryptType := none, cryptParam := none }

/-- a client that asks for the session with id 1, without encryption -/
def plainReconnectReq : CsMsg := handshakeMsg .EN_MTT_HANDSHAKE
  { sessionId := 1, step := .EN_HST_RECONNECT_REQ, switchType := .EN_SST_DIRECT, cryptType := none, cryptParam := none }

/-- a message for the server, without encryption -/
def plainPost : CsMsg := ⟨some .EN_MTT_POST, .post (some ⟨3, some [1, 2, 3]⟩)⟩

/-- a client connects and starts a session -/
def startOne : List GwEvent := [.acceptTcp 0 {} 0 0, .uvRead 0 (.ok (scriptFrame 0))]

/-- the session is disconnected, and its client comes back on another connection -/
def comeBack : List GwEvent := [.cmdDisconnect 1 0, .acceptTcp 1 {} 0 0, .uvRead 1 (.ok (scriptFrame 1))]

/-! ## Runs -/

/-- **No null owner** in a run in which no step orphans a session. -/
theorem run_owner (e : GwEnv) (conf : GwConf) (now : ℤ) (current : Option CryptGlobal) (events : List GwEvent)
    (h : ∀ x ∈ (exec (gwRun e events) (World.start conf now current)).2.history, ¬ Orphans x) :
    (exec (gwRun e events) (World.start conf now current)).1 ≠ .error .nullOwner := by
  intro hfault
  obtain ⟨x, hx, horphan⟩ := wp_error (run_went e conf now current events) (Prod.ext hfault rfl) rfl
  exact h x hx horphan

theorem run_owner_startOne : (exec (gwRun (scriptEnv [plainStartReq] 2) startOne) (World.start openConf 1500000000 none)).1 ≠
    .error .nullOwner :=
  run_owner (scriptEnv [plainStartReq] 2) openConf 1500000000 none startOne (by decide +kernel)

/-- a limit of one byte: the add notice of the session closes it -/
theorem run_owner_total : (exec (gwRun (scriptEnv [plainStartReq] 2) startOne)
    (World.start { openConf with total := { recvBytes := 1, sendBytes := 1 } } 1500000000 none)).1 = .error .nullOwner := by
  decide +kernel

end AtFrame.Gateway
