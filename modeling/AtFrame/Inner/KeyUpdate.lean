/-
A failed key update changes nothing, except at the points where it does.

`handshake_update` is `send_key_syn`: it makes a new `crypt_handshake_`, sets the handshake up and sends the start response.
`KeyState` is what a failed update must leave alone; `UpdateSafe` is the condition under which it does, on the object, the
configuration and the answer of `write_fn`. The object is in any state that a run of calls reaches, with any owner whose
callbacks that an update reaches (`write_fn`, `on_handshake_update_fn`, `on_error_fn`) do not call back.

- `wp_writeBytes_quick`: a message is refused exactly when `Refused`;
- `wp_sendStartRsp_quick`: the start response, which has a new session for its key;
- `wp_sendKeySyn_quick`: the update on a state in which nothing is queued unless a write is outstanding;
- `key_update_unchanged`: the statement for every state that a run reaches.

Premises: the handshake is done, the object is open, and no handshake of DH or ECDH is still set up. The libraries may refuse
anything at any time. Witness `key_update_completes`. In `key_update_halfDone` the start response of the handshake is still being
written, the queue refuses that of the update, and the new session is the key for writing.
-/
import AtFrame.Inner.Kickoff

namespace AtFrame.Closing

open AtFrame.Lib

/-! ## What an update must leave alone -/

/-- the keys of both directions, the type and secret of `crypt_handshake_`, whether a handshake is running, and the flags
of the handshake -/
structure KeyState where
  cryptRead : Option ℕ
  readKey : Option CryptSession
  cryptWrite : Option ℕ
  writeKey : Option CryptSession
  type : Bytes
  secret : Bytes
  hasData : Bool
  handshakeDone : Bool
  handshakeUpdate : Bool
deriving DecidableEq

def keyState (p : Proto) : KeyState where
  cryptRead := p.cryptRead
  readKey := p.cryptRead.map p.crypts
  cryptWrite := p.cryptWrite
  writeKey := p.cryptWrite.map p.crypts
  type := p.hs.type
  secret := p.hs.secret
  hasData := p.handshake.hasData
  handshakeDone := p.flags.handshakeDone
  handshakeUpdate := p.flags.handshakeUpdate

/-- behind `handshake_done` the first handshake is done and no update is running -/
def KeyState.done (k : KeyState) : KeyState := { k with handshakeDone := true, handshakeUpdate := false }

/-- the object behind `handshake_done` -/
def doneFlags (p : Proto) : Proto := p.setFlags { p.flags with handshakeDone := true, handshakeUpdate := false }

/-! ## Callbacks that do not call back -/

def Callback.isWrite : Callback → Bool
  | .write _ => true
  | _ => false

/-- the calls of `write_fn` so far -/
def Watched.writes (w : Watched) : ℕ := w.calls.countP fun a => a.1.isWrite

/-- the callbacks that an update reaches answer at once; `tape` are the answers of `write_fn`, in order -/
structure Answering (o : Owner) (tape : ℕ → Answer) : Prop where
  write : o.writeFn = some fun _ w => .answer (tape w.writes)
  update : ∀ f ∈ o.onHandshakeUpdateFn, ∀ status w, ∃ a, f status w = .answer a
  error : ∀ f ∈ o.onErrorFn, ∀ errcode errmsg w, ∃ a, f errcode errmsg w = .answer a

/-- the message in `buf` is refused: `push_back` refuses it, or `write_fn` does while no write is outstanding -/
def Refused (tape : ℕ → Answer) (w : Watched) (buf : Bytes) : Prop :=
  0 < buf.length ∧ (2 ^ 32 - 1 ≤ buf.length ∨ ¬ w.proto.writeBuffers.Fits (w.proto.totalBufferSize buf.length) ∨
    w.proto.flags.writing = false ∧ (tape (w.writes + 1)).isDone = false ∧ (tape (w.writes + 1)).status < 0)

variable {o : Owner} {tape : ℕ → Answer} {run : Script → Prog Fault Watched Answer} {w u : Watched}

/-- nothing is said about a fault -/
def anyFault : Fault → Watched → Prop := fun _ _ => True

theorem writes_record (w : Watched) (cb : Callback) : (w.record cb).writes = w.writes + if cb.isWrite then 1 else 0 := by
  rw [Watched.writes, Watched.record, List.countP_append, List.countP_singleton]
  rfl

/-- nothing is queued that could be written -/
theorem wp_tryWrite_settled {Q : ℤ → Watched → Prop} (h : Answering o tape) (n : ℕ)
    (hsettled : w.proto.flags.writing = false → w.proto.writeBuffers.blocks = []) (hQ : Q 0 w) :
    wp (AtFrame.tryWrite (o.host run) n) Q anyFault w := by
  cases n with
  | zero => exact trivial
  | succ n =>
    rw [AtFrame.tryWrite]
    simp only [h.write, Option.map_some, wp_bind, Host.wp_get, wp_ite, wp_pure]
    exact ⟨fun _ => hQ, fun hidle => ⟨fun _ => hQ, fun hne => absurd (hsettled (Bool.not_eq_true _ ▸ hidle)) hne⟩⟩

/-- the only block was written -/
theorem wp_writeDone_single {Q : ℤ → Watched → Prop} (h : Answering o tape) (n : ℕ) (status : ℤ) {b : Block UInt8}
    (hwriting : w.proto.flags.writing = true) (hopen : w.proto.flags.closing = false)
    (hb : w.proto.writeBuffers.blocks = [b]) (hlast : w.proto.lastWritePtr = some b.addr) (hused : b.used = 0)
    (hQ : ∀ p, keyState p = keyState w.proto → Q 0 { w with proto := p }) :
    wp (AtFrame.writeDone (o.host run) n status) Q anyFault w := by
  cases n with
  | zero => exact trivial
  | succ n =>
    have hpop : popWritten w.proto.lastWritePtr w.proto.writeBuffers.blocks = some [] := by
      rw [hlast, hb, SendQueue.popWritten_front hused]
    rw [AtFrame.writeDone]
    simp only [wp_bind, Host.wp_get, wp_ite, wp_pure, hwriting, hpop, Host.wp_modify]
    refine ⟨fun hidle => absurd trivial hidle, fun _ => wp_tryWrite_settled h n (fun _ => rfl) ?_⟩
    simp only [hopen]
    exact ⟨fun hc => absurd hc.1 Bool.false_ne_true, fun _ => hQ _ rfl⟩

/-- a message that is pushed while no write is outstanding is refused by `write_fn` alone -/
theorem refused_iff {buf : Bytes} (hpos : 0 < buf.length) (hsmall : ¬ 2 ^ 32 - 1 ≤ buf.length)
    (hfits : w.proto.writeBuffers.Fits (w.proto.totalBufferSize buf.length)) (hidle : w.proto.flags.writing = false) :
    (if (tape (w.writes + 1)).isDone then 0 else (tape (w.writes + 1)).status) < 0 ↔ Refused tape w buf := by
  constructor
  · intro hneg
    split_ifs at hneg with hdone
    · exact absurd hneg (lt_irrefl 0)
    · exact ⟨hpos, .inr (.inr ⟨hidle, Bool.not_eq_true _ ▸ hdone, hneg⟩)⟩
  · intro hrefused
    rcases hrefused.2 with hlarge | hnot | ⟨-, hdone, hneg⟩
    · exact absurd hlarge hsmall
    · exact absurd hfits hnot
    · rwa [if_neg (Bool.not_eq_true _ ▸ hdone)]

/-! ## The state of an update -/

/-- what an update did before its message is sent: nothing to the write queue, and no call of `write_fn` -/
structure Alike (w u : Watched) : Prop where
  steady : u.proto.Steady w.proto
  writes : u.writes = w.writes

/-- the state in which an update is started: first handshake done, not closing -/
structure Updatable (w : Watched) : Prop where
  settled : w.proto.flags.writing = false → w.proto.writeBuffers.blocks = []
  offset : w.proto.writeHeaderOffset ≤ 2 ^ 63
  linked : w.proto.Linked
  opened : w.proto.flags.closing = false
  done : w.proto.flags.handshakeDone = true
  idle : w.proto.handshake.hasData = false

theorem Alike.refused (h : Alike w u) (buf : Bytes) : Refused tape u buf ↔ Refused tape w buf := by
  unfold Refused Proto.totalBufferSize
  rw [h.steady.queue, h.steady.offset, h.steady.writing, h.writes]

/-! ## The condition -/

section condition

variable (ext : Ext) (tape : ℕ → Answer) (w : Watched) (g : CryptGlobal)

/-- the new `crypt_handshake_` with the type of the old one -/
def newCrypt : ℤ × CryptSession := ({ sharedConf := some g } : CryptSession).setup ext w.proto.hs.type

/-- how the secret is switched -/
def switchOf : SwitchSecret :=
  if g.conf.type = [] then w.proto.handshake.switchSecretType else g.conf.switchSecretType

variable {w g} in
theorem switchOf_conf (htype : g.conf.type ≠ []) : switchOf w g = g.conf.switchSecretType := if_neg htype

/-- the parameters that a DH exchange starts with, with the result of making them -/
def dhParams : ℤ × Bytes := ext.dh (w.proto.handshake.dhCtx ++ [.init g.sharedDhContext] ++ [.makeParams (w.proto.seed + 1)])

/-- the start response of an update -/
def startRsp (switch : SwitchSecret) (param : Bytes) : HandshakeBody where
  sessionId := w.proto.sessionId
  step := .EN_HST_START_RSP
  switchType := switch
  cryptType := some w.proto.hs.type
  cryptParam := some param

/-- the start response is not refused -/
def Sent (switch : SwitchSecret) (param : Bytes) : Prop :=
  ¬ Refused tape w (ext.build (handshakeMsg .EN_MTT_POST_KEY_SYN (startRsp w switch param)))

/-- the new session has the secret of the old one, and no update is announced -/
def SameSecret : Prop := w.proto.flags.handshakeUpdate = false ∧ (newCrypt ext w g).2.secret = w.proto.hs.secret

/-- a server's update fails nowhere, or where it leaves the keys alone -/
def StartSafe : Prop :=
  0 ≤ (newCrypt ext w g).1 ∧
    if w.proto.sessionId = 0 then Sent ext tape w .EN_SST_DIRECT []
    else
      match switchOf w g with
      | .EN_SST_DIRECT =>
        Sent ext tape w .EN_SST_DIRECT (({ (newCrypt ext w g).2 with param := [] }.generateSecret ext w.proto.seed).2.2.secret)
      | .EN_SST_DH | .EN_SST_ECDH =>
        if g.conf.type = [] then SameSecret ext w g
        else (dhParams ext w g).1 = 0 ∧ Sent ext tape w g.conf.switchSecretType (dhParams ext w g).2
      | .other _ => SameSecret ext w g

/-- an update fails nowhere, or where it leaves the keys alone -/
def UpdateSafe : Prop :=
  w.proto.hs.type = [] ∨ w.proto.cryptWrite = none ∨
    ∀ g ∈ w.current, (g.conf.type = [] ∨ ∀ n, g.conf.switchSecretType ≠ .other n) ∧
      (g.conf.clientMode = true ∨ StartSafe ext tape w g)

end condition

/-- the object when the start response is packed -/
structure Starting (w : Watched) (g : CryptGlobal) (p : Proto) : Prop where
  hs : p.hs = { sharedConf := some g }
  fresh : p.cryptHandshake = w.proto.cryptCount
  cryptRead : p.cryptRead = w.proto.cryptRead
  cryptWrite : p.cryptWrite = w.proto.cryptWrite
  crypts : ∀ c, c ≠ w.proto.cryptCount → p.crypts c = w.proto.crypts c
  switchType : p.handshake.switchSecretType = switchOf w g
  hasData : p.handshake.hasData = true ↔ g.conf.type ≠ []
  flags : g.conf.type = [] → p.flags.handshakeUpdate = w.proto.flags.handshakeUpdate
  direct : switchOf w g = .EN_SST_DIRECT → p.seed = w.proto.seed
  dh : g.conf.type ≠ [] → (g.conf.switchSecretType = .EN_SST_DH ∨ g.conf.switchSecretType = .EN_SST_ECDH) →
    p.handshake.dhCtx = w.proto.handshake.dhCtx ++ [.init g.sharedDhContext] ∧ p.seed = w.proto.seed + 1
  sessionId : p.sessionId = w.proto.sessionId

/-- `setup_handshake` on the new session -/
theorem starting_setup (ext : Ext) (hw : Updatable w) (g : CryptGlobal)
    (hg : g.conf.type = [] ∨ ∀ n, g.conf.switchSecretType ≠ .other n) :
    (w.proto.newHs.setupHandshake ext (some g)).1 = 0 ∧ Starting w g (w.proto.newHs.setupHandshake ext (some g)).2 := by
  have hidle : w.proto.newHs.handshake.hasData = false := hw.idle
  have hcrypts : ∀ c, c ≠ w.proto.cryptCount → ∀ x y : CryptSession,
      Function.update (Function.update w.proto.crypts w.proto.cryptCount x) w.proto.cryptCount y c = w.proto.crypts c :=
    fun c hc x y => by rw [Function.update_of_ne hc, Function.update_of_ne hc]
  have hself : ∀ (f : ℕ → CryptSession) x, Function.update f w.proto.cryptCount x w.proto.cryptCount = x :=
    fun f x => Function.update_self _ x f
  have hhs : w.proto.newHs.hs = {} := hself _ _
  by_cases htype : g.conf.type = []
  · have hsetup : w.proto.newHs.setupHandshake ext (some g) = (0, w.proto.newHs.setHs { sharedConf := some g }) := by
      unfold Proto.setupHandshake
      rw [if_neg (by rw [hidle]; exact Bool.false_ne_true), hhs]
      simp only [if_pos htype]
    rw [hsetup]
    exact
      { hs := Host.hs_setHs ..
        fresh := rfl
        cryptRead := rfl
        cryptWrite := rfl
        crypts := fun c hc => hcrypts c hc _ _
        switchType := (if_pos htype).symm
        hasData := iff_of_false (by rw [← Bool.not_eq_false]; exact not_not.2 hw.idle) (not_not.2 htype)
        flags := fun _ => rfl
        direct := fun _ => rfl
        dh := fun h => absurd htype h
        sessionId := rfl } |> And.intro rfl
  · have hknown := hg.resolve_left htype
    have hswitch := switchOf_conf (w := w) htype
    unfold Proto.setupHandshake
    rw [if_neg (by rw [hidle]; exact Bool.false_ne_true), hhs]
    simp only [if_neg htype]
    cases hsw : g.conf.switchSecretType with
    | other n => exact absurd hsw (hknown n)
    | EN_SST_DIRECT =>
      simp only [Proto.setHandshake, Proto.setFlags, Proto.setHs, Proto.newHs]
      exact ⟨trivial,
        { hs := hself _ _
          fresh := rfl
          cryptRead := rfl
          cryptWrite := rfl
          crypts := fun c hc => hcrypts c hc _ _
          switchType := (hswitch.trans hsw).symm
          hasData := iff_of_true rfl htype
          flags := fun h => absurd h htype
          direct := fun _ => rfl
          dh := fun _ h => by rw [hsw] at h; rcases h with h | h <;> cases h
          sessionId := rfl }⟩
    | EN_SST_DH | EN_SST_ECDH =>
      simp only [Proto.dhCall, Proto.setHandshake, Proto.setFlags, Proto.setHs, Proto.newHs]
      exact ⟨trivial,
        { hs := hself _ _
          fresh := rfl
          cryptRead := rfl
          cryptWrite := rfl
          crypts := fun c hc => hcrypts c hc _ _
          switchType := (hswitch.trans hsw).symm
          hasData := iff_of_true rfl htype
          flags := fun h => absurd h htype
          direct := fun h => SwitchSecret.noConfusion ((hswitch.symm.trans h).symm.trans hsw)
          dh := fun _ _ => ⟨rfl, rfl⟩
          sessionId := rfl }⟩

/-! ## The new session -/

section crypt

variable {ext : Ext} {g : CryptGlobal}

theorem newCrypt_conf : (newCrypt ext w g).2.sharedConf = some g := by
  unfold newCrypt CryptSession.setup
  rw [if_neg Bool.false_ne_true]
  by_cases htype : w.proto.hs.type = []
  · rw [if_pos htype]
  · rw [if_neg htype]
    split <;> rfl

/-- the type is that of the old session where the setup succeeds, and stays empty where it fails -/
theorem newCrypt_type (htype : w.proto.hs.type ≠ []) :
    (newCrypt ext w g).1 < 0 ∧ (newCrypt ext w g).2.type = [] ∨
      (newCrypt ext w g).1 = 0 ∧ (newCrypt ext w g).2.type = w.proto.hs.type := by
  unfold newCrypt CryptSession.setup
  rw [if_neg Bool.false_ne_true, if_neg htype]
  split
  · exact .inl ⟨show EN_ECT_CRYPT_NOT_SUPPORTED < 0 by decide, rfl⟩
  · exact .inr ⟨rfl, rfl⟩

theorem crypts_setHs {p : Proto} {i : ℕ} (hi : i ≠ p.cryptHandshake) (c : CryptSession) :
    (p.setHs c).crypts i = p.crypts i := Function.update_of_ne hi _ _

/-- the pointers of both directions do not point to the new session -/
theorem Updatable.read_ne (hw : Updatable w) {c : ℕ} (hc : c ∈ w.proto.cryptRead) : c ≠ w.proto.cryptCount :=
  (hw.linked.2.1 c hc).ne

theorem Updatable.write_ne (hw : Updatable w) {c : ℕ} (hc : c ∈ w.proto.cryptWrite) : c ≠ w.proto.cryptCount :=
  (hw.linked.2.2 c hc).ne

/-- what the new session leaves of the keys -/
theorem keyState_starting (hw : Updatable w) {p : Proto} (hstart : Starting w g p) (c d : CryptSession) :
    keyState ((p.setHs d).setHs c) =
      { keyState w.proto with
        type := c.type, secret := c.secret, hasData := p.handshake.hasData, handshakeDone := p.flags.handshakeDone,
        handshakeUpdate := p.flags.handshakeUpdate } := by
  have hcrypts : ∀ i, i ≠ w.proto.cryptCount → ((p.setHs d).setHs c).crypts i = w.proto.crypts i := fun i hi => by
    have hi' : i ≠ p.cryptHandshake := hstart.fresh ▸ hi
    exact (crypts_setHs (p := p.setHs d) hi' c).trans ((crypts_setHs hi' d).trans (hstart.crypts i hi))
  have hhs : ((p.setHs d).setHs c).hs = c := Host.hs_setHs ..
  have hread : ((p.setHs d).setHs c).cryptRead.map ((p.setHs d).setHs c).crypts = w.proto.cryptRead.map w.proto.crypts := by
    rw [show ((p.setHs d).setHs c).cryptRead = _ from hstart.cryptRead]
    exact Option.map_congr fun i hi => hcrypts i (hw.read_ne hi)
  have hwrite : ((p.setHs d).setHs c).cryptWrite.map ((p.setHs d).setHs c).crypts = w.proto.cryptWrite.map w.proto.crypts := by
    rw [show ((p.setHs d).setHs c).cryptWrite = _ from hstart.cryptWrite]
    exact Option.map_congr fun i hi => hcrypts i (hw.write_ne hi)
  unfold keyState
  rw [hhs, hread, hwrite]
  simp only [KeyState.mk.injEq, true_and]
  exact ⟨hstart.cryptRead, hstart.cryptWrite, rfl, rfl, rfl⟩

theorem same_iff (hw : Updatable w) {p : Proto} (hstart : Starting w g p) (htype : g.conf.type = []) {c d : CryptSession}
    (hc : c.type = w.proto.hs.type) (hsecret : c.secret = (newCrypt ext w g).2.secret) :
    (keyState ((p.setHs d).setHs c)).done = keyState w.proto ↔ SameSecret ext w g := by
  have hdata : p.handshake.hasData = false := Bool.not_eq_true _ ▸ fun h => hstart.hasData.1 h htype
  rw [keyState_starting hw hstart, SameSecret, ← hsecret]
  constructor
  · intro h
    exact ⟨(congrArg KeyState.handshakeUpdate h).symm, congrArg KeyState.secret h⟩
  · rintro ⟨hupdate, hsame⟩
    simp only [KeyState.done, hc, hsame, hdata, keyState, hw.idle, hw.done, hupdate]

end crypt

section quick

variable (hrun : ∀ a w, wp (run (.answer a)) (fun a' w' => a' = a ∧ w' = w) anyFault w)

include hrun

theorem wp_callback_quick {Q : Answer → Watched → Prop} {cb : Callback} {script : Watched → Script} {a : Answer}
    (hscript : script (w.record cb) = .answer a) (hQ : Q a (w.record cb)) : wp (callback run cb script) Q anyFault w := by
  unfold callback
  simp only [wp_bind, wp_modify, wp_get, hscript]
  refine wp_post (hrun a _) fun a' w' h => ?_
  rw [h.1, h.2]
  exact hQ

theorem wp_onError_quick (h : Answering o tape) {Q : Unit → Watched → Prop} (errcode : ℤ) (errmsg : String)
    (hQ : ∀ calls, Watched.writes { w with calls := calls } = w.writes → Q () { w with calls := calls }) :
    wp ((o.host run).onError errcode errmsg) Q anyFault w := by
  unfold Host.onError
  cases hf : o.onErrorFn with
  | none =>
    simp only [hf, Option.map_none]
    exact hQ w.calls rfl
  | some f =>
    obtain ⟨a, ha⟩ := h.error f hf errcode errmsg (w.record (.error errcode errmsg))
    simp only [hf, Option.map_some, wp_map]
    exact wp_callback_quick hrun ha (hQ _ ((writes_record w _).trans rfl))

theorem wp_handshakeDone_quick (h : Answering o tape) {Q : ℤ → Watched → Prop} (status : ℤ)
    (hdone : w.proto.flags.handshakeDone = true)
    (hQ : ∀ ret calls, Watched.writes { w with calls := calls } = w.writes →
      Q ret { w with proto := doneFlags w.proto, calls := calls }) :
    wp (AtFrame.handshakeDone (o.host run) status) Q anyFault w := by
  unfold AtFrame.handshakeDone
  simp only [wp_bind, Host.wp_get, wp_ite, wp_pure, hdone, Host.wp_modify, if_true, true_and]
  refine ⟨fun hupdate => ?_, fun _ => ?_⟩
  · have hsame : doneFlags w.proto = w.proto := by
      rw [Bool.not_eq_true] at hupdate
      rw [doneFlags, ← hdone, ← hupdate]
      rfl
    have hret := hQ EN_ECT_HANDSHAKE w.calls rfl
    rwa [hsame] at hret
  · cases hf : o.onHandshakeUpdateFn with
    | none => exact hQ 0 w.calls rfl
    | some f =>
      simp only [Option.map_some, wp_bind, wp_map, wp_pure]
      obtain ⟨a, ha⟩ := h.update f hf status _
      exact wp_callback_quick hrun ha (hQ 0 _ ((writes_record _ _).trans rfl))

theorem wp_watchedWrite_quick {Q : ℤ × Bool → Watched → Prop} (buf : Bytes)
    (hQ : ∀ calls m, Q ((tape (w.writes + 1)).status, (tape (w.writes + 1)).isDone)
      { w with calls := calls, outstanding := m }) :
    wp (watchedWrite run (fun _ w => .answer (tape w.writes)) buf) Q anyFault w := by
  have hcount : (Watched.record (.write buf) { w with outstanding := w.outstanding + 1 }).writes = w.writes + 1 :=
    writes_record _ _
  unfold watchedWrite
  simp only [wp_bind, wp_modify]
  refine wp_callback_quick hrun rfl ?_
  rw [hcount]
  simp only [wp_ite, wp_modify, wp_pure]
  exact ⟨fun _ => hQ _ _, fun _ => hQ _ _⟩

/-- a single block is handed to `write_fn` -/
theorem wp_tryWrite_first {Q : ℤ → Watched → Prop} (h : Answering o tape) (n : ℕ) {b : Block UInt8}
    (hidle : w.proto.flags.writing = false) (hopen : w.proto.flags.closing = false)
    (hb : w.proto.writeBuffers.blocks = [b]) (hused : b.used = 0) (hroom : w.proto.writeHeaderOffset < b.size)
    (hQ : ∀ p calls m, keyState p = keyState w.proto →
      Q (if (tape (w.writes + 1)).isDone then 0 else (tape (w.writes + 1)).status)
        { w with proto := p, calls := calls, outstanding := m }) :
    wp (AtFrame.tryWrite (o.host run) n) Q anyFault w := by
  cases n with
  | zero => exact trivial
  | succ n =>
    have hmerge : tryMerge w.proto.writeHeaderOffset w.proto.writeBuffers = some w.proto.writeBuffers := by
      simp only [tryMerge, BlockQueue.front?, BlockQueue.costNumber, hb, List.head?_cons, List.length_singleton, lt_irrefl,
        false_and, if_false]
    rw [AtFrame.tryWrite]
    simp only [h.write, Option.map_some, wp_bind, Host.wp_get, wp_ite, wp_pure, hidle, hopen, hb, List.cons_ne_nil, hmerge,
      Host.wp_modify, BlockQueue.front?, List.head?_cons, Nat.not_le.2 hroom, Bool.false_eq_true, false_implies,
      not_false_eq_true, true_and, forall_const]
    refine wp_watchedWrite_quick hrun b.data fun calls m => ⟨fun hdone => ?_, fun hdone => ?_⟩
    · refine wp_writeDone_single h n _ rfl rfl hb rfl hused fun p hp => ?_
      have hret := hQ p calls m hp
      rwa [if_pos (show (tape (w.writes + 1)).isDone = true from hdone)] at hret
    · have hret := hQ { w.proto with flags := { w.proto.flags with writing := true, closing := false },
                                     lastWritePtr := some b.addr } calls m rfl
      rwa [if_neg (show ¬ (tape (w.writes + 1)).isDone = true from hdone)] at hret

/-- **A message is refused** exactly when `Refused`, and what an update must leave alone is not touched by sending. -/
theorem wp_writeBytes_quick {Q : ℤ → Watched → Prop} (h : Answering o tape)
    (hsettled : w.proto.flags.writing = false → w.proto.writeBuffers.blocks = [])
    (hoff : w.proto.writeHeaderOffset ≤ 2 ^ 63) (hopen : w.proto.flags.closing = false) (buf : Bytes)
    (hQ : ∀ ret p calls m, (ret < 0 ↔ Refused tape w buf) → keyState p = keyState w.proto →
      Q ret { w with proto := p, calls := calls, outstanding := m }) :
    wp (writeBytes (o.host run) buf) Q anyFault w := by
  unfold writeBytes
  simp only [wp_ite, wp_pure, wp_bind, Host.wp_get]
  refine ⟨fun hpos => ⟨fun hlarge => ?_, fun hsmall => ?_⟩, fun hempty => ?_⟩
  · have hrefused : Refused tape w buf := ⟨hpos, .inl hlarge⟩
    exact hQ _ w.proto w.calls w.outstanding (iff_of_true (by decide) hrefused) rfl
  · cases hpush : w.proto.writeBuffers.pushBack (w.proto.totalBufferSize buf.length)
      (List.replicate w.proto.writeHeaderOffset 0 ++ frameBytes o.ext.hash buf) with
    | none =>
      have hfits : ¬ w.proto.writeBuffers.Fits (w.proto.totalBufferSize buf.length) := fun hfits => by
        have hsome := (BlockQueue.pushBack_isSome _ _ (List.replicate w.proto.writeHeaderOffset 0 ++
          frameBytes o.ext.hash buf)).2 hfits
        rw [hpush] at hsome
        exact Bool.false_ne_true hsome
      have hrefused : Refused tape w buf := ⟨hpos, .inr (.inl hfits)⟩
      exact hQ _ w.proto w.calls w.outstanding (iff_of_true (by decide) hrefused) rfl
    | some q =>
      obtain ⟨hfits, rfl⟩ := BlockQueue.pushBack_some hpush
      simp only [wp_bind, Host.wp_modify]
      cases hwriting : w.proto.flags.writing with
      | true =>
        refine wp_tryWrite_settled h _ (fun hidle => absurd (hidle.symm.trans hwriting) Bool.false_ne_true) ?_
        refine hQ 0 _ w.calls w.outstanding (iff_of_false (lt_irrefl 0) fun hrefused => ?_) rfl
        rcases hrefused.2 with hlarge | hnot | hidle
        · exact hsmall hlarge
        · exact hnot hfits
        · exact Bool.false_ne_true (hidle.1.symm.trans hwriting)
      | false =>
        have hroom : w.proto.writeHeaderOffset < w.proto.totalBufferSize buf.length := by
          rw [Proto.totalBufferSize, msgHeaderLen]
          omega
        refine wp_tryWrite_first hrun h _ hwriting hopen (by rw [hsettled hwriting]; rfl) rfl hroom fun p calls m hp => ?_
        exact hQ _ p calls m (refused_iff hpos hsmall hfits hwriting) hp
  · have hrefused : ¬ Refused tape w buf := fun hrefused => hempty hrefused.1
    refine wp_tryWrite_settled h _ hsettled ?_
    exact hQ 0 w.proto w.calls w.outstanding (iff_of_false (lt_irrefl 0) hrefused) rfl

/-! ## The end of an update -/

/-- the start response is sent, and the handshake ends when it is refused -/
theorem wp_sendMsg_quick (h : Answering o tape) (hw : Updatable w) (hu : Alike w u) (msg : CsMsg) :
    wp (do
      let ret ← AtFrame.writeMsg (o.host run) msg
      let _ ← (if ret < 0 then AtFrame.handshakeDone (o.host run) ret else pure 0)
      return ret)
      (fun ret w' => (ret < 0 ↔ Refused tape w (o.ext.build msg)) ∧ (ret < 0 → keyState w'.proto = (keyState u.proto).done))
      anyFault u := by
  have hstage := hu.steady.toSameStage
  rw [wp_bind]
  refine wp_writeBytes_quick hrun h (fun hidle => ?_) (hu.steady.offset ▸ hw.offset) (hstage.closing.trans hw.opened) _
    fun ret p calls m hret hp => ?_
  · rw [hu.steady.queue]
    exact hw.settled (hstage.writing.symm.trans hidle)
  · rw [hu.refused] at hret
    simp only [wp_bind, wp_ite, wp_pure]
    refine ⟨fun hneg => ?_, fun hpos => ⟨hret, fun hneg => absurd hneg hpos⟩⟩
    have hdone : p.flags.handshakeDone = true :=
      (congrArg KeyState.handshakeDone hp).trans (hstage.handshakeDone.trans hw.done)
    exact wp_handshakeDone_quick hrun h ret hdone fun _ _ _ => ⟨hret, fun _ => congrArg KeyState.done hp⟩

/-- the handshake ends with an error and no message is sent -/
theorem wp_fail_quick (h : Answering o tape) (hw : Updatable w) (hu : Alike w u) (ret : ℤ) :
    wp (do
      let _ ← AtFrame.handshakeDone (o.host run) ret
      return ret) (fun r w' => r = ret ∧ keyState w'.proto = (keyState u.proto).done) anyFault u := by
  rw [wp_bind]
  exact wp_handshakeDone_quick hrun h ret (hu.steady.handshakeDone.trans hw.done) fun _ _ _ => ⟨rfl, rfl⟩

/-! ## The start response -/

omit hrun in
/-- sending decides when the keys have changed before it -/
theorem sent_iff {k : KeyState} {ret : ℤ} {w' : Watched} {switch : SwitchSecret} {param : Bytes}
    (hret : (ret < 0 ↔ ¬ Sent o.ext tape w switch param) ∧ (ret < 0 → keyState w'.proto = k))
    (hk : k ≠ keyState w.proto) : (ret < 0 → keyState w'.proto = keyState w.proto) ↔ Sent o.ext tape w switch param := by
  constructor
  · intro hsame
    by_contra hrefused
    have hneg := hret.1.2 hrefused
    exact hk ((hret.2 hneg).symm.trans (hsame hneg))
  · exact fun hsent hneg => absurd hsent (hret.1.1 hneg)

/-- the end of `sendStartRsp` behind a packed message -/
theorem wp_sent_quick (h : Answering o tape) (hw : Updatable w) (hu : Alike w u) (switch : SwitchSecret) (param : Bytes)
    (hk : (keyState u.proto).done ≠ keyState w.proto) :
    wp (do
      let ret ← AtFrame.writeMsg (o.host run) (handshakeMsg .EN_MTT_POST_KEY_SYN (startRsp w switch param))
      let _ ← (if ret < 0 then AtFrame.handshakeDone (o.host run) ret else pure 0)
      return ret)
      (fun ret w' => (ret < 0 → keyState w'.proto = keyState w.proto) ↔ Sent o.ext tape w switch param) anyFault u := by
  refine wp_post (wp_sendMsg_quick hrun h hw hu _) fun ret w' hret => sent_iff ⟨?_, hret.2⟩ hk
  rw [hret.1, Sent, not_not]

/-- the end of `sendStartRsp` behind an error -/
theorem wp_failed_quick (h : Answering o tape) (hw : Updatable w) (hu : Alike w u) {ret : ℤ} (hneg : ret < 0) {P : Prop}
    (hk : (keyState u.proto).done = keyState w.proto ↔ P) :
    wp (do
      let _ ← AtFrame.handshakeDone (o.host run) ret
      return ret)
      (fun ret w' => (ret < 0 → keyState w'.proto = keyState w.proto) ↔ P) anyFault u := by
  refine wp_post (wp_fail_quick hrun h hw hu ret) fun r w' ⟨hr, hkeys⟩ => ?_
  rw [hr, hkeys, ← hk]
  exact ⟨fun himp => himp hneg, fun heq _ => heq⟩

theorem wp_closeHandshake_quick (h : Answering o tape) {Q : Unit → Watched → Prop} (status : ℤ)
    (hdone : u.proto.flags.handshakeDone = true)
    (hQ : ∀ calls, Watched.writes { u with calls := calls } = u.writes →
      Q () { u with proto := doneFlags (u.proto.closeHandshake status).2, calls := calls }) :
    wp (AtFrame.closeHandshake (o.host run) status) Q anyFault u := by
  unfold AtFrame.closeHandshake
  simp only [wp_bind, Host.wp_get, Host.wp_modify, wp_pure]
  refine wp_handshakeDone_quick hrun h _ ?_ fun _ calls hcalls => hQ calls hcalls
  exact (Host.steady_closeHandshake u.proto status).handshakeDone.trans hdone

omit hrun in
theorem steady_doneFlags {p : Proto} (hdone : p.flags.handshakeDone = true) : (doneFlags p).Steady p :=
  ⟨⟨rfl, rfl, rfl, hdone.symm⟩, rfl, rfl, id⟩

omit hrun in
theorem closeHandshake_keeps (p : Proto) (status : ℤ) :
    (p.closeHandshake status).2.hs.type = p.hs.type ∧ (p.closeHandshake status).2.cryptWrite = p.cryptWrite := by
  have htype : (p.setHs { p.hs with param := [] }).hs.type = p.hs.type := by rw [Host.hs_setHs]
  simp only [Proto.closeHandshake]
  split_ifs
  · split <;> exact ⟨htype, rfl⟩
  · exact ⟨htype, rfl⟩

theorem wp_packStartRspDirect_quick (h : Answering o tape) {Q : HandshakeBody → Watched → Prop}
    {c : CryptSession} (hc : (u.proto.hs.generateSecret o.ext u.proto.seed).2.2 = c)
    (hQ : ∀ calls, Watched.writes { u with calls := calls } = u.writes →
      Q (startRsp w .EN_SST_DIRECT c.secret)
        { u with proto := Proto.writeHs { u.proto.setHs c with seed := u.proto.seed + 1 }, calls := calls }) :
    wp (AtFrame.packStartRspDirect (o.host run) w.proto.sessionId w.proto.hs.type) Q anyFault u := by
  subst hc
  unfold AtFrame.packStartRspDirect
  simp only [wp_bind, Host.wp_get, Host.wp_modify, wp_ite, wp_pure]
  exact ⟨fun _ => wp_onError_quick hrun h _ _ fun calls hcalls => hQ calls hcalls, fun _ => hQ u.calls rfl⟩

theorem wp_packStartRspDh_quick (h : Answering o tape) {Q : Except ℤ HandshakeBody → Watched → Prop} {r : ℤ × Bytes}
    (hr : o.ext.dh (u.proto.handshake.dhCtx ++ [.makeParams u.proto.seed]) = r)
    (hmissing : u.proto.handshake.hasData = false → ∀ calls, Watched.writes { u with calls := calls } = u.writes →
      Q (.error EN_ECT_HANDSHAKE) { u with calls := calls })
    (hmade : u.proto.handshake.hasData = true → ∀ p calls, p.Steady u.proto → p.handshake.hasData = true →
      Watched.writes { u with calls := calls } = u.writes →
      (r.1 ≠ 0 → Q (.error EN_ECT_CRYPT_OPERATION) { u with proto := p, calls := calls }) ∧
      (r.1 = 0 → Q (.ok (startRsp w u.proto.handshake.switchSecretType r.2)) { u with proto := p, calls := calls })) :
    wp (AtFrame.packStartRspDh (o.host run) w.proto.sessionId w.proto.hs.type) Q anyFault u := by
  subst hr
  unfold AtFrame.packStartRspDh
  simp only [wp_bind, Host.wp_get, Host.wp_modify, wp_ite, wp_pure]
  have hsteady := fun c => (Host.steady_setHs _ c).trans (Host.steady_dhCall o.ext u.proto (.makeParams u.proto.seed))
  refine ⟨fun hdata => ?_, fun hdata => ⟨fun hres => ?_, fun hres => ?_⟩⟩
  · exact wp_onError_quick hrun h _ _ fun calls hcalls => hmissing (Bool.not_eq_true _ ▸ hdata) calls hcalls
  · refine wp_onError_quick hrun h _ _ fun calls hcalls => ?_
    exact (hmade (not_not.1 hdata) _ calls (hsteady _) (by exact not_not.1 hdata) hcalls).1 hres
  · exact (hmade (not_not.1 hdata) _ u.calls (hsteady _) (by exact not_not.1 hdata) rfl).2 (not_not.1 hres)

/-- **The start response of an update** leaves the keys alone when it fails exactly when `StartSafe` -/
theorem wp_sendStartRsp_quick (h : Answering o tape) (hw : Updatable w) (hu : Alike w u) {g : CryptGlobal}
    (hstart : Starting w g u.proto) (htype : w.proto.hs.type ≠ [])
    (hg : g.conf.type = [] ∨ ∀ n, g.conf.switchSecretType ≠ .other n) :
    wp (AtFrame.sendStartRsp (o.host run) .EN_MTT_POST_KEY_SYN w.proto.sessionId w.proto.hs.type)
      (fun ret w' => (ret < 0 → keyState w'.proto = keyState w.proto) ↔ StartSafe o.ext tape w g) anyFault u := by
  have hnew : u.proto.hs.setup o.ext w.proto.hs.type = newCrypt o.ext w g := by rw [hstart.hs]; rfl
  have hdone : u.proto.flags.handshakeDone = true := hu.steady.handshakeDone.trans hw.done
  unfold AtFrame.sendStartRsp AtFrame.packHandshakeStartRsp
  simp only [wp_bind, Host.wp_get, hnew, Host.wp_modify, wp_ite, wp_pure]
  constructor
  · intro hplain
    -- no encryption: both directions take the new session
    refine wp_closeHandshake_quick hrun h _ hdone fun calls hcalls => ?_
    obtain ⟨htypes, hwrites⟩ := closeHandshake_keeps (u.proto.setHs (newCrypt o.ext w g).2).readHs.writeHs (newCrypt o.ext w g).1
    have hstage := Host.steady_closeHandshake (u.proto.setHs (newCrypt o.ext w g).2).readHs.writeHs (newCrypt o.ext w g).1
    have halike : Alike w { u with
        proto := doneFlags ((u.proto.setHs (newCrypt o.ext w g).2).readHs.writeHs.closeHandshake (newCrypt o.ext w g).1).2
        calls := calls } := by
      refine ⟨(steady_doneFlags (hstage.handshakeDone.trans hdone)).trans (hstage.trans ?_), hcalls.trans hu.writes⟩
      exact (Host.steady_writeHs _).trans ((Host.steady_readHs _).trans ((Host.steady_setHs _ _).trans hu.steady))
    refine ⟨fun hneg => ?_, fun hpos => ?_⟩
    · refine wp_failed_quick hrun h hw halike hneg (iff_of_false (fun hk => ?_) fun hsafe => absurd hneg (not_lt.2 hsafe.1))
      have hempty : (newCrypt o.ext w g).2.type = [] := by
        rcases newCrypt_type htype with hfail | hok
        · exact hfail.2
        · exact absurd hneg (by rw [hok.1]; exact lt_irrefl 0)
      have hold : _ = w.proto.hs.type := congrArg KeyState.type hk
      have hnow : (u.proto.setHs (newCrypt o.ext w g).2).readHs.writeHs.hs.type = [] :=
        (congrArg CryptSession.type (Host.hs_setHs ..)).trans hempty
      exact htype (hold.symm.trans (htypes.trans hnow))
    · have hid : w.proto.sessionId = 0 := by
        rcases hplain with hid | hconf | hnil | hneg
        · exact hid
        · rw [newCrypt_conf] at hconf
          exact absurd hconf Bool.false_ne_true
        · exact absurd hnil htype
        · exact absurd hneg hpos
      have hsafe : StartSafe o.ext tape w g ↔ Sent o.ext tape w .EN_SST_DIRECT [] := by
        rw [StartSafe, if_pos hid]
        exact and_iff_right (not_lt.1 hpos)
      rw [hsafe]
      have hsent := wp_sent_quick hrun h hw halike .EN_SST_DIRECT [] fun hk => by
        have hold : _ = w.proto.cryptWrite := congrArg KeyState.cryptWrite hk
        have hnow : some u.proto.cryptHandshake = w.proto.cryptWrite := hwrites.symm.trans hold
        exact hw.write_ne hnow.symm hstart.fresh
      simp only [wp_bind, wp_ite, wp_pure] at hsent
      exact hsent
  · intro hcrypt
    rw [not_or, not_or, not_or] at hcrypt
    obtain ⟨hid, -, -, hpos⟩ := hcrypt
    have hok : (newCrypt o.ext w g).1 = 0 ∧ (newCrypt o.ext w g).2.type = w.proto.hs.type := by
      rcases newCrypt_type htype with hfail | hok
      · exact absurd hfail.1 hpos
      · exact hok
    rw [Host.hs_setHs, hstart.switchType]
    have hsafe : StartSafe o.ext tape w g ↔ _ := and_iff_right (not_lt.1 hpos)
    rw [hsafe, if_neg hid]
    set c₀ := (newCrypt o.ext w g).2
    set c₁ : CryptSession := { c₀ with param := [] }
    have hkeys := keyState_starting hw hstart c₁ c₀
    have halike : ∀ calls, Watched.writes { u with calls := calls } = u.writes →
        Alike w { u with proto := (u.proto.setHs c₀).setHs c₁, calls := calls } := fun calls hcalls =>
      ⟨(Host.steady_setHs _ _).trans ((Host.steady_setHs _ _).trans hu.steady), hcalls.trans hu.writes⟩
    have hsame : g.conf.type = [] → ((keyState ((u.proto.setHs c₀).setHs c₁)).done = keyState w.proto ↔ SameSecret o.ext w g) :=
      fun htype' => same_iff hw hstart htype' hok.2 rfl
    cases hsw : switchOf w g with
    | EN_SST_DIRECT =>
      have hsecret : (((u.proto.setHs c₀).setHs c₁).hs.generateSecret o.ext ((u.proto.setHs c₀).setHs c₁).seed).2.2 =
          (c₁.generateSecret o.ext w.proto.seed).2.2 := by
        rw [Host.hs_setHs]
        exact congrArg (fun seed => (c₁.generateSecret o.ext seed).2.2) (hstart.direct hsw)
      simp only [wp_bind, wp_pure]
      refine wp_packStartRspDirect_quick hrun h hsecret fun calls hcalls => ?_
      set c₂ := (c₁.generateSecret o.ext w.proto.seed).2.2
      set p : Proto := Proto.writeHs { ((u.proto.setHs c₀).setHs c₁).setHs c₂ with seed := u.proto.seed + 1 } with hp
      have hsteady : p.Steady w.proto :=
        (Host.steady_writeHs _).trans ((Host.steady_seed _).trans ((Host.steady_setHs _ _).trans (halike calls hcalls).steady))
      have hsent := wp_sent_quick (u := { u with proto := p, calls := calls }) hrun h hw
        ⟨hsteady, hcalls.trans hu.writes⟩ .EN_SST_DIRECT c₂.secret fun hk => by
          have hold : some u.proto.cryptHandshake = w.proto.cryptWrite := congrArg KeyState.cryptWrite hk
          exact hw.write_ne hold.symm hstart.fresh
      simp only [wp_bind, wp_pure] at hsent
      exact hsent
    | EN_SST_DH | EN_SST_ECDH =>
      simp only
      refine wp_packStartRspDh_quick hrun h rfl (fun hdata calls hcalls => ?_) fun hdata p calls hp hp' hcalls => ?_
      · have hnil : g.conf.type = [] := by
          by_contra htype'
          exact Bool.false_ne_true (hdata.symm.trans (hstart.hasData.2 htype'))
        rw [if_pos hnil]
        exact wp_failed_quick hrun h hw (halike calls hcalls) (show EN_ECT_HANDSHAKE < 0 by decide) (hsame hnil)
      · have htype' : g.conf.type ≠ [] := hstart.hasData.1 hdata
        have hswitch : g.conf.switchSecretType = .EN_SST_DH ∨ g.conf.switchSecretType = .EN_SST_ECDH := by
          rw [← switchOf_conf (w := w) htype', hsw]
          decide
        have hparams : o.ext.dh (((u.proto.setHs c₀).setHs c₁).handshake.dhCtx ++
            [.makeParams ((u.proto.setHs c₀).setHs c₁).seed]) = dhParams o.ext w g := by
          obtain ⟨hctx, hseed⟩ := hstart.dh htype' hswitch
          rw [dhParams, ← hctx, ← hseed]
          rfl
        have hchanged : (keyState p).done ≠ keyState w.proto := fun hk => by
          have hold : p.handshake.hasData = w.proto.handshake.hasData := congrArg KeyState.hasData hk
          rw [hp', hw.idle] at hold
          exact Bool.false_ne_true hold.symm
        have halike' : Alike w { u with proto := p, calls := calls } :=
          ⟨hp.trans (halike calls hcalls).steady, hcalls.trans hu.writes⟩
        rw [if_neg htype', hparams]
        refine ⟨fun hne => ?_, fun hz => ?_⟩
        · exact wp_failed_quick hrun h hw halike' (show EN_ECT_CRYPT_OPERATION < 0 by decide)
            (iff_of_false hchanged fun hsafe : (dhParams o.ext w g).1 = 0 ∧ _ => hne hsafe.1)
        · rw [and_iff_right hz, ← switchOf_conf (w := w) htype', ← hstart.switchType]
          exact wp_sent_quick hrun h hw halike' u.proto.handshake.switchSecretType (dhParams o.ext w g).2 hchanged
    | other n =>
      simp only [wp_bind, wp_pure]
      refine wp_onError_quick hrun h _ _ fun calls hcalls => ?_
      have hnil : g.conf.type = [] := by
        by_contra htype'
        exact hg.resolve_left htype' n ((switchOf_conf htype').symm.trans hsw)
      have hfailed := wp_failed_quick hrun h hw (halike calls hcalls) (show EN_ECT_CRYPT_NOT_SUPPORTED < 0 by decide) (hsame hnil)
      simp only [wp_bind, wp_pure] at hfailed
      exact hfailed

omit hrun in
/-- `setup_handshake` fails on a switch that it does not know, and the new session is left with no type -/
theorem setupHandshake_unknown (ext : Ext) (hw : Updatable w) {g : CryptGlobal} (htype : g.conf.type ≠ []) {n : ℕ}
    (hn : g.conf.switchSecretType = .other n) :
    (w.proto.newHs.setupHandshake ext (some g)).1 = EN_ECT_CRYPT_NOT_SUPPORTED ∧
      (w.proto.newHs.setupHandshake ext (some g)).2.hs.type = [] := by
  have hidle : w.proto.newHs.handshake.hasData = false := hw.idle
  have hhs : w.proto.newHs.hs = {} := Function.update_self ..
  unfold Proto.setupHandshake
  rw [if_neg (by rw [hidle]; exact Bool.false_ne_true), hhs]
  simp only [if_neg htype, hn]
  exact ⟨trivial, congrArg CryptSession.type (Host.hs_setHs w.proto.newHs _)⟩

/-- **An update** that fails leaves the keys alone exactly when `UpdateSafe`. -/
theorem wp_sendKeySyn_quick (h : Answering o tape) (hw : Updatable w) :
    wp (AtFrame.sendKeySyn (o.host run))
      (fun ret w' => (ret < 0 → keyState w'.proto = keyState w.proto) ↔ UpdateSafe o.ext tape w) anyFault w := by
  unfold AtFrame.sendKeySyn AtFrame.setupHandshake
  simp only [wp_bind, Host.wp_get, wp_ite, wp_pure, hw.opened, hw.idle, h.write, Host.wp_modify, Host.wp_getCurrent]
  refine ⟨fun hc => absurd hc Bool.false_ne_true, fun _ => ⟨fun hnil => ?_, fun htype => ⟨fun hnone => ?_, fun hsome =>
    ⟨fun hc => absurd hc Bool.false_ne_true, fun _ => ?_⟩⟩⟩⟩
  · exact iff_of_true (fun _ => trivial) (.inl hnil)
  · have hnil : w.proto.cryptWrite = none := Option.isNone_iff_eq_none.1 (hnone.resolve_left Bool.false_ne_true)
    exact iff_of_true (fun _ => trivial) (.inr (.inl hnil))
  have hwrite : w.proto.cryptWrite ≠ none := fun hnone => hsome (.inr (by rw [hnone]; rfl))
  have hsafe : UpdateSafe o.ext tape w ↔ ∀ g ∈ w.current, (g.conf.type = [] ∨ ∀ n, g.conf.switchSecretType ≠ .other n) ∧
      (g.conf.clientMode = true ∨ StartSafe o.ext tape w g) := by
    rw [UpdateSafe, or_iff_right htype, or_iff_right hwrite]
  rw [hsafe]
  cases hcur : w.current with
  | none =>
    have hok : (w.proto.newHs.setupHandshake o.ext none).1 = 0 := by
      unfold Proto.setupHandshake
      split_ifs <;> rfl
    rw [hok]
    refine ⟨fun hneg => absurd hneg (lt_irrefl 0), fun _ => ?_⟩
    exact iff_of_true (fun hneg => absurd hneg (lt_irrefl 0)) fun g hg => nomatch hg
  | some g =>
    have hall : ∀ {P : CryptGlobal → Prop}, (∀ x ∈ some g, P x) ↔ P g := by simp
    rw [hall]
    by_cases hg : g.conf.type = [] ∨ ∀ n, g.conf.switchSecretType ≠ .other n
    · obtain ⟨hok, hstart⟩ := starting_setup o.ext hw g hg
      rw [and_iff_right hg, hok]
      refine ⟨fun hneg => absurd hneg (lt_irrefl 0), fun _ => ?_⟩
      simp only [wp_ite, wp_pure, wp_bind, Host.wp_get]
      refine ⟨fun hclient => ?_, fun hserver => ?_⟩
      · exact iff_of_true (fun hneg => absurd hneg (lt_irrefl 0)) (.inl hclient)
      · rw [or_iff_right hserver, hstart.sessionId]
        have halike : Alike w { w with proto := (w.proto.newHs.setupHandshake o.ext (some g)).2, current := some g } :=
          ⟨(Host.steady_setupHandshake ..).trans (Host.steady_newHs _), rfl⟩
        exact wp_sendStartRsp_quick hrun h hw halike hstart htype hg
    · rw [not_or, not_forall] at hg
      obtain ⟨htype', n, hn⟩ := hg
      obtain ⟨hret, hnil⟩ := setupHandshake_unknown o.ext hw htype' (not_not.1 hn)
      rw [hret]
      have hneg : EN_ECT_CRYPT_NOT_SUPPORTED < 0 := by decide
      refine ⟨fun _ => iff_of_false (fun hsame => ?_) ?_, fun hpos => absurd hneg hpos⟩
      · have hold : _ = w.proto.hs.type := congrArg KeyState.type (hsame hneg)
        exact htype (hold.symm.trans hnil)
      · rintro ⟨hknown | hknown, -⟩
        · exact htype' hknown
        · exact hn (hknown n)

/-! ## The object stays open -/

omit hrun in
/-- open, with the first handshake done -/
def Opened (w : Watched) : Prop := w.proto.flags.closing = false ∧ w.proto.flags.handshakeDone = true

theorem opened_writes (h : Answering o tape) : (o.host run).Writes Opened Opened anyFault where
  quiet hw hp := ⟨hp.closing.trans hw.1, hp.handshakeDone.trans hw.2⟩
  overflow _ _ := trivial
  assertFail _ := trivial
  errorFn f hf errcode errmsg w hw := by
    obtain ⟨g, hg, rfl⟩ := Option.map_eq_some_iff.1 hf
    obtain ⟨a, ha⟩ := h.error g hg errcode errmsg (w.record (.error errcode errmsg))
    rw [wp_map]
    exact wp_callback_quick hrun ha hw
  writeFn f hf w p buf hw _ _ hp := by
    obtain ⟨g, hg, rfl⟩ := Option.map_eq_some_iff.1 hf
    obtain rfl := Option.some.inj (h.write.symm.trans hg)
    have hopen : p.flags.closing = false ∧ p.flags.handshakeDone = true := by rw [hp]; exact hw
    exact wp_watchedWrite_quick hrun buf fun _ _ => ⟨fun _ => hopen, fun _ => hopen⟩
  idle hw _ := hw
  release hw _ _ hp := by rw [Opened, Owner.host, hp]; exact hw
  written _ hclosing hw := by
    rcases hw with hw | hw <;> exact absurd (hw.1.1.symm.trans hclosing) Bool.false_ne_true

theorem opened_ends (h : Answering o tape) : (o.host run).Ends Opened anyFault Host.Guard.free where
  toCalm := (opened_writes hrun h).calm
  done hw hidle _ := absurd (hidle.symm.trans hw.2) Bool.false_ne_true
  updateFn f hf status w hw := by
    obtain ⟨g, hg, rfl⟩ := Option.map_eq_some_iff.1 hf
    obtain ⟨a, ha⟩ := h.update g hg status (w.record (.handshakeUpdate status))
    rw [wp_map]
    exact wp_callback_quick hrun ha hw
  finishCalm := (opened_writes hrun h).calm.free

end quick

/-! ## Runs -/

theorem wp_nested_answer (o : Owner) (depth : ℕ) (a : Answer) (w : Watched) :
    wp (o.nested depth (.answer a)) (fun a' w' => a' = a ∧ w' = w) anyFault w := by
  cases depth with
  | zero => exact trivial
  | succ depth => exact ⟨rfl, rfl⟩

/-- **A failed key update changes nothing**, except where it does. In every state that a run of the object reaches, with an
owner whose callbacks answer an update without calling back, and in which the object is not closing, its first handshake is
done and no handshake is running: if `handshake_update` returns a negative value, then the object is closing or its keys and
handshake flags are as before, if and only if `UpdateSafe`. -/
theorem key_update_unchanged (o : Owner) (tape : ℕ → Answer) (hanswer : Answering o tape) (depth : ℕ)
    (off recvLimit recvNumber sendLimit sendNumber seed : ℕ) (hoff : off ≤ 2 ^ 63) (current : Option CryptGlobal)
    (calls : List Call) (w : Watched)
    (hcalls : exec (o.run depth calls) (.start (Proto.fresh off recvLimit recvNumber sendLimit sendNumber seed) current) =
      (.ok (), w))
    (hopen : w.proto.flags.closing = false) (hdone : w.proto.flags.handshakeDone = true)
    (hidle : w.proto.handshake.hasData = false) (ret : ℤ) (w' : Watched)
    (hupdate : exec (AtFrame.sendKeySyn (o.host (o.nested depth))) w = (.ok ret, w')) :
    (ret < 0 → w'.proto.flags.closing = true ∨ keyState w'.proto = keyState w.proto) ↔ UpdateSafe o.ext tape w := by
  have hrun := wp_nested_answer o depth
  have hqueued := queued_of_run (by rw [hanswer.write]; rfl) rfl (linked_fresh ..) current hcalls
  have hw : Updatable w :=
    { settled := hqueued.settled
      offset := hqueued.offset.trans_le hoff
      linked := hqueued.linked
      opened := hopen
      done := hdone
      idle := hidle }
  have hclosing : w'.proto.flags.closing = false :=
    (wp_ok ((opened_ends hrun hanswer).sendKeySyn ⟨hopen, hdone⟩ fun _ _ => trivial) hupdate).1
  rw [← wp_ok (wp_sendKeySyn_quick hrun hanswer hw) hupdate, hclosing, or_iff_right Bool.false_ne_true]

/-- a server with one cipher; its client asks for it and then sends a verify message -/
@[reducible] def updatingOwner (a : Answer) : Owner where
  ext := { Ext.idle with
    build := fun _ => [1]
    verify := fun buf => some (handshakeMsg .EN_MTT_HANDSHAKE
      ⟨1, if buf = [0] then .EN_HST_START_REQ else .EN_HST_VERIFY, .EN_SST_DIRECT, some [1], some []⟩)
    ciphertok := fun t => [t]
    cipherInit := fun _ => some ⟨8, 0⟩ }
  stack := 8
  now := 0
  writeFn := some fun _ _ => .answer a
  messageFn := none
  newSessionFn := some fun _ _ => .answer ⟨0, false, 1⟩
  reconnectFn := none
  closeFn := none
  onHandshakeDoneFn := none
  onHandshakeUpdateFn := none
  onErrorFn := none

theorem updatingOwner_answering (a : Answer) : Answering (updatingOwner a) fun _ => a where
  write := rfl
  update _ hf := nomatch hf
  error _ hf := nomatch hf

def updatingConf : CryptGlobal := ⟨{ defaultCryptConfigure with type := [1] }, [[1]], .closed⟩

/-- the server behind its first handshake; its write queue takes one block -/
def updating (a : Answer) : Watched :=
  (exec ((updatingOwner a).run 1 [.frame [0] 0, .frame [1] 0])
    (.start (Proto.fresh 0 4096 2 4096 1 0) (some updatingConf))).2

/-- the server behind an update of its keys -/
def updated (a : Answer) : Watched :=
  (exec (AtFrame.sendKeySyn ((updatingOwner a).host ((updatingOwner a).nested 1))) (updating a)).2

theorem key_update_completes : UpdateSafe (updatingOwner ⟨0, true, 0⟩).ext (fun _ => ⟨0, true, 0⟩) (updating ⟨0, true, 0⟩) :=
  (key_update_unchanged _ _ (updatingOwner_answering ⟨0, true, 0⟩) 1 0 4096 2 4096 1 0 (Nat.zero_le _) (some updatingConf)
    [.frame [0] 0, .frame [1] 0] (updating ⟨0, true, 0⟩) (exec_of_fst (by decide +kernel)) (by decide +kernel)
    (by decide +kernel) (by decide +kernel) 0 (updated ⟨0, true, 0⟩) (exec_of_fst (by decide +kernel))).1
    fun hneg => absurd hneg (lt_irrefl 0)

/-- the start response of the handshake is still being written when the update is started: the queue refuses the message,
and the update is left running with the new session as the key for writing -/
theorem key_update_halfDone :
    let w := updating ⟨0, false, 0⟩
    let r := exec (AtFrame.sendKeySyn ((updatingOwner ⟨0, false, 0⟩).host ((updatingOwner ⟨0, false, 0⟩).nested 1))) w
    (w.proto.flags.closing = false ∧ w.proto.flags.handshakeDone = true ∧ w.proto.handshake.hasData = false) ∧
      r.1 = .ok pushBackError ∧ pushBackError < 0 ∧ r.2.proto.flags.closing = false ∧
      (keyState r.2.proto).hasData = true ∧ (keyState r.2.proto).cryptWrite = some 1 ∧
      (keyState w.proto).cryptWrite = some 0 ∧ keyState r.2.proto ≠ keyState w.proto := by
  decide +kernel

end AtFrame.Closing
