/-
Whole conversations of a server and a client, over one connection or many.

A client starts a session, and both sides post, ping, deliver and update the key in any order. When the connection is cut, the
client may come back with the id and the secret of its session, to a server that knows the object of the old connection.

- `peers_run`: no side closes, every handshake succeeds, each side gets what the other one has posted, and whenever nothing is
  under way both sides use one key;
- `peers_resume`: so it is behind any number of cuts, if the server has got what the client had sent before each.
Witness `peers_resume_halfway` that the last condition is needed: a client that is cut off while its answer to an update is under
way may be refused.

The sessions are encrypted: a deal has a crypt type (`Ext.Ciphers.type`). An unencrypted session has no secret to compare, and
`check_reconnect` takes it by its id alone; nothing here is about it.

Premises (`PeersEnv.Works`, `Peers.Fresh`, `PeersEvent.Fits`):
- the libraries: `Ext.Reliable`, `Ext.Ciphers` and, for the shared context of the server and a switch by DH, `Ext.Agrees`;
- the channels, the callbacks and the unlimited send buffers of `Peers`;
- the server has a configuration of its own that names the type and the switch and is not in client mode; a client has none, or
  one that was loaded in client mode;
- a buffer that is posted fits, with its padding, into the thread-local buffer for ciphers; the clock fits into 64 bits.
-/
import AtFrame.Inner.Agreement
import AtFrame.Inner.SampleExt

namespace AtFrame

open AtFrame.Lib

section runs

variable {e : PeersEnv} {d : Deal} {g : CryptGlobal} {id : UInt64} {τ : Role → Talk} {w w' w₁ : Peers} {κ : Key}

/-! ## The first message -/

/-- two objects that were just made -/
structure Peers.Fresh (g : CryptGlobal) (w : Peers) : Prop where
  fresh : ∀ r, ∃ offset recvLimit recvNumber seed cur, offset ≤ 2 ^ 20 ∧ w r = Side.fresh offset recvLimit recvNumber seed cur
  server : (w .server).current = some g
  client : ∀ g' ∈ (w .client).current, g'.Following

theorem fresh_voice (offset recvLimit recvNumber seed : ℕ) (cur : Option CryptGlobal) :
    (Side.fresh offset recvLimit recvNumber seed cur).proto.voice.Resting d none :=
  ⟨rfl, rfl, rfl, Nat.one_pos, rfl⟩

theorem fresh_line {offset : ℕ} (hoffset : offset ≤ 2 ^ 20) (recvLimit recvNumber seed : ℕ) (cur : Option CryptGlobal)
    (hash : Bytes → ℕ) : (Side.fresh offset recvLimit recvNumber seed cur).Line hash [] := by
  refine ⟨fun _ hp => absurd hp List.not_mem_nil, [], ⟨hoffset, rfl, ⟨rfl, rfl⟩, ?_, ?_, fun hw => absurd hw Bool.false_ne_true⟩, rfl,
    .inr ⟨rfl, rfl, rfl⟩⟩
  · exact BlockQueue.addrOk_empty 0 0
  · exact .nil

/-- a side that was just made -/
structure Side.New (hash : Bytes → ℕ) (d : Deal) (s : Side) : Prop where
  voice : s.proto.voice.Resting d none
  line : s.Line hash []
  sessionId : s.proto.sessionId = 0
  direct : s.proto.voice.handshake.switchSecretType = .EN_SST_DIRECT
  nothing : s.posted = [] ∧ s.received = [] ∧ s.statuses = []

theorem Peers.Fresh.new (h : w.Fresh g) (hash : Bytes → ℕ) (d : Deal) (r : Role) : (w r).New hash d := by
  obtain ⟨offset, recvLimit, recvNumber, seed, cur, hoffset, hr⟩ := h.fresh r
  rw [hr]
  exact ⟨fresh_voice .., fresh_line hoffset .., rfl, rfl, rfl, rfl, rfl⟩

/-- **The client's first message** puts both sides on a stage. -/
theorem Peers.Fresh.agreed (h : w.Fresh g) {v : Voice} {m : Bytes} {φ : Phase}
    (hat : Peers.At e.ext.hash .client w [m] v (w .client).current (w .client).statuses w') (hin : v.In d id φ) (hhears : φ.hears = none)
    (hstage : Stage e d g id .fresh φ [] [(m, φ.speaks)]) : ∃ τ, Peers.Agreed e d g id τ w' := by
  have hclient := h.new e.ext.hash d .client
  have hserver := h.new e.ext.hash d .server
  have hpeer : w' .server = w .server := hat.peer
  refine ⟨Role.client.pair ⟨φ, [m], [(m, φ.speaks)], []⟩ ⟨.fresh, [], [], []⟩, hstage, ?_, ?_, Role.both .client ?_ ?_,
    Role.both .client ?_ ?_⟩
  · rw [hpeer]
    exact h.server
  · rw [hat.current]
    exact h.client
  · rw [pair_self]
    refine ⟨by rw [hat.voice]; exact hin, hat.line, ?_, ?_⟩ <;> rw [hat.statuses, hclient.nothing.2.2]
    · exact fun _ hm => absurd hm List.not_mem_nil
    · exact fun hm => absurd hm List.not_mem_nil
  · change (w' .server).Talks _ _ _ ⟨.fresh, [], [], []⟩
    rw [hpeer]
    refine ⟨hserver.voice, hserver.line, ?_, ?_⟩ <;> rw [hserver.nothing.2.2]
    · exact fun _ hm => absurd hm List.not_mem_nil
    · exact fun hm => absurd hm List.not_mem_nil
  · change (w' .client).Reaches e.ext ⟨φ, [m], [(m, φ.speaks)], []⟩ none (w' .server).received
    rw [hpeer, hserver.nothing.2.1]
    exact ⟨.mark (.nil φ.speaks), by rw [hat.posted, hclient.nothing.1]; rfl⟩
  · change (w' .server).Reaches e.ext ⟨.fresh, [], [], []⟩ φ.hears (w' .client).received
    rw [hpeer, hat.received, hclient.nothing.2.1, hhears]
    exact ⟨.nil none, by rw [hserver.nothing.1]; rfl⟩

/-- the client starts a session -/
theorem agreed_start {cryptTypes : Bytes} (hn : e.Negotiates d g cryptTypes) (h : w.Fresh g) :
    wp (startSession (Peers.host e .client) cryptTypes) (fun _ w' => ∃ τ, Peers.Agreed e d g e.newId τ w') Deep w := by
  have hnew := h.new e.ext.hash d .client
  have hat := Peers.At.start hnew.line
  unfold startSession
  simp only [wp_bind, Host.wp_get, wp_ite, wp_pure, hnew.sessionId, hat.closing]
  refine ⟨fun hc => absurd hc Bool.false_ne_true, fun _ => ⟨fun hc => absurd rfl hc, fun _ => ⟨fun hc => absurd hc Bool.false_ne_true,
    fun _ => ?_⟩⟩⟩
  exact wp_post (hat.writeHandshake hn.serves.reliable List.mem_cons_self (startReq_short hn.offered.2)) fun _ w' ⟨_, hat'⟩ =>
    h.agreed (φ := .fresh) hat' hnew.voice rfl (.start cryptTypes rfl hn)

/-- the client comes back -/
theorem agreed_resume (hn : e.Works d g id) (h : w.Fresh g) (hκ : d.key κ.secret = κ) (hknows : e.Knows d id κ) :
    wp (reconnectSession (Peers.host e .client) id d.type κ.secret) (fun _ w' => ∃ τ, Peers.Agreed e d g id τ w') Deep w := by
  have hnew := h.new e.ext.hash d .client
  exact wp_post (reconnectSession_phase hn.serves (Peers.At.start hnew.line) hnew.voice hnew.direct hκ)
    fun _ w' ⟨v', out, hin, hsealed, hat⟩ => h.agreed (φ := .resuming κ) hat hin rfl (.resume κ out hknows hsealed)

/-! ## Runs -/

theorem agreed_events (hn : e.Works d g id) (h : Peers.Agreed e d g id τ w) {events : List PeersEvent}
    (hfits : ∀ ev ∈ events, ev.Fits) :
    wp (events.forM (Peers.event e)) (fun _ w' => ∃ τ, Peers.Agreed e d g id τ w') Deep w :=
  wp_forM (P := fun ev _ => ev.Fits) (fun _ _ ⟨_, h'⟩ hev => agreed_event hn hev h') ⟨τ, h⟩
    (eachMeets_of_forall fun ev hev _ => hfits ev hev)

/-- the other side has got all that this one has sent -/
def Side.Drained (s : Side) : Prop := s.outstanding = 0 ∧ ¬ Framing.Complete s.wire

instance (s : Side) : Decidable s.Drained := inferInstanceAs (Decidable (_ ∧ _))

/-- a side that is open, was told of no failure, and whose buffers arrive whole and in order -/
structure Peers.Delivers (w : Peers) (r : Role) : Prop where
  closing : (w r).proto.flags.closing = false
  statuses : ∀ status ∈ (w r).statuses, status = 0
  received : (w r.peer).received.map cut <+: (w r).posted
  all : (w r).Drained → (w r).posted = (w r.peer).received.map cut

theorem Peers.Agreed.marks_nil (h : Peers.Agreed e d g id τ w) {r : Role} (hdrained : (w r).Drained) : (τ r).marks = [] := by
  have hflow := (h.reaches r).flow
  rw [(h.talks r).line.empty hdrained.1 hdrained.2] at hflow
  exact hflow.nothing.2

theorem agreed_run {cryptTypes : Bytes} (hn : e.Negotiates d g cryptTypes) (hw : w.Fresh g) {events : List PeersEvent}
    (hfits : ∀ ev ∈ events, ev.Fits) :
    wp (Peers.run e cryptTypes events) (fun _ w' => ∃ τ, Peers.Agreed e d g e.newId τ w') Deep w := by
  unfold Peers.run
  rw [wp_bind]
  exact wp_post (agreed_start hn hw) fun _ _ ⟨_, h⟩ => agreed_events hn.toWorks h hfits

/-- the client was told that its handshake is done, and the server has got all that it has sent -/
structure Peers.Resumable (w : Peers) : Prop where
  told : 0 ∈ (w .client).statuses
  got : (w .client).Drained

instance (w : Peers) : Decidable w.Resumable :=
  decidable_of_iff (0 ∈ (w .client).statuses ∧ (w .client).Drained) ⟨fun h => ⟨h.1, h.2⟩, fun h => ⟨h.told, h.got⟩⟩

/-- the key of the session of the last handshake -/
def Phase.holds : Phase → Option Key
  | .fresh | .awaiting _ _ _ => none
  | .offered _ κ | .verifying _ κ _ | .answering _ κ | .resuming κ | .settled κ => some κ

theorem Voice.In.holds {v : Voice} {φ : Phase} (h : v.In d id φ) (hκ : φ.holds = some κ) : v.hs.Holds d κ := by
  cases φ with
  | fresh => cases hκ
  | offered old κ' =>
    obtain rfl := Option.some.inj hκ
    exact h.2.2.2.2.2.1.toHolds
  | awaiting old shared seed => cases hκ
  | verifying old κ' text =>
    obtain rfl := Option.some.inj hκ
    exact h.2.2.2.2.1.toHolds
  | answering old κ' =>
    obtain rfl := Option.some.inj hκ
    exact h.2.2.2.2.toHolds
  | resuming κ' =>
    obtain rfl := Option.some.inj hκ
    exact Voice.Resuming.holds h
  | settled κ' =>
    obtain rfl := Option.some.inj hκ
    exact h.1.ends.2.2.toHolds

/-- a side that was told of a handshake has the id -/
theorem Voice.In.named {v : Voice} {φ : Phase} (h : v.In d id φ) (hdone : φ.isDone = true) : v.sessionId = id := by
  cases φ with
  | fresh => cases hdone
  | offered old κ => exact h.1.sessionId
  | awaiting old shared seed => exact h.1.sessionId
  | verifying old κ text => exact h.1.sessionId
  | answering old κ => exact h.1.sessionId
  | resuming κ => cases hdone
  | settled κ => exact h.2

/-- where no handshake message is on the way to the server, it reads with the key of the client's last handshake -/
theorem Stage.of_got {φ ψ : Phase} {ms : List (Bytes × Option Key)} (h : Stage e d g id φ ψ ms []) (hdone : ψ.isDone = true) :
    ∃ κ, φ.hears = some κ ∧ ψ.holds = some κ := by
  cases h with
  | accept κ φ param hoffers => cases hdone
  | offer old φ param hoffers =>
    rw [isDone_calm] at hdone
    obtain ⟨κ, rfl⟩ := Option.isSome_iff_exists.1 hdone
    exact ⟨κ, hoffers.hears, rfl⟩
  | respond old κ text out htext hsealed =>
    obtain ⟨κ', rfl⟩ := Option.isSome_iff_exists.1 hdone
    exact ⟨κ, rfl, rfl⟩
  | settled κ => exact ⟨κ, rfl, rfl⟩

/-- **Behind a cut** the object of the server reads with the key that the client still has. -/
theorem Peers.Agreed.left (h : Peers.Agreed e d g id τ w) (hcut : w.Resumable) :
    ∃ κ, (w .server).proto.sessionId = id ∧ (w .server).proto.reconnectCrypt.Keyed d κ ∧ (w .client).proto.sessionId = id ∧
      (w .client).proto.hs.Holds d κ := by
  have hclient := (h.talks .client).voice
  have hserver := (h.talks .server).voice
  have hdone : (τ .client).phase.isDone = true := by
    rw [← hclient.told]
    exact (h.talks .client).done hcut.told
  have hstage := h.stage
  rw [Staged, h.marks_nil hcut.got] at hstage
  obtain ⟨κ, hhears, hholds⟩ := hstage.of_got hdone
  obtain ⟨hdone', c, hread, hkey⟩ := hserver.hears hhears
  have hcrypt : (w .server).proto.reconnectCrypt = (w .server).proto.crypts c := by
    unfold Proto.reconnectCrypt
    rw [show (w .server).proto.cryptRead = some c from hread]
  refine ⟨κ, hserver.named (by rw [← hserver.told]; exact hdone'), ?_, hclient.named hdone, hclient.holds hholds⟩
  rw [hcrypt]
  exact hkey

/-- the client of `w` comes back with what it has left, and anything may happen -/
def Peers.comeBack (e : PeersEnv) (w : Peers) (events : List PeersEvent) : Prog Fault Peers Unit :=
  Peers.resume e (w .client).proto.sessionId (w .client).proto.hs.type (w .client).proto.hs.secret events

/-- **A session** over any number of connections, of which `w` is the last: a client starts it, and comes back behind each cut to a
server whose owner knows the object of the connection before. -/
inductive Peers.Lives (d : Deal) : UInt64 → Peers → Prop where
  | start {e : PeersEnv} {g : CryptGlobal} {cryptTypes : Bytes} {w w' : Peers} {events : List PeersEvent} :
    e.Negotiates d g cryptTypes → w.Fresh g → (∀ ev ∈ events, ev.Fits) → exec (Peers.run e cryptTypes events) w = (.ok (), w') →
      Lives d e.newId w'
  | resume {e : PeersEnv} {g : CryptGlobal} {id : UInt64} {w₁ w w' : Peers} {events : List PeersEvent} :
    Lives d id w₁ → w₁.Resumable → e.old = some (w₁ .server).proto → e.Works d g id → w.Fresh g → (∀ ev ∈ events, ev.Fits) →
      exec (Peers.comeBack e w₁ events) w = (.ok (), w') → Lives d id w'

theorem agreed_comeBack {e₁ : PeersEnv} {g₁ : CryptGlobal} (h : Peers.Agreed e₁ d g₁ id τ w₁) (hcut : w₁.Resumable)
    (hold : e.old = some (w₁ .server).proto) (hn : e.Works d g id) (hw : w.Fresh g) {events : List PeersEvent}
    (hfits : ∀ ev ∈ events, ev.Fits) :
    wp (Peers.comeBack e w₁ events) (fun _ w' => ∃ τ, Peers.Agreed e d g id τ w') Deep w := by
  obtain ⟨κ, hid, hkey, hclient, hholds⟩ := h.left hcut
  unfold Peers.comeBack Peers.resume
  rw [hclient, hholds.type, hholds.secret, wp_bind]
  exact wp_post (agreed_resume hn hw hholds.proper ⟨_, hold, hid, hkey⟩) fun _ _ ⟨_, h'⟩ => agreed_events hn h' hfits

/-- every connection of a session ends in agreement -/
theorem Peers.Lives.agreed (h : Peers.Lives d id w) : ∃ e g τ, Peers.Agreed e d g id τ w := by
  induction h with
  | @start e g cryptTypes w w' events hn hw hfits hrun =>
    obtain ⟨τ, h⟩ := wp_ok (agreed_run hn hw hfits) hrun
    exact ⟨e, g, τ, h⟩
  | @resume e g id w₁ w w' events _ hcut hold hn hw hfits hrun ih =>
    obtain ⟨e₁, g₁, τ₁, h₁⟩ := ih
    obtain ⟨τ, h⟩ := wp_ok (agreed_comeBack h₁ hcut hold hn hw hfits) hrun
    exact ⟨e, g, τ, h⟩

end runs

/-! ## Runs on a sample -/

/-- a run ends, and with such a pair -/
def Peers.ends (m : Prog Fault Peers Unit) (w : Peers) (check : Peers → Bool) : Bool :=
  match exec m w with
  | (.ok _, w') => check w'
  | (.error _, _) => false

theorem Peers.ends_elim (m : Prog Fault Peers Unit) (w : Peers) (check : Peers → Bool) (h : Peers.ends m w check = true) :
    exec m w = (.ok (), (exec m w).2) ∧ check (exec m w).2 = true := by
  unfold Peers.ends at h
  rcases hm : exec m w with ⟨_ | _, w'⟩ <;> rw [hm] at h
  · cases h
  · exact ⟨rfl, h⟩

/-- a server with a configuration of its own -/
def sampleConf (switchType : SwitchSecret) : CryptGlobal :=
  (CryptGlobal.init Ext.sample { defaultCryptConfigure with type := [120], switchSecretType := switchType }).2

/-- the server's writes are done later -/
def sampleEnv (old : Option Proto) : PeersEnv where
  ext := Ext.sample
  stack := 8
  now := 5
  atOnce r _ := r = .client
  newId := 7
  old := old

def sampleSides (switchType : SwitchSecret) : Peers
  | .server => Side.fresh 8 4096 4 1 (some (sampleConf switchType))
  | .client => Side.fresh 0 4096 4 2 none

theorem sample_works (old : Option Proto) (switchType : SwitchSecret) (h : switchType.Known) :
    (sampleEnv old).Works (SampleExt.deal switchType) (sampleConf switchType) 7 where
  serves := SampleExt.serves h
  agrees := by
    cases switchType with
    | EN_SST_DIRECT => exact fun hno => absurd rfl hno
    | EN_SST_DH => exact SampleExt.agrees rfl rfl
    | EN_SST_ECDH => exact SampleExt.agrees rfl rfl
    | other n => exact h.elim
  id := by decide
  offering := by
    cases switchType with
    | other n => exact h.elim
    | _ => exact ⟨⟨List.cons_ne_nil _ _, rfl⟩, rfl⟩
  now := ⟨by norm_num [sampleEnv], by norm_num [sampleEnv]⟩

theorem sample_negotiates (old : Option Proto) (switchType : SwitchSecret) (h : switchType.Known) :
    (sampleEnv old).Negotiates (SampleExt.deal switchType) (sampleConf switchType) [120] :=
  ⟨sample_works old switchType h, by simp, by
    cases switchType with
    | other n => exact h.elim
    | _ => rfl⟩

theorem sample_fresh (switchType : SwitchSecret) : (sampleSides switchType).Fresh (sampleConf switchType) := by
  refine ⟨Role.both .server ⟨_, _, _, _, _, by norm_num, rfl⟩ ⟨_, _, _, _, _, Nat.zero_le _, rfl⟩, rfl, ?_⟩
  exact fun g' hg' => absurd hg' (Option.not_mem_none g')

attribute [local irreducible] wp

/-- the pair of a connection that ends behind `events` -/
def sampleLeft (events : List PeersEvent) : Peers := (exec (Peers.run (sampleEnv none) [120] events) (sampleSides .EN_SST_DH)).2

theorem sampleLeft_lives (events : List PeersEvent) (check : Peers → Bool) (hfits : ∀ ev ∈ events, ev.Fits)
    (h : Peers.ends (Peers.run (sampleEnv none) [120] events) (sampleSides .EN_SST_DH) check = true) :
    Peers.Lives (SampleExt.deal .EN_SST_DH) 7 (sampleLeft events) ∧ check (sampleLeft events) = true :=
  ⟨.start (sample_negotiates none .EN_SST_DH trivial) (sample_fresh .EN_SST_DH) hfits (Peers.ends_elim _ _ _ h).1, (Peers.ends_elim _ _ _ h).2⟩

/-- the client has answered the update, and its answer is under way -/
def halfwayEvents : List PeersEvent :=
  [.deliver .server, .deliver .client, .written .server, .deliver .server, .deliver .client, .written .server, .deliver .server,
    .update, .deliver .client]

/-- a client that is cut off in the middle of an update may be told that its session cannot be resumed -/
theorem peers_resume_halfway : ¬ ∀ (e : PeersEnv) (d : Deal) (g : CryptGlobal) (id : UInt64) (w₁ w : Peers), Peers.Lives d id w₁ →
    0 ∈ (w₁ .client).statuses → e.old = some (w₁ .server).proto → e.Works d g id → w.Fresh g →
    ∀ events : List PeersEvent, (∀ ev ∈ events, ev.Fits) → wp (Peers.comeBack e w₁ events) (fun _ w' => ∀ r, w'.Delivers r) Deep w := by
  intro h
  obtain ⟨hlives, htold⟩ := sampleLeft_lives halfwayEvents (fun w' => decide (0 ∈ (w' .client).statuses)) (by decide)
    (by decide +kernel)
  have hdelivers := h (sampleEnv (some (sampleLeft halfwayEvents .server).proto)) _ (sampleConf .EN_SST_DH) 7 _ _ hlives
    (of_decide_eq_true htold) rfl (sample_works _ .EN_SST_DH trivial) (sample_fresh .EN_SST_DH) [.deliver .server] (by decide)
  obtain ⟨hrun, hstatus⟩ := Peers.ends_elim (Peers.comeBack (sampleEnv (some (sampleLeft halfwayEvents .server).proto))
    (sampleLeft halfwayEvents) [.deliver .server]) (sampleSides .EN_SST_DH)
    (fun w' => decide (EN_ECT_REFUSE_RECONNECT ∈ (w' .server).statuses)) (by decide +kernel)
  exact absurd ((wp_ok hdelivers hrun .server).statuses _ (of_decide_eq_true hstatus)) (by decide)

end AtFrame
