/-
A server and a client that talk over lossless channels agree on their keys, however their messages, writes and key updates
interleave.

`Stage` lists the pairs of phases that occur, each with the one handshake message that is under way; between them stands
any number of posts and pings. `Peers.Agreed` says that both sides are in such a stage and that each channel is a `Flow`: the
receiver reads each post with the key that protects it, in the order in which they were sent.

- `Peers.Agreed.moved`: what is left to show of a handshake message;
- `agreed_event`: each event keeps it.
-/
import AtFrame.Inner.Reconnect
import AtFrame.Lib.Flow

namespace AtFrame

open AtFrame.Lib

/-! ## What is under way -/

/-- a post of the buffer `x` under a key -/
def Ext.Carries (ext : Ext) (k : Option Key) (x m : Bytes) : Prop :=
  ∃ κ out pad, k = some κ ∧ m = ext.build (postMsg x.length out) ∧ (postMsg x.length out).Sendable ∧
    ext.decrypt κ.cipher out = .ok (x ++ pad) ∧ out ≠ []

/-- a message that needs no key -/
def Ext.Pings (ext : Ext) (m : Bytes) : Prop :=
  ∃ type timepoint, type ∈ [MsgType.EN_MTT_PING, .EN_MTT_PONG] ∧ (-2 ^ 63 ≤ timepoint ∧ timepoint < 2 ^ 63) ∧
    m = ext.build (pingMsg type timepoint)

/-- the first message of a client -/
def startReq (cryptTypes : Bytes) : HandshakeBody where
  sessionId := 0
  step := .EN_HST_START_REQ
  switchType := .EN_SST_DIRECT
  cryptType := some cryptTypes
  cryptParam := some []

theorem startReq_short {cryptTypes : Bytes} (hlen : cryptTypes.length ≤ 2 ^ 16) : (startReq cryptTypes).Short :=
  ⟨trivial, trivial, hlen, Nat.zero_le _⟩

/-- the start response of an update has its own message type -/
def synType : Option Key → MsgType
  | none => .EN_MTT_HANDSHAKE
  | some _ => .EN_MTT_POST_KEY_SYN

/-- the server takes `answer` as the confirmation of the key -/
inductive Confirms (ext : Ext) (κ : Key) (answer : Bytes) : Phase → Prop where
  | direct (old : Option Key) : Confirms ext κ answer (.offered old κ)
  | dh (old : Option Key) (text : Bytes) : answer ≠ [] → ext.Answers κ text answer → Confirms ext κ answer (.verifying old κ text)

/-- a server with the configuration `g` and a client can settle on a key -/
structure PeersEnv.Works (e : PeersEnv) (d : Deal) (g : CryptGlobal) (id : UInt64) : Prop where
  serves : e.ext.Serves d
  agrees : e.ext.Agrees d g.sharedDhContext
  id : id ≠ 0
  offering : g.Offering d
  now : -2 ^ 63 ≤ e.now ∧ e.now < 2 ^ 63

/-- a buffer that is posted fits into the thread-local buffers, with its padding -/
def PeersEvent.Fits : PeersEvent → Prop
  | .post _ buffer => buffer.length + 2048 ≤ msgLimit
  | _ => True

instance : DecidablePred PeersEvent.Fits := by
  rintro (_ | _) <;> dsimp only [PeersEvent.Fits] <;> infer_instance

/-- the server gives the client a session with one of the types -/
structure PeersEnv.Negotiates (e : PeersEnv) (d : Deal) (g : CryptGlobal) (cryptTypes : Bytes) : Prop extends e.Works d g e.newId where
  offered : cryptTypes ≠ [] ∧ cryptTypes.length ≤ 2 ^ 16
  select : selectCryptType (some g) (e.ext.ciphertok cryptTypes) = some d.type

section stage

variable (e : PeersEnv) (d : Deal) (g : CryptGlobal) (id : UInt64)

/-- **Where a handshake stands**: the phases of server and client, the handshake messages on the way to the client and to the
server, and the key that the sender uses behind each. -/
inductive Stage : Phase → Phase → List (Bytes × Option Key) → List (Bytes × Option Key) → Prop where
  | start (cryptTypes : Bytes) :
    id = e.newId → e.Negotiates d g cryptTypes →
      Stage .fresh .fresh [] [(e.ext.build (handshakeMsg .EN_MTT_HANDSHAKE (startReq cryptTypes)), none)]
  | resume (κ : Key) (out : Bytes) :
    e.Knows d id κ → e.ext.Sealed κ κ.secret out →
      Stage .fresh (.resuming κ) [] [(e.ext.build (handshakeMsg .EN_MTT_HANDSHAKE (d.reconnReq id out)), some κ)]
  | accept (κ : Key) (φ : Phase) (param : Bytes) :
    Offers e.ext d (some κ) φ param →
      Stage φ (.resuming κ) [(e.ext.build (handshakeMsg .EN_MTT_HANDSHAKE (d.reconnRsp id)), some κ),
        (e.ext.build (handshakeMsg .EN_MTT_POST_KEY_SYN (d.startRsp id param)), φ.speaks)] []
  | offer (old : Option Key) (φ : Phase) (param : Bytes) :
    Offers e.ext d old φ param →
      Stage φ (.calm old) [(e.ext.build (handshakeMsg (synType old) (d.startRsp id param)), φ.speaks)] []
  | answer (old : Option Key) (shared : DhShared) (seed n : ℕ) (param pubkey secret : Bytes) :
    e.ext.Exchange shared d.clientShared seed n param pubkey secret → pubkey.length ≤ 2 ^ 16 →
      Stage (.awaiting old shared seed) (.answering old (d.key secret)) []
        [(e.ext.build (handshakeMsg .EN_MTT_HANDSHAKE (d.pubkeyReq id pubkey)), old.map fun _ => d.key secret)]
  | respond (old : Option Key) (κ : Key) (text out : Bytes) :
    text.length ≤ 2048 → e.ext.Sealed κ text out →
      Stage (.verifying old κ text) (.answering old κ)
        [(e.ext.build (handshakeMsg .EN_MTT_HANDSHAKE (d.pubkeyRsp id out)), some κ)] []
  | confirm (φ : Phase) (κ : Key) (answer : Bytes) :
    Confirms e.ext κ answer φ → answer.length ≤ 2 ^ 16 →
      Stage φ (.settled κ) [] [(e.ext.build (handshakeMsg .EN_MTT_HANDSHAKE (d.verify id answer)), some κ)]
  | settled (κ : Key) : Stage (.settled κ) (.settled κ) [] []

end stage

/-- what is known of a side and of the channel from it: `flight` are the buffers that the other side has not got -/
structure Talk where
  phase : Phase
  payloads : List Bytes
  marks : List (Bytes × Option Key)
  flight : List Bytes

/-- the buffer of a `message_fn` call, which the cipher may have padded -/
def cut (call : Bytes × ℕ) : Bytes := call.1.take call.2

/-- a side by itself -/
structure Side.Talks (hash : Bytes → ℕ) (d : Deal) (id : UInt64) (s : Side) (τ : Talk) : Prop where
  voice : s.proto.voice.In d id τ.phase
  line : s.Line hash τ.payloads
  statuses : ∀ status ∈ s.statuses, status = 0
  done : 0 ∈ s.statuses → s.proto.voice.handshakeDone = true

/-- the channel from a side to one that hears `hears` and has got `received` -/
structure Side.Reaches (ext : Ext) (s : Side) (τ : Talk) (hears : Option Key) (received : List (Bytes × ℕ)) : Prop where
  flow : Flow ext.Carries ext.Pings hears τ.payloads τ.marks τ.phase.speaks τ.flight
  posted : s.posted = received.map cut ++ τ.flight

/-- both sides are in one stage -/
def Staged (e : PeersEnv) (d : Deal) (g : CryptGlobal) (id : UInt64) (τ : Role → Talk) : Prop :=
  Stage e d g id (τ .server).phase (τ .client).phase (τ .server).marks (τ .client).marks

/-- server and client with the configuration `g` of the server -/
structure Peers.Agreed (e : PeersEnv) (d : Deal) (g : CryptGlobal) (id : UInt64) (τ : Role → Talk) (w : Peers) : Prop where
  stage : Staged e d g id τ
  server : (w .server).current = some g
  client : ∀ g' ∈ (w .client).current, g'.Following
  talks : ∀ r, (w r).Talks e.ext.hash d id (τ r)
  reaches : ∀ r, (w r).Reaches e.ext (τ r) (τ r.peer).phase.hears (w r.peer).received

/-! ## Getting a message -/

namespace Host

variable {W : Type} {H : Host W} {E : Fault → W → Prop} {w : W} {d : Deal} {κ : Key}

/-- a message that the verifier reads back -/
theorem wp_dispatchData (hopen : (H.proto w).flags.closing = false) {buffer : Bytes} {type : MsgType} {body : CsBody}
    (hverify : H.ext.verify buffer = some ⟨some type, body⟩) {Q : Unit → W → Prop} (hQ : wp (dispatchMsg H type body) Q E w) :
    wp (dispatchData H buffer 0) Q E w := by
  unfold dispatchData
  simp only [wp_bind, wp_get, wp_ite, hopen, hverify]
  exact ⟨fun hc => absurd hc Bool.false_ne_true, fun _ => ⟨fun hneg => absurd hneg (lt_irrefl 0), fun _ => hQ⟩⟩

/-- a post under the key of the read handle -/
theorem wp_dispatchPost_keyed (hc : H.ext.Ciphers d) (hopen : (H.proto w).flags.closing = false)
    (hdone : (H.proto w).flags.handshakeDone = true) {c : ℕ} (hread : (H.proto w).cryptRead = some c)
    (hkey : ((H.proto w).crypts c).Keyed d κ) {n : ℕ} {data out : Bytes} (hdata : data ≠ [])
    (hback : H.ext.decrypt κ.cipher data = .ok out) {f : Bytes → ℕ → Prog Fault W ℤ} (hf : H.messageFn = some f)
    {Q : Unit → W → Prop} (hQ : wp (f out n) (fun _ => Q ()) E w) :
    wp (dispatchPost H (some ⟨n, some data⟩)) Q E w := by
  have hready : ¬ (¬ (H.proto w).flags.handshakeDone = true ∨ (H.proto w).cryptRead.isNone = true) := by
    rw [hdone, hread]
    simp
  unfold dispatchPost decodePost
  simp only [wp_bind, wp_get, wp_ite, wp_pure]
  refine ⟨fun hno => absurd hno hready, fun _ => ⟨fun hclosing => ?_, fun _ => ?_⟩⟩
  · rw [hopen] at hclosing
    cases hclosing
  · rw [hread]
    simp only [wp_bind]
    refine wp_decryptData_keyed hc hopen hkey.toHolds hdata hback ?_
    simp only [wp_ite, wp_pure]
    refine ⟨fun hneg => absurd hneg (lt_irrefl 0), fun _ => ⟨fun _ => ?_, fun hfail => absurd rfl hfail⟩⟩
    rw [hf]
    simp only [wp_bind, wp_pure]
    exact hQ

/-- a handshake message that its handler takes -/
theorem wp_dispatchHandshake (hopen : (H.proto w).flags.closing = false)
    (hrun : ¬ ((H.proto w).flags.handshakeDone = true ∧ ¬ (H.proto w).flags.handshakeUpdate = true)) {body : HandshakeBody}
    {Q : W → Prop} (hstep : wp (dispatchHandshakeStep H body) (fun ret w' => ret = 0 ∧ Q w') E w) :
    wp (dispatchHandshake H body) (fun _ => Q) E w := by
  unfold dispatchHandshake
  simp only [wp_bind, wp_get, wp_ite, wp_pure, hopen]
  refine ⟨fun hc => absurd hc Bool.false_ne_true, fun _ => ⟨fun hno => absurd hno hrun, fun _ => ?_⟩⟩
  refine wp_post hstep fun ret w' ⟨hret, hw'⟩ => ⟨fun hneg => ?_, fun _ => hw'⟩
  rw [hret] at hneg
  exact absurd hneg (lt_irrefl 0)

end Host

section events

variable {e : PeersEnv} {d : Deal} {g : CryptGlobal} {id : UInt64} {τ : Role → Talk} {w w' : Peers} {r : Role} {κ : Key}
  {payloads : List Bytes}

/-! ## Sending -/

/-- a ping is sent -/
theorem ping_line (hrel : e.ext.Reliable) (h : (w r).Line e.ext.hash payloads) {type : MsgType}
    (htype : type ∈ [MsgType.EN_MTT_PING, .EN_MTT_PONG]) {timepoint : ℤ} (htime : -2 ^ 63 ≤ timepoint ∧ timepoint < 2 ^ 63) :
    wp (writeMsg (Peers.host e r) (pingMsg type timepoint))
      (fun _ w' => ∃ sent, (∀ m ∈ sent, e.ext.Pings m) ∧ w.Leaves e.ext.hash r (payloads ++ sent) w') Deep w := by
  refine wp_post (sendable_line hrel h (.ping htype htime)) fun ret w' ⟨_, hleft⟩ => ⟨_, fun m hm => ?_, hleft⟩
  rw [List.mem_singleton.1 hm]
  exact ⟨type, timepoint, htype, htime, rfl⟩

theorem sendPong_line (hrel : e.ext.Reliable) (h : (w r).Line e.ext.hash payloads) (hopen : (w r).proto.flags.closing = false)
    {timepoint : ℤ} (htime : -2 ^ 63 ≤ timepoint ∧ timepoint < 2 ^ 63) :
    wp (sendPong (Peers.host e r) timepoint)
      (fun _ w' => ∃ sent, (∀ m ∈ sent, e.ext.Pings m) ∧ w.Leaves e.ext.hash r (payloads ++ sent) w') Deep w := by
  unfold sendPong
  simp only [wp_bind, Host.wp_get, wp_ite, wp_pure, hopen]
  exact ⟨fun hc => absurd hc Bool.false_ne_true, fun _ => ⟨fun hc => absurd hc Bool.false_ne_true, fun _ =>
    ping_line hrel h (List.mem_cons_of_mem _ List.mem_cons_self) htime⟩⟩

theorem sendPing_line (hrel : e.ext.Reliable) (hnow : -2 ^ 63 ≤ e.now ∧ e.now < 2 ^ 63) (h : (w r).Line e.ext.hash payloads)
    (hopen : (w r).proto.flags.closing = false) :
    wp (sendPing (Peers.host e r))
      (fun _ w' => ∃ sent, (∀ m ∈ sent, e.ext.Pings m) ∧ w.Leaves e.ext.hash r (payloads ++ sent) w') Deep w := by
  unfold sendPing
  simp only [wp_bind, Host.wp_get, wp_ite, wp_pure, wp_get, Host.wp_modify, hopen]
  refine ⟨fun hc => absurd hc Bool.false_ne_true, fun _ => ⟨fun hc => absurd hc Bool.false_ne_true, fun _ => ?_⟩⟩
  set s : Side := { w r with proto := { (w r).proto with lastPing := e.now } }
  have hquiet : (w r).Quiet s := ⟨rfl, rfl, rfl, rfl, rfl⟩
  have hline : (Function.update w r s r).Line e.ext.hash payloads := by
    rw [Function.update_self]
    exact h.same rfl rfl rfl
  exact wp_post (ping_line hrel hline List.mem_cons_self hnow) fun _ w' ⟨sent, hpings, hleft⟩ => ⟨sent, hpings, hleft.after hquiet⟩

/-- a buffer is posted under the key of the write handle, or nothing happens -/
theorem write_line (hd : e.ext.Serves d) (h : (w r).Line e.ext.hash payloads) (hopen : (w r).proto.flags.closing = false) {c : ℕ}
    (hwrite : (w r).proto.cryptWrite = some c) (hkey : ((w r).proto.crypts c).Keyed d κ) {buffer : Bytes}
    (hfits : buffer.length + 2048 ≤ msgLimit) :
    wp (write (Peers.host e r) buffer)
      (fun ret w' => ret = 0 ∧ (∃ m, e.ext.Carries (some κ) buffer m ∧ w.Leaves e.ext.hash r (payloads ++ [m]) w') ∨ ret ≠ 0 ∧ w' = w)
      Deep w := by
  have hready : ¬ (((some (Peers.writeFn e r)).isNone = true) ∨ (w r).proto.cryptWrite.isNone = true) := by
    rw [hwrite]
    simp
  unfold write sendPost encodePost
  simp only [wp_bind, Host.wp_get, wp_ite, wp_pure]
  refine ⟨fun hclosing => ?_, fun _ => ⟨fun hno => absurd hno hready, fun _ => ⟨fun hclosing => ?_, fun _ => ?_⟩⟩⟩
  · rw [hopen] at hclosing
    cases hclosing
  · rw [hopen] at hclosing
    cases hclosing
  rw [hwrite]
  by_cases hnil : buffer = []
  · -- `encrypt_data` refuses an empty buffer
    subst hnil
    unfold encryptData
    simp only [wp_bind, Host.wp_get, wp_ite, wp_pure, hopen, hkey.inited]
    refine ⟨fun hc => absurd hc Bool.false_ne_true, fun _ => ⟨fun hc => absurd trivial hc, fun _ => ⟨fun _ => ?_, fun hc => absurd trivial hc⟩⟩⟩
    exact ⟨fun _ => .inr ⟨by decide, trivial⟩, fun hc => absurd (by decide) hc⟩
  · obtain ⟨out, pad, hout, hne, hlen, hback, -⟩ := hd.ciphers.seals hkey.proper hnil hfits
    have hsendable : (postMsg buffer.length out).Sendable := .post (by omega) (by omega)
    refine Host.wp_encryptData_keyed (H := Peers.host e r) hd.ciphers hopen hkey.toHolds hnil hout ?_
    refine ⟨fun hfail => absurd rfl hfail, fun _ => ?_⟩
    exact wp_post (sendable_line hd.reliable h hsendable) fun ret w' ⟨hret, hleft⟩ =>
      .inl ⟨hret, _, ⟨κ, out, pad, rfl, rfl, hsendable, hback, hne⟩, hleft⟩

/-! ## Events that leave the handshake alone -/

theorem Role.both {P : Role → Prop} (r : Role) (h : P r) (h' : P r.peer) : ∀ r', P r' := by
  intro r'
  cases r <;> cases r' <;> assumption

/-- the stage depends on the phases and the marks -/
theorem Peers.Agreed.stage_same (h : Peers.Agreed e d g id τ w) {σ : Role → Talk}
    (hsame : ∀ r, (σ r).phase = (τ r).phase ∧ (σ r).marks = (τ r).marks) :
    Staged e d g id σ := by
  rw [Staged, (hsame .server).1, (hsame .client).1, (hsame .server).2, (hsame .client).2]
  exact h.stage

/-- the side `r` sends more, and its handshake stays where it is -/
theorem Peers.Agreed.sent (h : Peers.Agreed e d g id τ w) (payloads xs : List Bytes) (hpeer : w' r.peer = w r.peer)
    (hvoice : (w' r).proto.voice = (w r).proto.voice) (hcur : (w' r).current = (w r).current)
    (hreceived : (w' r).received = (w r).received) (hstatuses : (w' r).statuses = (w r).statuses)
    (hline : (w' r).Line e.ext.hash payloads) (hposted : (w' r).posted = (w r).posted ++ xs)
    (hflow : Flow e.ext.Carries e.ext.Pings (τ r.peer).phase.hears payloads (τ r).marks (τ r).phase.speaks ((τ r).flight ++ xs)) :
    ∃ τ, Peers.Agreed e d g id τ w' := by
  set σ : Role → Talk := Function.update τ r { τ r with payloads := payloads, flight := (τ r).flight ++ xs } with hσ
  have hr : σ r = { τ r with payloads := payloads, flight := (τ r).flight ++ xs } := Function.update_self ..
  have hp : σ r.peer = τ r.peer := Function.update_of_ne r.peer_ne ..
  have hphase : ∀ r', (σ r').phase = (τ r').phase := Role.both r (by rw [hr]) (by rw [hp])
  have hmarks : ∀ r', (σ r').marks = (τ r').marks := Role.both r (by rw [hr]) (by rw [hp])
  have hcur' : ∀ r', (w' r').current = (w r').current := Role.both r hcur (by rw [hpeer])
  refine ⟨σ, ⟨h.stage_same fun r' => ⟨hphase r', hmarks r'⟩, ?_, ?_, ?_, ?_⟩⟩
  · rw [hcur']
    exact h.server
  · rw [hcur']
    exact h.client
  · refine Role.both r ?_ ?_
    · obtain ⟨hin, -, hst, hdone⟩ := h.talks r
      rw [hr]
      refine ⟨?_, hline, ?_, ?_⟩
      · rw [hvoice]
        exact hin
      · rw [hstatuses]
        exact hst
      · rw [hstatuses, hvoice]
        exact hdone
    · rw [hp, hpeer]
      exact h.talks r.peer
  · refine Role.both r ?_ ?_
    · rw [hphase, hpeer, hr]
      refine ⟨hflow, ?_⟩
      rw [hposted, (h.reaches r).posted, List.append_assoc]
    · obtain ⟨hflow', hposted'⟩ := h.reaches r.peer
      rw [hphase, hpeer, hp]
      refine ⟨hflow', ?_⟩
      rw [hposted', Role.peer_peer, hreceived]

/-- a write that sends `sent` pings -/
theorem Peers.Agreed.leaves (h : Peers.Agreed e d g id τ w) (sent : List Bytes) (hsent : ∀ m ∈ sent, e.ext.Pings m)
    (hleft : w.Leaves e.ext.hash r ((τ r).payloads ++ sent) w') : ∃ τ, Peers.Agreed e d g id τ w' := by
  refine h.sent _ [] hleft.peer hleft.quiet.voice hleft.quiet.current hleft.quiet.received hleft.quiet.statuses hleft.line ?_ ?_
  · rw [hleft.quiet.posted, List.append_nil]
  · rw [List.append_nil]
    exact (h.reaches r).flow.sendIdles hsent

theorem Peers.Agreed.open (h : Peers.Agreed e d g id τ w) (r : Role) : (w r).proto.flags.closing = false := by
  obtain ⟨_, hqueue, -⟩ := (h.talks r).line.queued
  exact hqueue.closing

theorem agreed_written (h : Peers.Agreed e d g id τ w) (r : Role) :
    wp (Peers.event e (.written r)) (fun _ w' => ∃ τ, Peers.Agreed e d g id τ w') Deep w := by
  simp only [Peers.event, wp_bind, wp_get, wp_ite, wp_set, wp_pure]
  refine ⟨fun hout => ?_, fun _ => ⟨τ, h⟩⟩
  refine wp_post (writeDone_line (h.talks r).line hout) fun _ w' hleft => h.leaves (r := r) [] (fun _ hm => absurd hm List.not_mem_nil) ?_
  rwa [List.append_nil]

theorem agreed_ping (hn : e.Works d g id) (h : Peers.Agreed e d g id τ w) (r : Role) :
    wp (Peers.event e (.ping r)) (fun _ w' => ∃ τ, Peers.Agreed e d g id τ w') Deep w := by
  simp only [Peers.event, wp_bind, wp_pure]
  exact wp_post (sendPing_line hn.serves.reliable hn.now (h.talks r).line (h.open r)) fun _ w' ⟨_, hpings, hleft⟩ => h.leaves _ hpings hleft

theorem agreed_post (hd : e.ext.Serves d) (h : Peers.Agreed e d g id τ w) (r : Role) {buffer : Bytes}
    (hfits : buffer.length + 2048 ≤ msgLimit) :
    wp (Peers.event e (.post r buffer)) (fun _ w' => ∃ τ, Peers.Agreed e d g id τ w') Deep w := by
  simp only [Peers.event, Peers.post, wp_bind, wp_get, wp_ite, wp_modify, wp_pure]
  refine ⟨fun htold => ?_, fun _ => ⟨τ, h⟩⟩
  obtain ⟨κ, hspeaks, c, hwrite, hkey⟩ := (h.talks r).voice.speaks ((h.talks r).done htold)
  refine wp_post (write_line hd (h.talks r).line (h.open r) hwrite hkey hfits) fun ret w' hsent => ?_
  rcases hsent with ⟨hret, m, hm, hleft⟩ | ⟨hret, rfl⟩
  · refine ⟨fun _ => ?_, fun hno => absurd hret hno⟩
    refine h.sent (r := r) ((τ r).payloads ++ [m]) [buffer] ?_ ?_ ?_ ?_ ?_ ?_ ?_ ?_
    · rw [Function.update_of_ne r.peer_ne]
      exact hleft.peer
    · rw [Function.update_self]
      exact hleft.quiet.voice
    · rw [Function.update_self]
      exact hleft.quiet.current
    · rw [Function.update_self]
      exact hleft.quiet.received
    · rw [Function.update_self]
      exact hleft.quiet.statuses
    · rw [Function.update_self]
      exact hleft.line.same rfl rfl rfl
    · rw [Function.update_self]
      exact congrArg (· ++ [buffer]) hleft.quiet.posted
    · exact (h.reaches r).flow.send (by rw [hspeaks]; exact hm)
  · exact ⟨fun h0 => absurd h0 hret, fun _ => ⟨τ, h⟩⟩

/-! ## Events that take a message -/

/-- the first frame of the channel to `r` is taken off -/
def Peers.taken (r : Role) (w : Peers) : Peers :=
  Function.update w r.peer { w r.peer with wire := Framing.afterFirst (w r.peer).wire }

@[simp] theorem taken_self : w.taken r r = w r := Function.update_of_ne r.peer_ne.symm ..

@[simp] theorem taken_peer : w.taken r r.peer = { w r.peer with wire := Framing.afterFirst (w r.peer).wire } := Function.update_self ..

/-- what is known of both sides, from the one that gets the message -/
def Role.pair (r : Role) (a b : Talk) : Role → Talk := fun r' => if r' = r then a else b

@[simp] theorem pair_self (a b : Talk) : r.pair a b r = a := if_pos rfl

@[simp] theorem pair_peer (a b : Talk) : r.pair a b r.peer = b := if_neg r.peer_ne

/-- the message at the head of the channel to `r` -/
structure Peers.Head (e : PeersEnv) (r : Role) (w : Peers) (p : Bytes) (rest : List Bytes) : Prop where
  frame : Framing.firstFrame (w r.peer).wire = ⟨e.ext.hash p, p⟩
  line : ({ w r.peer with wire := Framing.afterFirst (w r.peer).wire } : Side).Line e.ext.hash rest

/-- a delivery is the dispatch of the first message under way -/
theorem wp_deliver (hrel : e.ext.Reliable) (h : Peers.Agreed e d g id τ w) {Q : Unit → Peers → Prop} (hQ : Q () w)
    (hdispatch : ∀ p rest, (τ r.peer).payloads = p :: rest → w.Head e r p rest →
      wp (dispatchData (Peers.host e r) p 0) Q Deep (w.taken r)) :
    wp (Peers.event e (.deliver r)) Q Deep w := by
  simp only [Peers.event, Peers.deliver, wp_bind, wp_get, wp_ite, wp_set, wp_pure]
  refine ⟨fun hcomplete => ?_, fun _ => hQ⟩
  obtain ⟨p, rest, hpayloads, hframe, hline⟩ := (h.talks r.peer).line.next hrel.hash hcomplete
  rw [hframe, Framing.checkHash, if_pos rfl]
  exact hdispatch p rest hpayloads ⟨hframe, hline⟩

/-- what a delivery leaves: the side `r` is as `a` says, and `b` is the channel to it without the message -/
theorem Peers.Agreed.got (h : Peers.Agreed e d g id τ w) {p : Bytes} {rest : List Bytes} (hhead : w.Head e r p rest) (a b : Talk)
    (hb : b.phase = (τ r.peer).phase ∧ b.payloads = rest) (hpeer : w' r.peer = w.taken r r.peer)
    (hstage : Staged e d g id (r.pair a b))
    (hserver : (w' .server).current = some g) (hclient : ∀ g' ∈ (w' .client).current, g'.Following)
    (htalks : (w' r).Talks e.ext.hash d id a) (hfrom : (w' r).Reaches e.ext a b.phase.hears (w r.peer).received)
    (hto : Flow e.ext.Carries e.ext.Pings a.phase.hears rest b.marks b.phase.speaks b.flight)
    (hposted : (w r.peer).posted = (w' r).received.map cut ++ b.flight) :
    ∃ τ, Peers.Agreed e d g id τ w' := by
  rw [taken_peer] at hpeer
  refine ⟨r.pair a b, hstage, hserver, hclient, Role.both r ?_ ?_, Role.both r ?_ ?_⟩
  · rw [pair_self]
    exact htalks
  · obtain ⟨hin, -, hst, hdone⟩ := h.talks r.peer
    rw [pair_peer, hpeer]
    refine ⟨by rw [hb.1]; exact hin, by rw [hb.2]; exact hhead.line, hst, hdone⟩
  · rw [pair_self, pair_peer, hpeer]
    exact hfrom
  · rw [pair_peer, Role.peer_peer, pair_self, hpeer]
    exact ⟨by rw [hb.2]; exact hto, hposted⟩

theorem taken_current (r r' : Role) : (w.taken r r').current = (w r').current :=
  Role.both r (P := fun r' => (w.taken r r').current = (w r').current) (by rw [taken_self]) (by rw [taken_peer]) r'

/-- the message is gone, and nothing else has changed -/
theorem Peers.Agreed.idle (h : Peers.Agreed e d g id τ w) {p : Bytes} {rest : List Bytes} (hhead : w.Head e r p rest)
    (hflow : Flow e.ext.Carries e.ext.Pings (τ r).phase.hears rest (τ r.peer).marks (τ r.peer).phase.speaks (τ r.peer).flight) :
    ∃ τ, Peers.Agreed e d g id τ (w.taken r) := by
  refine h.got hhead (τ r) { τ r.peer with payloads := rest } ⟨rfl, rfl⟩ rfl ?_ ?_ ?_ ?_ ?_ hflow ?_
  · exact h.stage_same (Role.both r (by rw [pair_self]; exact ⟨rfl, rfl⟩) (by rw [pair_peer]; exact ⟨rfl, rfl⟩))
  · rw [taken_current]
    exact h.server
  · rw [taken_current]
    exact h.client
  · rw [taken_self]
    exact h.talks r
  · rw [taken_self]
    exact h.reaches r
  · rw [taken_self, (h.reaches r.peer).posted, Role.peer_peer]

/-- a change to the object that neither its handshake nor its write queue sees -/
theorem Peers.Agreed.still (h : Peers.Agreed e d g id τ w) {p : Proto} (hvoice : p.voice = (w r).proto.voice)
    (hline : p.line = (w r).proto.line) : ∃ τ, Peers.Agreed e d g id τ (Function.update w r { w r with proto := p }) := by
  refine h.sent (r := r) (τ r).payloads [] ?_ ?_ ?_ ?_ ?_ ?_ ?_ ?_
  · exact Function.update_of_ne r.peer_ne ..
  · rw [Function.update_self]
    exact hvoice
  · rw [Function.update_self]
  · rw [Function.update_self]
  · rw [Function.update_self]
  · rw [Function.update_self]
    exact (h.talks r).line.same hline rfl rfl
  · rw [Function.update_self, List.append_nil]
  · rw [List.append_nil]
    exact (h.reaches r).flow

/-- a ping is answered, a pong is taken -/
theorem agreed_gotPing (hd : e.ext.Serves d) (h : Peers.Agreed e d g id τ w) {p : Bytes} {rest : List Bytes}
    (hhead : w.Head e r p rest) (hping : e.ext.Pings p)
    (hflow : Flow e.ext.Carries e.ext.Pings (τ r).phase.hears rest (τ r.peer).marks (τ r.peer).phase.speaks (τ r.peer).flight) :
    wp (dispatchData (Peers.host e r) p 0) (fun _ w' => ∃ τ, Peers.Agreed e d g id τ w') Deep (w.taken r) := by
  obtain ⟨τ', h'⟩ := h.idle hhead hflow
  obtain ⟨type, timepoint, htype, htime, rfl⟩ := hping
  have hverify := hd.reliable.verify _ (.ping htype htime)
  have hopen := h'.open r
  refine Host.wp_dispatchData hopen hverify ?_
  rcases List.mem_cons.1 htype with rfl | htype
  · simp only [dispatchMsg, wp_bind, wp_pure]
    exact wp_post (sendPong_line hd.reliable (h'.talks r).line hopen htime) fun _ w' ⟨_, hpings, hleft⟩ => h'.leaves _ hpings hleft
  · rw [List.mem_singleton.1 htype]
    simp only [dispatchMsg, wp_bind, wp_get, Host.wp_modify]
    refine h'.still ?_ ?_
    · split_ifs <;> rfl
    · split_ifs <;> rfl

/-- a post is handed to the owner -/
theorem agreed_gotPost (hd : e.ext.Serves d) (h : Peers.Agreed e d g id τ w) {p : Bytes} {rest : List Bytes}
    (hhead : w.Head e r p rest) {x : Bytes} {ys : List Bytes} (hflight : (τ r.peer).flight = x :: ys)
    (hpost : e.ext.Carries (τ r).phase.hears x p)
    (hflow : Flow e.ext.Carries e.ext.Pings (τ r).phase.hears rest (τ r.peer).marks (τ r.peer).phase.speaks ys) :
    wp (dispatchData (Peers.host e r) p 0) (fun _ w' => ∃ τ, Peers.Agreed e d g id τ w') Deep (w.taken r) := by
  obtain ⟨κ, out, pad, hhears, rfl, hsendable, hback, hne⟩ := hpost
  obtain ⟨hdone, c, hread, hkey⟩ := (h.talks r).voice.hears hhears
  have hproto : (Peers.host e r).proto (w.taken r) = (w r).proto := congrArg Side.proto taken_self
  refine Host.wp_dispatchData (by rw [hproto]; exact h.open r) (hd.reliable.verify _ hsendable) ?_
  refine Host.wp_dispatchPost_keyed (H := Peers.host e r) hd.ciphers (by rw [hproto]; exact h.open r) (by rw [hproto]; exact hdone)
    (by rw [hproto]; exact hread) (by rw [hproto]; exact hkey) hne hback rfl ?_
  simp only [Peers.messageFn, wp_bind, wp_modify, wp_pure]
  have hcut : cut (x ++ pad, x.length) = x := List.take_left
  have hcur : ∀ r', (Function.update (w.taken r) r { w.taken r r with
      received := (w.taken r r).received ++ [(x ++ pad, x.length)] } r').current = (w r').current :=
    Role.both r (by rw [Function.update_self, taken_self]) (by rw [Function.update_of_ne r.peer_ne, taken_peer])
  refine h.got hhead (τ r) { τ r.peer with payloads := rest, flight := ys } ⟨rfl, rfl⟩ ?_ ?_ ?_ ?_ ?_ ?_ hflow ?_
  · exact Function.update_of_ne r.peer_ne ..
  · exact h.stage_same (Role.both r (by rw [pair_self]; exact ⟨rfl, rfl⟩) (by rw [pair_peer]; exact ⟨rfl, rfl⟩))
  · rw [hcur]
    exact h.server
  · rw [hcur]
    exact h.client
  · rw [Function.update_self, taken_self]
    obtain ⟨hin, hline, hst, hdone⟩ := h.talks r
    exact ⟨hin, hline.same rfl rfl rfl, hst, hdone⟩
  · rw [Function.update_self, taken_self]
    exact ⟨(h.reaches r).flow, (h.reaches r).posted⟩
  · rw [Function.update_self, taken_self]
    have hposted := (h.reaches r.peer).posted
    rw [Role.peer_peer, hflight] at hposted
    simp only [List.map_append, List.map_cons, List.map_nil, hcut, List.append_assoc, List.singleton_append]
    exact hposted

/-! ## The messages of a handshake -/

/-- is the owner told that the handshake is done -/
def Phase.isDone : Phase → Bool
  | .fresh | .resuming _ => false
  | .offered old _ | .awaiting old _ _ | .verifying old _ _ | .answering old _ => old.isSome
  | .settled _ => true

theorem Voice.In.told {v : Voice} {id : UInt64} {φ : Phase} (h : v.In d id φ) : v.handshakeDone = φ.isDone := by
  cases φ with
  | fresh => exact Voice.Resting.done h
  | offered old κ => exact h.1.done
  | awaiting old shared seed => exact h.1.done
  | verifying old κ text => exact h.1.done
  | answering old κ => exact h.1.done
  | resuming κ => exact Voice.Resuming.done h
  | settled κ => exact h.1.done

/-- a side that went to another phase and sent the marks -/
def Talk.moved (σ : Talk) (φ : Phase) (marks : List (Bytes × Option Key)) : Talk :=
  ⟨φ, σ.payloads ++ marks.map Prod.fst, marks, σ.flight⟩

/-- a side whose first mark was taken -/
def Talk.heard (σ : Talk) (rest : List Bytes) (marks : List (Bytes × Option Key)) : Talk := { σ with payloads := rest, marks := marks }

/-- **A handshake message** is taken: the side goes to the phase `φ`, answers with `marks` and tells its owner `told`; `left` are
the handshake messages that come behind it. -/
theorem Peers.Agreed.moved (h : Peers.Agreed e d g id τ w) {p : Bytes} {rest : List Bytes} (hhead : w.Head e r p rest)
    (hown : (τ r).marks = []) (marks left : List (Bytes × Option Key)) (told : List ℤ) {φ : Phase} {v : Voice}
    {cur : Option CryptGlobal}
    (hat : Peers.At e.ext.hash r (w.taken r) ((τ r).payloads ++ marks.map Prod.fst) v cur ((w r).statuses ++ told) w')
    (hin : v.In d id φ) (hzero : ∀ status ∈ told, status = 0) (hdone : told = [] ∧ φ.isDone = (τ r).phase.isDone ∨ φ.isDone = true)
    (hspeaks : φ.speaks = lastKey (τ r).phase.speaks marks)
    (hflow : Flow e.ext.Carries e.ext.Pings φ.hears rest left (τ r.peer).phase.speaks (τ r.peer).flight)
    (hstage : Staged e d g id (r.pair ((τ r).moved φ marks) ((τ r.peer).heard rest left)))
    (hserver : (w' .server).current = some g) (hclient : ∀ g' ∈ (w' .client).current, g'.Following) :
    ∃ τ, Peers.Agreed e d g id τ w' := by
  refine h.got hhead ((τ r).moved φ marks) ((τ r.peer).heard rest left) ⟨rfl, rfl⟩ hat.peer hstage hserver hclient ?_ ?_ hflow ?_
  · refine ⟨by rw [hat.voice]; exact hin, hat.line, ?_, ?_⟩
    · rw [hat.statuses]
      intro status hstatus
      rcases List.mem_append.1 hstatus with hold | hnew
      · exact (h.talks r).statuses status hold
      · exact hzero status hnew
    · rw [hat.statuses, hat.voice, hin.told]
      intro hmem
      rcases hdone with ⟨rfl, hsame⟩ | hdone
      · rw [List.append_nil] at hmem
        rw [hsame, ← (h.talks r).voice.told]
        exact (h.talks r).done hmem
      · exact hdone
  · have hflow' := (h.reaches r).flow.sendMarks marks
    rw [hown] at hflow'
    refine ⟨?_, ?_⟩
    · simp only [Talk.moved, hspeaks]
      exact hflow'
    · rw [hat.posted, taken_self]
      exact (h.reaches r).posted
  · rw [hat.received, taken_self, (h.reaches r.peer).posted, Role.peer_peer]
    rfl

/-- a message of type `handshake` goes to its handler -/
theorem wp_handshakeMsg (hrel : e.ext.Reliable) (hopen : (w r).proto.flags.closing = false)
    (hrun : ¬ ((w r).proto.flags.handshakeDone = true ∧ ¬ (w r).proto.flags.handshakeUpdate = true)) {body : HandshakeBody}
    (hshort : body.Short) {Q : Peers → Prop}
    (hstep : wp (dispatchHandshakeStep (Peers.host e r) body) (fun ret w' => ret = 0 ∧ Q w') Deep w) :
    wp (dispatchData (Peers.host e r) (e.ext.build (handshakeMsg .EN_MTT_HANDSHAKE body)) 0) (fun _ => Q) Deep w := by
  refine Host.wp_dispatchData hopen (hrel.verify _ (.handshake List.mem_cons_self hshort)) ?_
  simp only [dispatchMsg, wp_bind, wp_pure]
  exact Host.wp_dispatchHandshake hopen hrun hstep

/-- a key update goes to its handler -/
theorem wp_keySynMsg (hrel : e.ext.Reliable) (hopen : (w r).proto.flags.closing = false) {body : HandshakeBody}
    (hshort : body.Short) {Q : Peers → Prop}
    (hstep : wp (dispatchHandshakeStep (Peers.host e r) body) (fun ret w' => ret = 0 ∧ Q w') Deep
      (Function.update w r { w r with proto := (w r).proto.startUpdate })) :
    wp (dispatchData (Peers.host e r) (e.ext.build (handshakeMsg .EN_MTT_POST_KEY_SYN body)) 0) (fun _ => Q) Deep w := by
  refine Host.wp_dispatchData hopen (hrel.verify _ (.handshake (List.mem_cons_of_mem _ List.mem_cons_self) hshort)) ?_
  simp only [dispatchMsg, wp_bind, wp_pure, Host.wp_modify]
  have hself : (Function.update w r { w r with proto := (w r).proto.startUpdate } r).proto = (w r).proto.startUpdate := by
    rw [Function.update_self]
  exact Host.wp_dispatchHandshake ((congrArg (fun p : Proto => p.flags.closing) hself).trans hopen)
    (fun hc => hc.2 (congrArg (fun p : Proto => p.flags.handshakeUpdate) hself)) hstep

theorem Peers.Agreed.at (h : Peers.Agreed e d g id τ w) (r : Role) :
    Peers.At e.ext.hash r (w.taken r) (τ r).payloads (w r).proto.voice (w r).current (w r).statuses (w.taken r) := by
  refine ⟨rfl, ?_, ?_, rfl, rfl, ?_, ?_⟩
  · rw [taken_self]
  · rw [taken_self]
  · rw [taken_self]
  · rw [taken_self]
    exact (h.talks r).line

theorem Peers.Agreed.takenOpen (h : Peers.Agreed e d g id τ w) (r : Role) : (w.taken r r).proto.flags.closing = false := by
  rw [taken_self]
  exact h.open r

theorem Offers.hears {ext : Ext} {old : Option Key} {φ : Phase} {param : Bytes} (h : Offers ext d old φ param) : φ.hears = old := by
  cases h <;> rfl

theorem Offers.isDone {ext : Ext} {old : Option Key} {φ : Phase} {param : Bytes} (h : Offers ext d old φ param) :
    φ.isDone = old.isSome := by
  cases h <;> rfl

section taking

variable {p : Bytes} {rest : List Bytes}

theorem Peers.Agreed.client_of_at {payloads' : List Bytes} {v : Voice} {cur : Option CryptGlobal} {st : List ℤ}
    (h : Peers.Agreed e d g id τ w) (hat : Peers.At e.ext.hash .server (w.taken .server) payloads' v cur st w') :
    ∀ g' ∈ (w' .client).current, g'.Following := by
  have hpeer : w' .client = w.taken .server .client := hat.peer
  rw [hpeer, taken_current]
  exact h.client

theorem Peers.Agreed.server_of_at {payloads' : List Bytes} {v : Voice} {cur : Option CryptGlobal} {st : List ℤ}
    (h : Peers.Agreed e d g id τ w) (hat : Peers.At e.ext.hash .client (w.taken .client) payloads' v cur st w') :
    (w' .server).current = some g := by
  have hpeer : w' .server = w.taken .client .server := hat.peer
  rw [hpeer, taken_current]
  exact h.server

/-- a side that was told of no handshake yet takes handshake messages -/
theorem taken_fresh (hdone : (w r).proto.voice.handshakeDone = false) :
    ¬ ((w.taken r r).proto.flags.handshakeDone = true ∧ ¬ (w.taken r r).proto.flags.handshakeUpdate = true) := by
  rw [taken_self]
  intro hc
  rw [show (w r).proto.flags.handshakeDone = false from hdone] at hc
  cases hc.1

theorem agreed_startReq {cryptTypes : Bytes} (hn : e.Works d g id) (h : Peers.Agreed e d g id τ w)
    (hps : (τ .server).phase = .fresh) (hpc : (τ .client).phase = .fresh) (hms : (τ .server).marks = []) (hid : id = e.newId)
    (hnegotiates : e.Negotiates d g cryptTypes) (hp : p = e.ext.build (handshakeMsg .EN_MTT_HANDSHAKE (startReq cryptTypes)))
    (hhead : w.Head e .server p rest)
    (hflow : Flow e.ext.Carries e.ext.Pings none rest [] (τ .client).phase.speaks (τ .client).flight) :
    wp (dispatchData (Peers.host e .server) p 0) (fun _ w' => ∃ τ, Peers.Agreed e d g id τ w') Deep (w.taken .server) := by
  subst hp hid
  have hin := (h.talks .server).voice
  rw [hps] at hin
  have hat := h.at .server
  rw [h.server] at hat
  refine wp_handshakeMsg hn.serves.reliable (h.takenOpen .server) (taken_fresh hin.done) (startReq_short hnegotiates.offered.2) ?_
  refine wp_post (startReq_phase hn.serves hn.agrees hn.id hn.offering hat hin rfl hnegotiates.offered.1 hnegotiates.select)
    fun ret w' ⟨hret, v', φ, param, hin', hoffers, hat'⟩ => ⟨hret, ?_⟩
  refine h.moved hhead hms [(_, φ.speaks)] [] [] (by rw [List.append_nil]; exact hat') hin' (fun _ hm => absurd hm List.not_mem_nil)
    (.inl ⟨rfl, ?_⟩) rfl (by rw [hoffers.hears]; exact hflow) ?_ hat'.current (h.client_of_at hat')
  · rw [hoffers.isDone, hps]
    rfl
  · change Stage _ _ _ _ φ (τ .client).phase _ _
    rw [hpc]
    exact .offer none φ param hoffers

theorem isDone_calm (old : Option Key) : (Phase.calm old).isDone = old.isSome := by cases old <;> rfl

/-- the client takes the start response -/
theorem agreed_offered {w₁ : Peers} {old : Option Key} {φ : Phase} {param : Bytes} {v : Voice} (hn : e.Works d g id)
    (h : Peers.Agreed e d g id τ w) (hps : (τ .server).phase = φ) (hpc : (τ .client).phase = .calm old)
    (hmc : (τ .client).marks = []) (hoffers : Offers e.ext d old φ param) (hhead : w.Head e .client p rest)
    (hflow : Flow e.ext.Carries e.ext.Pings φ.speaks rest [] (τ .server).phase.speaks (τ .server).flight)
    (hat : Peers.At e.ext.hash .client (w.taken .client) (τ .client).payloads v (w .client).current (w .client).statuses w₁)
    (hrest : v.Resting d old) :
    wp (dispatchHandshakeStep (Peers.host e .client) (d.startRsp id param))
      (fun ret w' => ret = 0 ∧ ∃ τ, Peers.Agreed e d g id τ w') Deep w₁ := by
  change wp (dispatchHandshakeStartRsp (Peers.host e .client) (d.startRsp id param)) _ Deep w₁
  cases hoffers with
  | direct input hswitch =>
    refine wp_post (startRsp_direct_phase hn.serves hn.id hat h.client hrest hswitch input)
      fun ret w' ⟨hret, v', cur', hproper, hin', hat'⟩ => ⟨hret, ?_⟩
    refine h.moved hhead hmc [(_, some (d.key input))] [] [0] hat' hin' (fun _ hm => List.mem_singleton.1 hm) (.inr rfl) rfl hflow ?_
      (h.server_of_at hat') (by rw [hat'.current]; exact hproper)
    change Stage _ _ _ _ (τ .server).phase _ _ _
    rw [hps]
    exact .confirm _ _ [] (.direct old) (Nat.zero_le _)
  | dh shared seed param hswitch htakes =>
    refine wp_post (startRsp_dh_phase hn.serves hn.id hat h.client hrest hswitch htakes)
      fun ret w' ⟨hret, v', cur', n, pubkey, secret, hproper, hin', hexchange, hpubkey, hat'⟩ => ⟨hret, ?_⟩
    refine h.moved hhead hmc [(_, old.map fun _ => d.key secret)] [] [] (by rw [List.append_nil]; exact hat') hin'
      (fun _ hm => absurd hm List.not_mem_nil) (.inl ⟨rfl, ?_⟩) rfl hflow ?_ (h.server_of_at hat') (by rw [hat'.current]; exact hproper)
    · rw [hpc, isDone_calm]
      rfl
    · change Stage _ _ _ _ (τ .server).phase _ _ _
      rw [hps]
      exact .answer old shared seed n _ pubkey secret hexchange hpubkey

theorem agreed_startRsp {old : Option Key} {φ : Phase} {param : Bytes} (hn : e.Works d g id)
    (h : Peers.Agreed e d g id τ w) (hps : (τ .server).phase = φ) (hpc : (τ .client).phase = .calm old)
    (hmc : (τ .client).marks = []) (hp : p = e.ext.build (handshakeMsg (synType old) (d.startRsp id param)))
    (hoffers : Offers e.ext d old φ param) (hhead : w.Head e .client p rest)
    (hflow : Flow e.ext.Carries e.ext.Pings φ.speaks rest [] (τ .server).phase.speaks (τ .server).flight) :
    wp (dispatchData (Peers.host e .client) p 0) (fun _ w' => ∃ τ, Peers.Agreed e d g id τ w') Deep (w.taken .client) := by
  subst hp
  have hrest := (h.talks .client).voice
  rw [hpc] at hrest
  have hrest := hrest.resting
  have hat := h.at .client
  have hshort : (d.startRsp id param).Short := Deal.startRsp_short hn.serves (hoffers.short hn.serves.ciphers)
  cases old with
  | none =>
    exact wp_handshakeMsg hn.serves.reliable (h.takenOpen .client) (taken_fresh hrest.done) hshort
      (agreed_offered hn h hps hpc hmc hoffers hhead hflow hat hrest)
  | some κ =>
    refine wp_keySynMsg hn.serves.reliable (h.takenOpen .client) hshort ?_
    have hat' : Peers.At e.ext.hash .client (w.taken .client) (τ .client).payloads
        { (w .client).proto.voice with handshakeUpdate := true } (w .client).current (w .client).statuses _ :=
      hat.set (s := { w.taken .client .client with proto := (w.taken .client .client).proto.startUpdate }) rfl
        (by rw [taken_self]; rfl) hat.current ⟨rfl, rfl, rfl, rfl⟩ rfl
    exact agreed_offered hn h hps hpc hmc hoffers hhead hflow hat' { hrest with }

/-- the server takes the request of a client that comes back -/
theorem agreed_reconnReq {out : Bytes} (hn : e.Works d g id) (h : Peers.Agreed e d g id τ w) (hps : (τ .server).phase = .fresh)
    (hpc : (τ .client).phase = .resuming κ) (hms : (τ .server).marks = []) (hknows : e.Knows d id κ)
    (hsealed : e.ext.Sealed κ κ.secret out) (hp : p = e.ext.build (handshakeMsg .EN_MTT_HANDSHAKE (d.reconnReq id out)))
    (hhead : w.Head e .server p rest)
    (hflow : Flow e.ext.Carries e.ext.Pings (some κ) rest [] (τ .client).phase.speaks (τ .client).flight) :
    wp (dispatchData (Peers.host e .server) p 0) (fun _ w' => ∃ τ, Peers.Agreed e d g id τ w') Deep (w.taken .server) := by
  subst hp
  have hin := (h.talks .server).voice
  rw [hps] at hin
  have hat := h.at .server
  rw [h.server] at hat
  refine wp_handshakeMsg hn.serves.reliable (h.takenOpen .server) (taken_fresh hin.done)
    (Deal.reconnReq_short hn.serves _ hsealed.short) ?_
  refine wp_post (reconnReq_phase hn.serves hn.agrees hn.id hn.offering hat hin hknows hsealed)
    fun ret w' ⟨hret, v', φ, param, hin', hoffers, hat'⟩ => ⟨hret, ?_⟩
  rw [List.append_assoc] at hat'
  refine h.moved hhead hms [(_, some κ), (_, φ.speaks)] [] [0] hat' hin' (fun _ hm => List.mem_singleton.1 hm) (.inr hoffers.isDone) rfl
    (by rw [hoffers.hears]; exact hflow) ?_ hat'.current (h.client_of_at hat')
  change Stage _ _ _ _ φ (τ .client).phase _ _
  rw [hpc]
  exact .accept κ φ param hoffers

/-- the client takes the answer -/
theorem agreed_reconnRsp {φ : Phase} {param : Bytes} {left : List (Bytes × Option Key)} (hn : e.Works d g id)
    (h : Peers.Agreed e d g id τ w) (hps : (τ .server).phase = φ) (hpc : (τ .client).phase = .resuming κ) (hmc : (τ .client).marks = [])
    (hp : p = e.ext.build (handshakeMsg .EN_MTT_HANDSHAKE (d.reconnRsp id))) (hoffers : Offers e.ext d (some κ) φ param)
    (hleft : left = [(e.ext.build (handshakeMsg .EN_MTT_POST_KEY_SYN (d.startRsp id param)), φ.speaks)]) (hhead : w.Head e .client p rest)
    (hflow : Flow e.ext.Carries e.ext.Pings (some κ) rest left (τ .server).phase.speaks (τ .server).flight) :
    wp (dispatchData (Peers.host e .client) p 0) (fun _ w' => ∃ τ, Peers.Agreed e d g id τ w') Deep (w.taken .client) := by
  subst hp
  have hin := (h.talks .client).voice
  rw [hpc] at hin
  refine wp_handshakeMsg hn.serves.reliable (h.takenOpen .client) (taken_fresh hin.done) (Deal.reconnRsp_short hn.serves) ?_
  refine wp_post (reconnRsp_phase hn.serves hn.id (h.at .client) h.client hin)
    fun ret w' ⟨hret, v', cur', hproper, hin', hat'⟩ => ⟨hret, ?_⟩
  refine h.moved hhead hmc [] left [0] (by rw [List.map_nil, List.append_nil]; exact hat') hin' (fun _ hm => List.mem_singleton.1 hm)
    (.inr rfl) ?_ hflow ?_ (h.server_of_at hat') (by rw [hat'.current]; exact hproper)
  · rw [hpc]
    rfl
  · change Stage _ _ _ _ (τ .server).phase _ left _
    rw [hps, hleft]
    exact .offer (some κ) φ param hoffers

/-- a side whose handshake runs takes handshake messages -/
theorem taken_running {old : Option Key} (hrun : (w r).proto.voice.Running d id old) :
    ¬ ((w.taken r r).proto.flags.handshakeDone = true ∧ ¬ (w.taken r r).proto.flags.handshakeUpdate = true) := by
  rw [taken_self]
  exact fun hc => hc.2 hrun.update

theorem agreed_pubkeyReq {old : Option Key} {shared : DhShared} {seed n : ℕ} {param pubkey secret : Bytes}
    (hn : e.Works d g id) (h : Peers.Agreed e d g id τ w) (hps : (τ .server).phase = .awaiting old shared seed)
    (hpc : (τ .client).phase = .answering old (d.key secret)) (hms : (τ .server).marks = [])
    (hp : p = e.ext.build (handshakeMsg .EN_MTT_HANDSHAKE (d.pubkeyReq id pubkey)))
    (hexchange : e.ext.Exchange shared d.clientShared seed n param pubkey secret) (hpubkey : pubkey.length ≤ 2 ^ 16)
    (hhead : w.Head e .server p rest)
    (hflow : Flow e.ext.Carries e.ext.Pings (old.map fun _ => d.key secret) rest [] (τ .client).phase.speaks (τ .client).flight) :
    wp (dispatchData (Peers.host e .server) p 0) (fun _ w' => ∃ τ, Peers.Agreed e d g id τ w') Deep (w.taken .server) := by
  subst hp
  have hin := (h.talks .server).voice
  rw [hps] at hin
  have hat := h.at .server
  rw [h.server] at hat
  have hstep : dispatchHandshakeStep (Peers.host e .server) (d.pubkeyReq id pubkey) =
      dispatchHandshakeDhPubkeyReq (Peers.host e .server) (d.pubkeyReq id pubkey) (d.pubkeyRsp id []).step := by
    rcases Deal.dh_cases hn.serves hin.2.1 with hdh | hdh
    · simp [dispatchHandshakeStep, Deal.pubkeyReq, Deal.pubkeyRsp, hdh]
    · simp [dispatchHandshakeStep, Deal.pubkeyReq, Deal.pubkeyRsp, hdh]
  refine wp_handshakeMsg hn.serves.reliable (h.takenOpen .server) (taken_running hin.1)
    (Deal.pubkeyReq_short hn.serves id hpubkey) ?_
  rw [hstep]
  refine wp_post (pubkeyReq_phase hn.serves hat hin hexchange) ?_
  rintro ret w' ⟨hret, v', text, out, htext, hin', hsealed, hat'⟩
  refine ⟨hret, ?_⟩
  refine h.moved hhead hms [(_, some (d.key secret))] [] [] (by rw [List.append_nil]; exact hat') hin'
    (fun _ hm => absurd hm List.not_mem_nil) (.inl ⟨rfl, ?_⟩) rfl hflow ?_ hat'.current (h.client_of_at hat')
  · rw [hps]
    rfl
  · change Stage _ _ _ _ _ (τ .client).phase _ _
    rw [hpc]
    exact .respond old (d.key secret) text out htext hsealed

theorem agreed_pubkeyRsp {old : Option Key} {text out : Bytes} (hn : e.Works d g id)
    (h : Peers.Agreed e d g id τ w) (hps : (τ .server).phase = .verifying old κ text)
    (hpc : (τ .client).phase = .answering old κ) (hmc : (τ .client).marks = [])
    (hp : p = e.ext.build (handshakeMsg .EN_MTT_HANDSHAKE (d.pubkeyRsp id out))) (htext : text.length ≤ 2048)
    (hsealed : e.ext.Sealed κ text out) (hhead : w.Head e .client p rest)
    (hflow : Flow e.ext.Carries e.ext.Pings (some κ) rest [] (τ .server).phase.speaks (τ .server).flight) :
    wp (dispatchData (Peers.host e .client) p 0) (fun _ w' => ∃ τ, Peers.Agreed e d g id τ w') Deep (w.taken .client) := by
  subst hp
  have hin := (h.talks .client).voice
  rw [hpc] at hin
  have hstep : dispatchHandshakeStep (Peers.host e .client) (d.pubkeyRsp id out) =
      dispatchHandshakeDhPubkeyRsp (Peers.host e .client) (d.pubkeyRsp id out) := by
    rcases Deal.dh_cases hn.serves hin.2.1 with hdh | hdh
    · simp [dispatchHandshakeStep, Deal.pubkeyRsp, hdh]
    · simp [dispatchHandshakeStep, Deal.pubkeyRsp, hdh]
  refine wp_handshakeMsg hn.serves.reliable (h.takenOpen .client) (taken_running hin.1)
    (Deal.pubkeyRsp_short hn.serves hsealed.short) ?_
  rw [hstep]
  refine wp_post (pubkeyRsp_phase hn.serves hn.id (h.at .client) hin htext hsealed) ?_
  rintro ret w' ⟨hret, v', answer, hin', hne, hlen, hanswer, hat'⟩
  refine ⟨hret, ?_⟩
  refine h.moved hhead hmc [(_, some κ)] [] [0] hat' hin' (fun _ hm => List.mem_singleton.1 hm)
    (.inr rfl) rfl hflow ?_ (h.server_of_at hat') (by rw [hat'.current]; exact h.client)
  change Stage _ _ _ _ (τ .server).phase _ _ _
  rw [hps]
  exact .confirm _ κ answer (.dh old text hne hanswer) hlen

theorem agreed_verify {φ : Phase} {answer : Bytes} (hn : e.Works d g id) (h : Peers.Agreed e d g id τ w)
    (hps : (τ .server).phase = φ) (hpc : (τ .client).phase = .settled κ) (hms : (τ .server).marks = [])
    (hp : p = e.ext.build (handshakeMsg .EN_MTT_HANDSHAKE (d.verify id answer))) (hconfirms : Confirms e.ext κ answer φ)
    (hlen : answer.length ≤ 2 ^ 16) (hhead : w.Head e .server p rest)
    (hflow : Flow e.ext.Carries e.ext.Pings (some κ) rest [] (τ .client).phase.speaks (τ .client).flight) :
    wp (dispatchData (Peers.host e .server) p 0) (fun _ w' => ∃ τ, Peers.Agreed e d g id τ w') Deep (w.taken .server) := by
  subst hp
  have hin := (h.talks .server).voice
  rw [hps] at hin
  have hat := h.at .server
  rw [h.server] at hat
  have hverify : (∃ old, (w .server).proto.voice.Running d id old) ∧ φ.speaks = some κ ∧
      wp (dispatchHandshakeVerifyNtf (Peers.host e .server) (d.verify id answer))
        (fun ret w' => ret = 0 ∧ ∃ v', v'.In d id (.settled κ) ∧
          Peers.At e.ext.hash .server (w.taken .server) (τ .server).payloads v' (some g) ((w .server).statuses ++ [0]) w') Deep
        (w.taken .server) := by
    cases hconfirms with
    | direct old => exact ⟨⟨old, hin.1⟩, rfl, verify_direct_phase hat hin answer⟩
    | dh old text hne hanswer => exact ⟨⟨old, hin.1⟩, rfl, verify_dh_phase hn.serves hat hin hne hanswer⟩
  obtain ⟨⟨old, hrun⟩, hspeaks, hstep⟩ := hverify
  refine wp_handshakeMsg hn.serves.reliable (h.takenOpen .server) (taken_running hrun) (Deal.verify_short hn.serves _ hlen) ?_
  refine wp_post hstep fun ret w' ⟨hret, v', hin', hat'⟩ => ⟨hret, ?_⟩
  refine h.moved hhead hms [] [] [0] (by rw [List.map_nil, List.append_nil]; exact hat') hin'
    (fun _ hm => List.mem_singleton.1 hm) (.inr rfl) ?_ hflow ?_ hat'.current (h.client_of_at hat')
  · rw [hps, hspeaks]
    rfl
  · change Stage _ _ _ _ _ (τ .client).phase _ _
    rw [hpc]
    exact .settled κ

end taking

/-- where the server has settled, no handshake message is under way -/
theorem Stage.of_settled {φ : Phase} {ms mc : List (Bytes × Option Key)} (h : Stage e d g id (.settled κ) φ ms mc) :
    φ = .settled κ ∧ ms = [] ∧ mc = [] := by
  cases h with
  | accept κ _ param hoffers => cases hoffers
  | offer old _ param hoffers => cases hoffers
  | confirm _ κ' answer hconfirms => cases hconfirms
  | settled => exact ⟨rfl, rfl, rfl⟩

/-- the server does not ask for a session -/
theorem Stage.not_resuming {φ : Phase} {ms mc : List (Bytes × Option Key)} (h : Stage e d g id (.resuming κ) φ ms mc) : False := by
  cases h with
  | accept κ _ param hoffers => cases hoffers
  | offer old _ param hoffers => cases hoffers
  | confirm _ κ' answer hconfirms => cases hconfirms

/-- an update of the server starts another handshake, if none runs -/
theorem agreed_update (hn : e.Works d g id) (h : Peers.Agreed e d g id τ w) :
    wp (Peers.event e .update) (fun _ w' => ∃ τ, Peers.Agreed e d g id τ w') Deep w := by
  simp only [Peers.event, wp_bind, wp_pure]
  have hin := (h.talks .server).voice
  have hidle : (w .server).proto.hs.type = [] ∨ (w .server).proto.handshake.hasData = true →
      wp (sendKeySyn (Peers.host e .server)) (fun _ w' => ∃ τ, Peers.Agreed e d g id τ w') Deep w :=
    fun hno => wp_post (keySyn_idle hno) fun _ w' hw' => ⟨τ, hw' ▸ h⟩
  cases hps : (τ .server).phase with
  | fresh =>
    rw [hps] at hin
    exact hidle (.inl (congrArg CryptSession.type hin.ends))
  | offered old κ =>
    rw [hps] at hin
    exact hidle (.inr hin.1.data)
  | awaiting old shared seed =>
    rw [hps] at hin
    exact hidle (.inr hin.1.data)
  | verifying old κ text =>
    rw [hps] at hin
    exact hidle (.inr hin.1.data)
  | answering old κ =>
    rw [hps] at hin
    exact hidle (.inr hin.1.data)
  | resuming κ =>
    have hstage := h.stage
    rw [Staged, hps] at hstage
    exact hstage.not_resuming.elim
  | settled κ =>
    rw [hps] at hin
    have hstage := h.stage
    rw [Staged, hps] at hstage
    obtain ⟨hpc, hms, hmc⟩ := hstage.of_settled
    have hat := Peers.At.start (h.talks .server).line
    rw [h.server] at hat
    refine wp_post (keySyn_phase hn.serves hn.agrees hn.id hn.offering hat hin) fun _ w' ⟨_, v', φ, param, hin', hoffers, hat'⟩ => ?_
    set a : Talk := (τ .server).moved φ [(e.ext.build (handshakeMsg .EN_MTT_POST_KEY_SYN (d.startRsp id param)), φ.speaks)] with ha
    have hpeer : w' .client = w .client := hat'.peer
    refine ⟨Role.server.pair a (τ .client), ?_, hat'.current, by rw [hpeer]; exact h.client, ?_, ?_⟩
    · change Stage _ _ _ _ φ (τ .client).phase _ (τ .client).marks
      rw [hpc, hmc]
      exact .offer (some κ) φ param hoffers
    · refine Role.both .server ?_ ?_
      · rw [pair_self]
        refine ⟨by rw [hat'.voice]; exact hin', hat'.line, by rw [hat'.statuses]; exact (h.talks .server).statuses, fun _ => ?_⟩
        rw [hat'.voice, hin'.told, hoffers.isDone]
        rfl
      · rw [pair_peer]
        change (w' .client).Talks _ _ _ (τ .client)
        rw [hpeer]
        exact h.talks .client
    · refine Role.both .server ?_ ?_
      · have hflow := (h.reaches .server).flow
        rw [hms] at hflow
        rw [pair_self, pair_peer]
        refine ⟨hflow.sendMark _ φ.speaks, ?_⟩
        change (w' .server).posted = (w' .client).received.map cut ++ _
        rw [hat'.posted, hpeer]
        exact (h.reaches .server).posted
      · obtain ⟨hflow, hposted⟩ := h.reaches .client
        change (w' .client).Reaches e.ext (τ .client) φ.hears (w' .server).received
        rw [hpeer, hat'.received, hoffers.hears]
        rw [show (τ Role.client.peer).phase = .settled κ from hps] at hflow
        exact ⟨hflow, hposted⟩

/-- the server gets a handshake message -/
theorem agreed_toServer {p : Bytes} {rest : List Bytes} {marks : List (Bytes × Option Key)} {k : Option Key}
    (hn : e.Works d g id) (h : Peers.Agreed e d g id τ w) (hhead : w.Head e .server p rest)
    (hmark : (τ .client).marks = (p, k) :: marks)
    (hflow : Flow e.ext.Carries e.ext.Pings k rest marks (τ .client).phase.speaks (τ .client).flight) :
    wp (dispatchData (Peers.host e .server) p 0) (fun _ w' => ∃ τ, Peers.Agreed e d g id τ w') Deep (w.taken .server) := by
  have hstage := h.stage
  rw [Staged, hmark] at hstage
  generalize hps : (τ .server).phase = ps at hstage
  generalize hpc : (τ .client).phase = pc at hstage
  generalize hms : (τ .server).marks = ms at hstage
  cases hstage with
  | start cryptTypes hid hnegotiates => exact agreed_startReq hn h hps hpc hms hid hnegotiates rfl hhead hflow
  | resume κ out hknows hsealed => exact agreed_reconnReq hn h hps hpc hms hknows hsealed rfl hhead hflow
  | answer old shared seed n param pubkey secret hexchange hpubkey =>
    exact agreed_pubkeyReq hn h hps hpc hms rfl hexchange hpubkey hhead hflow
  | confirm _ κ answer hconfirms hlen => exact agreed_verify hn h hps hpc hms rfl hconfirms hlen hhead hflow

/-- the client gets a handshake message -/
theorem agreed_toClient {p : Bytes} {rest : List Bytes} {marks : List (Bytes × Option Key)} {k : Option Key}
    (hn : e.Works d g id) (h : Peers.Agreed e d g id τ w) (hhead : w.Head e .client p rest)
    (hmark : (τ .server).marks = (p, k) :: marks)
    (hflow : Flow e.ext.Carries e.ext.Pings k rest marks (τ .server).phase.speaks (τ .server).flight) :
    wp (dispatchData (Peers.host e .client) p 0) (fun _ w' => ∃ τ, Peers.Agreed e d g id τ w') Deep (w.taken .client) := by
  have hstage := h.stage
  rw [Staged, hmark] at hstage
  generalize hps : (τ .server).phase = ps at hstage
  generalize hpc : (τ .client).phase = pc at hstage
  generalize hmc : (τ .client).marks = mc at hstage
  cases hstage with
  | accept κ _ param hoffers => exact agreed_reconnRsp hn h hps hpc hmc rfl hoffers rfl hhead hflow
  | offer old _ param hoffers => exact agreed_startRsp hn h hps hpc hmc rfl hoffers hhead hflow
  | respond old κ text out htext hsealed => exact agreed_pubkeyRsp hn h hps hpc hmc rfl htext hsealed hhead hflow

theorem agreed_deliver (hn : e.Works d g id) (h : Peers.Agreed e d g id τ w) (r : Role) :
    wp (Peers.event e (.deliver r)) (fun _ w' => ∃ τ, Peers.Agreed e d g id τ w') Deep w := by
  refine wp_deliver hn.serves.reliable h ⟨τ, h⟩ fun p rest hpayloads hhead => ?_
  have hflow := (h.reaches r.peer).flow
  rw [hpayloads, Role.peer_peer] at hflow
  rcases hflow.head with ⟨x, ys, hflight, hpost, hflow⟩ | ⟨hping, hflow⟩ | ⟨k, marks, hmark, hflow⟩
  · exact agreed_gotPost hn.serves h hhead hflight hpost hflow
  · exact agreed_gotPing hn.serves h hhead hping hflow
  · cases r with
    | server => exact agreed_toServer hn h hhead hmark hflow
    | client => exact agreed_toClient hn h hhead hmark hflow

/-- **Every event** keeps both sides in agreement. -/
theorem agreed_event (hn : e.Works d g id) {ev : PeersEvent} (hfits : ev.Fits) (h : Peers.Agreed e d g id τ w) :
    wp (Peers.event e ev) (fun _ w' => ∃ τ, Peers.Agreed e d g id τ w') Deep w := by
  cases ev with
  | deliver r => exact agreed_deliver hn h r
  | written r => exact agreed_written h r
  | post r buffer => exact agreed_post hn.serves h r hfits
  | ping r => exact agreed_ping hn h r
  | update => exact agreed_update hn h

end events

end AtFrame
