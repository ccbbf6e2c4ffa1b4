/-
Where each side of a handshake stands.

`Phase` is the handshake of one side without its bytes: who it hears and what it says under which key. `Voice.In` reads it off
the object. `Peers.At` is a side in the middle of a handler: nothing of the other side has changed.

- `Peers.At.writeMsg`, `Peers.At.closeHandshake`: a message is sent, a handshake is over;
- `Voice.Resting.starting`: a handshake is set up;
- `sendStartRsp_phase`: the server offers a key or its parameters.
-/
import AtFrame.Inner.Exchange

namespace AtFrame

open AtFrame.Lib

/-- what both sides rely on, whichever configuration the server has -/
structure Ext.Serves (ext : Ext) (d : Deal) : Prop where
  reliable : ext.Reliable
  ciphers : ext.Ciphers d
  known : d.switchType.Known

/-! ## A side in the middle of a handler -/

/-- only the side `r` has moved since `w₀`; it has the voice `v`, and `payloads` are under way -/
structure Peers.At (hash : Bytes → ℕ) (r : Role) (w₀ : Peers) (payloads : List Bytes) (v : Voice)
    (cur : Option CryptGlobal) (statuses : List ℤ) (w : Peers) : Prop where
  peer : w r.peer = w₀ r.peer
  voice : (w r).proto.voice = v
  current : (w r).current = cur
  posted : (w r).posted = (w₀ r).posted
  received : (w r).received = (w₀ r).received
  statuses : (w r).statuses = statuses
  line : (w r).Line hash payloads

/-- what is under way depends on the write queue and the channel -/
theorem Side.Line.same {hash : Bytes → ℕ} {s s' : Side} {payloads : List Bytes} (h : s.Line hash payloads)
    (hp : s'.proto.line = s.proto.line) (hwire : s'.wire = s.wire) (hout : s'.outstanding = s.outstanding) :
    s'.Line hash payloads := by
  obtain ⟨hsizes, queued, hqueue, hf, hs⟩ := h
  simp only [Proto.line, Prod.mk.injEq] at hp
  obtain ⟨hoff, hwr, hcl, hbuf, hlast⟩ := hp
  have hwait : SendQueue.waiting s'.proto = SendQueue.waiting s.proto := by
    unfold SendQueue.waiting
    rw [hwr, hbuf]
  refine ⟨hsizes, queued, ⟨?_, ?_, ?_, ?_, ?_, ?_⟩, ?_, ?_⟩
  · rw [hoff]
    exact hqueue.offset
  · rw [hcl]
    exact hqueue.closing
  · rw [hbuf]
    exact hqueue.unlimited
  · rw [hbuf]
    exact hqueue.addrOk
  · rw [hoff, hwait]
    exact hqueue.holding
  · rw [hwr, hbuf, hlast]
    exact hqueue.front
  · rw [Side.Holds, hwire]
    exact hf
  · rw [hwr, hout]
    exact hs

section handlers

variable {e : PeersEnv} {r : Role} {w₀ w w' : Peers} {payloads : List Bytes} {v v' : Voice} {cur : Option CryptGlobal} {st : List ℤ}

theorem Peers.At.start (h : (w r).Line e.ext.hash payloads) :
    Peers.At e.ext.hash r w payloads (w r).proto.voice (w r).current (w r).statuses w := ⟨rfl, rfl, rfl, rfl, rfl, rfl, h⟩

theorem Peers.At.open (h : Peers.At e.ext.hash r w₀ payloads v cur st w) : v.closing = false := by
  obtain ⟨_, hqueue, -⟩ := h.line.queued
  rw [← h.voice]
  exact hqueue.closing

theorem Peers.At.closing (h : Peers.At e.ext.hash r w₀ payloads v cur st w) : (w r).proto.flags.closing = false := by
  have hopen := h.open
  rw [← h.voice] at hopen
  exact hopen

/-- the side changes nothing of its write queue, and its owner is told `told` -/
theorem Peers.At.put {s : Side} {cur' : Option CryptGlobal} (h : Peers.At e.ext.hash r w₀ payloads v cur st w) (told : List ℤ)
    (hline : s.proto.line = (w r).proto.line) (hvoice : s.proto.voice = v') (hcur : s.current = cur')
    (hstatuses : s.statuses = (w r).statuses ++ told)
    (hsame : s.wire = (w r).wire ∧ s.outstanding = (w r).outstanding ∧ s.posted = (w r).posted ∧ s.received = (w r).received) :
    Peers.At e.ext.hash r w₀ payloads v' cur' (st ++ told) (Function.update w r s) := by
  obtain ⟨hwire, hout, hposted, hreceived⟩ := hsame
  refine ⟨?_, ?_, ?_, ?_, ?_, ?_, ?_⟩
  · rw [Function.update_of_ne r.peer_ne]
    exact h.peer
  · rw [Function.update_self]
    exact hvoice
  · rw [Function.update_self]
    exact hcur
  · rw [Function.update_self]
    exact hposted.trans h.posted
  · rw [Function.update_self]
    exact hreceived.trans h.received
  · rw [Function.update_self, hstatuses, h.statuses]
  · rw [Function.update_self]
    exact h.line.same hline hwire hout

/-- the side changes nothing but its object, and of that not its write queue -/
theorem Peers.At.set {s : Side} {cur' : Option CryptGlobal} (h : Peers.At e.ext.hash r w₀ payloads v cur st w)
    (hline : s.proto.line = (w r).proto.line) (hvoice : s.proto.voice = v') (hcur : s.current = cur')
    (hsame : s.wire = (w r).wire ∧ s.outstanding = (w r).outstanding ∧ s.posted = (w r).posted ∧ s.received = (w r).received)
    (hstatuses : s.statuses = (w r).statuses) : Peers.At e.ext.hash r w₀ payloads v' cur' st (Function.update w r s) := by
  have hput := h.put [] hline hvoice hcur (by rw [hstatuses, List.append_nil]) hsame
  rwa [List.append_nil] at hput

theorem Peers.At.turned (h : Peers.At e.ext.hash r w₀ payloads v cur st w) (ht : (Peers.host e r).Turned v' w w') :
    Peers.At e.ext.hash r w₀ payloads v' cur st w' := by
  obtain ⟨p, rfl, hline, hvoice⟩ := ht
  exact h.set hline hvoice h.current ⟨rfl, rfl, rfl, rfl⟩ rfl

theorem Peers.At.setHs (h : Peers.At e.ext.hash r w₀ payloads v cur st w) (c : CryptSession) :
    Peers.At e.ext.hash r w₀ payloads (v.setHs c) cur st ((Peers.host e r).setProto ((w r).proto.setHs c) w) := by
  refine h.turned (.of rfl ?_)
  rw [voice_setHs, h.voice]

theorem Peers.At.leaves {payloads' : List Bytes} (h : Peers.At e.ext.hash r w₀ payloads v cur st w)
    (hleft : w.Leaves e.ext.hash r payloads' w') : Peers.At e.ext.hash r w₀ payloads' v cur st w' where
  peer := hleft.peer.trans h.peer
  voice := hleft.quiet.voice.trans h.voice
  current := hleft.quiet.current.trans h.current
  posted := hleft.quiet.posted.trans h.posted
  received := hleft.quiet.received.trans h.received
  statuses := hleft.quiet.statuses.trans h.statuses
  line := hleft.line

/-- a message that is not too long is added to those under way -/
theorem sendable_line (hrel : e.ext.Reliable) (h : (w r).Line e.ext.hash payloads) {m : CsMsg} (hm : m.Sendable) :
    wp (AtFrame.writeMsg (Peers.host e r) m)
      (fun ret w' => ret = 0 ∧ w.Leaves e.ext.hash r (payloads ++ [e.ext.build m]) w') Deep w := by
  refine wp_post (writeMsg_line h (hrel.build m hm).1) fun ret w' hsent => ?_
  rcases hsent with ⟨-, hret, hleft⟩ | ⟨hlong, -⟩
  · exact ⟨hret, hleft⟩
  · exact absurd (hrel.build m hm).2 (Nat.not_lt.2 hlong)

/-- a handshake message is sent -/
theorem Peers.At.writeHandshake (hrel : e.ext.Reliable) (h : Peers.At e.ext.hash r w₀ payloads v cur st w) {type : MsgType}
    (htype : type ∈ [MsgType.EN_MTT_HANDSHAKE, .EN_MTT_POST_KEY_SYN]) {b : HandshakeBody} (hb : b.Short) :
    wp (AtFrame.writeMsg (Peers.host e r) (handshakeMsg type b))
      (fun ret w' => ret = 0 ∧ Peers.At e.ext.hash r w₀ (payloads ++ [e.ext.build (handshakeMsg type b)]) v cur st w') Deep w :=
  wp_post (sendable_line hrel h.line (.handshake htype hb)) fun _ _ ⟨hret, hleft⟩ => ⟨hret, h.leaves hleft⟩

/-- the object behind `handshake_done` -/
def Proto.told (p : Proto) : Proto := p.setFlags { p.flags with handshakeDone := true, handshakeUpdate := false }

theorem Proto.closeHandshake_finished {p : Proto} (hdata : p.handshake.hasData = true)
    (hswitch : p.handshake.switchSecretType = .EN_SST_DIRECT ∧ p.handshake.dhCtx = [] ∨
      p.handshake.switchSecretType = .EN_SST_DH ∨ p.handshake.switchSecretType = .EN_SST_ECDH) :
    (p.closeHandshake 0).1 = 0 ∧ (p.closeHandshake 0).2.flags = p.flags ∧ (p.closeHandshake 0).2.told.line = p.line ∧
      (p.closeHandshake 0).2.told.voice = p.voice.finished := by
  have hdata' : ¬ ¬ (p.setHs { p.hs with param := [] }).handshake.hasData = true := fun h => h hdata
  unfold Proto.closeHandshake
  rw [if_neg hdata']
  rcases hswitch with ⟨hswitch, hctx⟩ | hswitch | hswitch
  · rw [setHs_handshake, hswitch]
    refine ⟨rfl, rfl, rfl, ?_⟩
    simp only [Voice.finished, ← hctx]
    rfl
  · rw [setHs_handshake, hswitch]
    exact ⟨rfl, rfl, rfl, rfl⟩
  · rw [setHs_handshake, hswitch]
    exact ⟨rfl, rfl, rfl, rfl⟩

/-- the owner is told that a handshake is over -/
theorem wp_handshakeDone_peers (hrun : (w r).proto.flags.handshakeUpdate = true) :
    wp (AtFrame.handshakeDone (Peers.host e r) 0)
      (fun _ w' => w' = Function.update w r { w r with proto := (w r).proto.told, statuses := (w r).statuses ++ [0] }) Deep w := by
  have hfn : (if (w r).proto.flags.handshakeDone = true then none else (Peers.host e r).onHandshakeDoneFn) = none ∨
      (if (w r).proto.flags.handshakeDone = true then none else (Peers.host e r).onHandshakeDoneFn) = some (Peers.handshakeFn r) := by
    split_ifs
    · exact .inl rfl
    · exact .inr rfl
  unfold AtFrame.handshakeDone
  simp only [wp_bind, Host.wp_get, Host.wp_modify, wp_ite, wp_pure, hrun]
  refine ⟨fun h => absurd trivial h.2, fun _ => ?_⟩
  rcases hfn with hfn | hfn <;> rw [hfn] <;>
    simp only [Peers.handshakeFn, wp_bind, wp_modify, wp_pure, Function.update_self, Function.update_idem, Proto.told]

/-- `close_handshake(0)` of a handshake that runs: the owner is told once -/
theorem Peers.At.closeHandshake (h : Peers.At e.ext.hash r w₀ payloads v cur st w) (hdata : v.handshake.hasData = true)
    (hupdate : v.handshakeUpdate = true) (hswitch : v.handshake.switchSecretType = .EN_SST_DIRECT ∧ v.handshake.dhCtx = [] ∨
      v.handshake.switchSecretType = .EN_SST_DH ∨ v.handshake.switchSecretType = .EN_SST_ECDH) :
    wp (AtFrame.closeHandshake (Peers.host e r) 0)
      (fun _ w' => Peers.At e.ext.hash r w₀ payloads v.finished cur (st ++ [0]) w') Deep w := by
  have hv := h.voice
  subst hv
  obtain ⟨hstatus, hflags, hline, hvoice⟩ := Proto.closeHandshake_finished hdata hswitch
  unfold AtFrame.closeHandshake
  simp only [wp_bind, Host.wp_get, Host.wp_modify, wp_pure, hstatus]
  generalize ((w r).proto.closeHandshake 0).2 = p at hflags hline hvoice
  have hdone : wp (AtFrame.handshakeDone (Peers.host e r) 0) _ Deep (Function.update w r { w r with proto := p }) :=
    wp_handshakeDone_peers (by rw [Function.update_self, hflags]; exact hupdate)
  rw [Function.update_self, Function.update_idem] at hdone
  refine wp_post hdone fun _ w' hw' => ?_
  rw [hw']
  exact h.put [0] hline hvoice h.current rfl ⟨rfl, rfl, rfl, rfl⟩

end handlers

/-! ## Phases -/

/-- where a side stands in its handshake; `old` is the key of a session whose key is updated -/
inductive Phase where
  | fresh
  /-- the server sent a key and waits for `verify` -/
  | offered (old : Option Key) (κ : Key)
  /-- the server sent its parameters and waits for a public key -/
  | awaiting (old : Option Key) (shared : DhShared) (seed : ℕ)
  /-- the server sent a text and waits for `verify` -/
  | verifying (old : Option Key) (κ : Key) (text : Bytes)
  /-- the client sent its public key -/
  | answering (old : Option Key) (κ : Key)
  /-- the client asked for the session that has the key -/
  | resuming (κ : Key)
  | settled (κ : Key)

/-- the key of the posts that this side can read -/
def Phase.hears : Phase → Option Key
  | .fresh | .resuming _ => none
  | .offered old _ | .awaiting old _ _ | .answering old _ => old
  | .verifying old κ _ => old.map fun _ => κ
  | .settled κ => some κ

/-- the key of the posts that this side sends -/
def Phase.speaks : Phase → Option Key
  | .fresh => none
  | .offered _ κ | .verifying _ κ _ | .resuming κ | .settled κ => some κ
  | .awaiting old _ _ => old
  | .answering old κ => old.map fun _ => κ

/-- a client between two handshakes -/
def Phase.calm : Option Key → Phase
  | none => .fresh
  | some κ => .settled κ

namespace Voice

variable (d : Deal) (id : UInt64) (old : Option Key) (v : Voice)

/-- a handshake runs -/
structure Running : Prop where
  done : v.handshakeDone = old.isSome
  update : v.handshakeUpdate = true
  data : v.handshake.hasData = true
  switchType : v.handshake.switchSecretType = d.switchType
  sessionId : v.sessionId = id
  index : v.cryptHandshake < v.cryptCount

/-- the session at `i` is from an earlier handshake -/
def Aside (i : Option ℕ) : Prop := ∀ κ ∈ old, ∃ c ∈ i, c < v.cryptHandshake ∧ (v.crypts c).Keyed d κ

/-- the sessions between two handshakes -/
def Ends : Option Key → Prop
  | none => v.hs = {}
  | some κ => v.cryptRead = some v.cryptHandshake ∧ v.cryptWrite = some v.cryptHandshake ∧ v.hs.Keyed d κ

/-- no handshake runs -/
structure Resting : Prop where
  done : v.handshakeDone = old.isSome
  data : v.handshake.hasData = false
  dhCtx : v.handshake.dhCtx = []
  index : v.cryptHandshake < v.cryptCount
  ends : v.Ends d old

/-- the object of a client that asked for an old session -/
structure Resuming (κ : Key) : Prop where
  done : v.handshakeDone = false
  data : v.handshake.hasData = false
  dhCtx : v.handshake.dhCtx = []
  index : v.cryptHandshake < v.cryptCount
  holds : v.hs.Holds d κ

/-- **What the object looks like** in a phase. -/
def In : Phase → Prop
  | .fresh => v.Resting d none
  | .offered old κ =>
    v.Running d id old ∧ d.switchType = .EN_SST_DIRECT ∧ v.handshake.dhCtx = [] ∧ v.Aside d old v.cryptRead ∧
      v.cryptWrite = some v.cryptHandshake ∧ v.hs.Keyed d κ ∧ v.hs.param = []
  | .awaiting old shared seed =>
    v.Running d id old ∧ d.switchType ≠ .EN_SST_DIRECT ∧ v.handshake.dhCtx = [.init shared, .makeParams seed] ∧
      v.Aside d old v.cryptRead ∧ v.Aside d old v.cryptWrite ∧ ∃ g, v.hs.Blank d g
  | .verifying old κ text =>
    v.Running d id old ∧ d.switchType ≠ .EN_SST_DIRECT ∧ v.cryptRead = some v.cryptHandshake ∧
      v.cryptWrite = some v.cryptHandshake ∧ v.hs.Keyed d κ ∧ v.hs.param = text
  | .answering old κ =>
    v.Running d id old ∧ d.switchType ≠ .EN_SST_DIRECT ∧ v.Aside d old v.cryptRead ∧
      v.cryptWrite = some v.cryptHandshake ∧ v.hs.Keyed d κ
  | .resuming κ => v.Resuming d κ
  | .settled κ => v.Resting d (some κ) ∧ v.sessionId = id

variable {d id old v} {κ : Key} {φ : Phase}

/-- what a phase hears can be read -/
theorem In.hears (h : v.In d id φ) (hκ : φ.hears = some κ) :
    v.handshakeDone = true ∧ ∃ c ∈ v.cryptRead, (v.crypts c).Keyed d κ := by
  cases φ with
  | fresh => cases hκ
  | offered old κ' =>
    obtain ⟨hrun, -, -, haside, -⟩ := h
    obtain ⟨c, hc, -, hkey⟩ := haside κ hκ
    rw [hrun.done, show old = some κ from hκ]
    exact ⟨rfl, c, hc, hkey⟩
  | awaiting old shared seed =>
    obtain ⟨hrun, -, -, haside, -⟩ := h
    obtain ⟨c, hc, -, hkey⟩ := haside κ hκ
    rw [hrun.done, show old = some κ from hκ]
    exact ⟨rfl, c, hc, hkey⟩
  | verifying old κ' text =>
    obtain ⟨hrun, -, hread, -, hkey, -⟩ := h
    obtain ⟨_, hold, rfl⟩ := Option.map_eq_some_iff.1 hκ
    rw [hrun.done, hold]
    exact ⟨rfl, _, hread, hkey⟩
  | answering old κ' =>
    obtain ⟨hrun, -, haside, -⟩ := h
    obtain ⟨c, hc, -, hkey⟩ := haside κ hκ
    rw [hrun.done, show old = some κ from hκ]
    exact ⟨rfl, c, hc, hkey⟩
  | resuming κ' => cases hκ
  | settled κ' =>
    obtain ⟨⟨hdone, -, -, -, hread, -, hkey⟩, -⟩ := h
    obtain rfl := Option.some.inj hκ
    exact ⟨hdone, _, hread, hkey⟩

/-- a side whose handshake is done says what it writes -/
theorem In.speaks (h : v.In d id φ) (hdone : v.handshakeDone = true) :
    ∃ κ, φ.speaks = some κ ∧ ∃ c ∈ v.cryptWrite, (v.crypts c).Keyed d κ := by
  cases φ with
  | fresh =>
    rw [h.done] at hdone
    cases hdone
  | offered old κ =>
    obtain ⟨-, -, -, -, hwrite, hkey, -⟩ := h
    exact ⟨κ, rfl, _, hwrite, hkey⟩
  | awaiting old shared seed =>
    obtain ⟨hrun, -, -, -, haside, -⟩ := h
    rw [hrun.done] at hdone
    obtain ⟨κ, hκ⟩ := Option.isSome_iff_exists.1 hdone
    obtain ⟨c, hc, -, hkey⟩ := haside κ hκ
    exact ⟨κ, hκ, c, hc, hkey⟩
  | verifying old κ text =>
    obtain ⟨-, -, -, hwrite, hkey, -⟩ := h
    exact ⟨κ, rfl, _, hwrite, hkey⟩
  | answering old κ =>
    obtain ⟨hrun, -, -, hwrite, hkey⟩ := h
    rw [hrun.done] at hdone
    obtain ⟨κ', hκ'⟩ := Option.isSome_iff_exists.1 hdone
    refine ⟨κ, ?_, _, hwrite, hkey⟩
    rw [hκ']
    rfl
  | resuming κ =>
    rw [Resuming.done h] at hdone
    cases hdone
  | settled κ =>
    obtain ⟨⟨-, -, -, -, -, hwrite, hkey⟩, -⟩ := h
    exact ⟨κ, rfl, _, hwrite, hkey⟩

/-- `crypt_handshake_` for another handshake -/
def renewHs (v : Voice) : Voice := if v.hs.sharedConf.isSome then v.newHs else v

variable (d id old v) in
/-- a handshake is set up with the configuration `g` -/
structure Starting (g : CryptGlobal) : Prop extends v.Running d id old where
  hs : v.hs = { sharedConf := some g }
  names : g.Names d
  dhCtx : v.handshake.dhCtx = if d.switchType = .EN_SST_DIRECT then [] else [.init g.sharedDhContext]
  read : v.Aside d old v.cryptRead
  write : v.Aside d old v.cryptWrite

/-- a session that was used until now is aside when another one is made -/
theorem aside_newHs {c : ℕ} (hindex : v.cryptHandshake < v.cryptCount) (hc : c = v.cryptHandshake) (hkey : (v.crypts c).Keyed d κ) :
    v.newHs.Aside d (some κ) (some c) := by
  rintro κ' hκ'
  obtain rfl := Option.some.inj hκ'
  have hne : c ≠ v.cryptCount := by omega
  refine ⟨c, rfl, by rw [hc]; exact hindex, ?_⟩
  change (Function.update v.crypts v.cryptCount {} c).Keyed d κ
  rw [Function.update_of_ne hne]
  exact hkey

/-- a session that is aside does not change with the one of the handshake -/
theorem Aside.setHs {i : Option ℕ} (h : v.Aside d old i) (c : CryptSession) : (v.setHs c).Aside d old i := by
  intro κ hκ
  obtain ⟨c', hc', hlt, hkey⟩ := h κ hκ
  refine ⟨c', hc', hlt, ?_⟩
  change (Function.update v.crypts v.cryptHandshake c c').Keyed d κ
  rw [Function.update_of_ne hlt.ne]
  exact hkey

theorem In.resting (h : v.In d id (.calm old)) : v.Resting d old := by
  cases old with
  | none => exact h
  | some κ => exact h.1

theorem hs_ready (v : Voice) (g : CryptGlobal) : (v.ready g).hs = { v.hs with sharedConf := some g } := Function.update_self ..

/-- **A handshake is set up** on an object that is between two handshakes. -/
theorem Resting.starting (h : v.Resting d old) (hid : v.sessionId = id) {g : CryptGlobal}
    (hg : g.Names d) : (v.renewHs.ready g).Starting d id old g := by
  cases old with
  | none =>
    obtain ⟨hdone, -, -, hindex, hends⟩ := h
    have hhs : v.hs = {} := hends
    have hrenew : v.renewHs = v := if_neg (by rw [hhs]; exact Bool.false_ne_true)
    rw [hrenew]
    refine ⟨⟨hdone, rfl, rfl, hg.switchType, hid, hindex⟩, ?_, hg, ?_, ?_, ?_⟩
    · rw [hs_ready, hhs]
    · rw [← hg.switchType]
      rfl
    · exact fun κ hκ => absurd hκ (Option.not_mem_none κ)
    · exact fun κ hκ => absurd hκ (Option.not_mem_none κ)
  | some κ =>
    obtain ⟨hdone, -, -, hindex, hread, hwrite, hkey⟩ := h
    have hrenew : v.renewHs = v.newHs := if_pos hkey.shared
    have haside := aside_newHs hindex rfl hkey
    rw [hrenew]
    refine ⟨⟨hdone, rfl, rfl, hg.switchType, hid, Nat.lt_succ_self _⟩, ?_, hg, ?_, ?_, ?_⟩
    · rw [hs_ready, show v.newHs.hs = {} from Function.update_self ..]
    · rw [← hg.switchType]
      rfl
    · change (v.newHs.setHs _).Aside d (some κ) v.cryptRead
      rw [hread]
      exact haside.setHs _
    · change (v.newHs.setHs _).Aside d (some κ) v.cryptWrite
      rw [hwrite]
      exact haside.setHs _

end Voice

/-! ## The start response -/

/-- the body of a start response -/
def Deal.startRsp (d : Deal) (id : UInt64) (param : Bytes) : HandshakeBody where
  sessionId := id
  step := .EN_HST_START_RSP
  switchType := d.switchType
  cryptType := some d.type
  cryptParam := some param

/-- the server offers a key, or the parameters for one -/
inductive Offers (ext : Ext) (d : Deal) (old : Option Key) : Phase → Bytes → Prop where
  | direct (input : Bytes) :
    d.switchType = .EN_SST_DIRECT → Offers ext d old (.offered old (d.key input)) (d.key input).secret
  | dh (shared : DhShared) (seed : ℕ) (param : Bytes) :
    d.switchType ≠ .EN_SST_DIRECT → ext.Takes d shared seed param → Offers ext d old (.awaiting old shared seed) param

section startRsp

variable {e : PeersEnv} {r : Role} {w₀ w w' : Peers} {payloads : List Bytes} {v v' : Voice} {cur : Option CryptGlobal} {st : List ℤ}
  {d : Deal} {id : UInt64} {old : Option Key} {g : CryptGlobal}

theorem Deal.startRsp_short (hd : e.ext.Serves d) {param : Bytes} (hparam : param.length ≤ 2 ^ 16) : (d.startRsp id param).Short :=
  ⟨trivial, hd.known, hd.ciphers.type.2.1, hparam⟩

theorem Offers.short (hc : e.ext.Ciphers d) {φ : Phase} {param : Bytes} (h : Offers e.ext d old φ param) : param.length ≤ 2 ^ 16 := by
  cases h with
  | direct input => exact (key_sizes hc input).trans (by norm_num)
  | dh shared seed param hswitch htakes => exact htakes.1

theorem Deal.dh_cases (hd : e.ext.Serves d) (hswitch : d.switchType ≠ .EN_SST_DIRECT) :
    d.switchType = .EN_SST_DH ∨ d.switchType = .EN_SST_ECDH := by
  have hknown := hd.known
  cases htype : d.switchType with
  | EN_SST_DIRECT => exact absurd htype hswitch
  | EN_SST_DH => exact .inl rfl
  | EN_SST_ECDH => exact .inr rfl
  | other n =>
    rw [htype] at hknown
    exact hknown.elim

/-- **The start response** is packed and sent. -/
theorem sendStartRsp_phase (hd : e.ext.Serves d) (hagrees : e.ext.Agrees d g.sharedDhContext) (hid : id ≠ 0)
    (h : Peers.At e.ext.hash r w₀ payloads v cur st w) (hv : v.Starting d id old g) {type : MsgType}
    (htype : type ∈ [MsgType.EN_MTT_HANDSHAKE, .EN_MTT_POST_KEY_SYN]) :
    wp (sendStartRsp (Peers.host e r) type id d.type)
      (fun ret w' => ret = 0 ∧ ∃ v' φ param, v'.In d id φ ∧ Offers e.ext d old φ param ∧
        Peers.At e.ext.hash r w₀ (payloads ++ [e.ext.build (handshakeMsg type (d.startRsp id param))]) v' cur st w') Deep w := by
  have hvoice := h.voice
  subst hvoice
  have hsend : ∀ {v' : Voice} {φ : Phase} {param : Bytes} {w' : Peers}, v'.In d id φ → Offers e.ext d old φ param →
      param.length ≤ 2 ^ 16 → (Peers.host e r).Turned v' w w' →
      wp (do
        let ret ← writeMsg (Peers.host e r) (handshakeMsg type (d.startRsp id param))
        let _ ← (if ret < 0 then handshakeDone (Peers.host e r) ret else pure 0)
        return ret)
        (fun ret w' => ret = 0 ∧ ∃ v' φ param, v'.In d id φ ∧ Offers e.ext d old φ param ∧
          Peers.At e.ext.hash r w₀ (payloads ++ [e.ext.build (handshakeMsg type (d.startRsp id param))]) v' cur st w') Deep w' := by
    intro v' φ param w' hin hoffers hparam hturned
    simp only [wp_bind, wp_ite, wp_pure]
    refine wp_post ((h.turned hturned).writeHandshake hd.reliable htype (Deal.startRsp_short hd hparam)) fun ret w'' ⟨hret, hat⟩ =>
      ⟨fun hneg => ?_, fun _ => ⟨hret, v', φ, param, hin, hoffers, hat⟩⟩
    rw [hret] at hneg
    exact absurd hneg (lt_irrefl 0)
  unfold sendStartRsp
  rw [wp_bind]
  by_cases hswitch : d.switchType = .EN_SST_DIRECT
  · refine wp_post (Host.wp_packStartRsp_direct hd.ciphers hv.names hid hv.hs (hv.switchType.trans hswitch)) fun b w' hb => ?_
    obtain ⟨input, c, hkey, hparam, hturned, rfl⟩ := hb
    have hbody : d.startRsp id (d.key input).secret =
        { sessionId := id, step := .EN_HST_START_RSP, switchType := .EN_SST_DIRECT, cryptType := some d.type,
          cryptParam := some (d.key input).secret } := by
      rw [Deal.startRsp, hswitch]
    have hctx : (w r).proto.voice.handshake.dhCtx = [] := by rw [hv.dhCtx, if_pos hswitch]
    rw [← hbody]
    refine hsend (φ := .offered old (d.key input)) ?_ (.direct input hswitch) ((key_sizes hd.ciphers input).trans (by norm_num)) hturned
    refine ⟨⟨hv.done, hv.update, hv.data, hv.switchType, hv.sessionId, hv.index⟩, hswitch, hctx, hv.read.setHs c, rfl, ?_, ?_⟩
    · exact (Voice.hs_setHs (w r).proto.voice c).symm ▸ hkey
    · exact (congrArg CryptSession.param (Voice.hs_setHs (w r).proto.voice c)).trans hparam
  · have hdh := Deal.dh_cases hd hswitch
    obtain ⟨param, htakes⟩ := hagrees hswitch (w r).proto.seed
    obtain ⟨_, _, hexchange, -⟩ := htakes.2 0
    have hctx : (w r).proto.handshake.dhCtx = [.init g.sharedDhContext] := hv.dhCtx.trans (if_neg hswitch)
    have hmake : (Peers.host e r).ext.dh ((w r).proto.handshake.dhCtx ++ [.makeParams (w r).proto.seed]) = (0, param) := by
      rw [hctx]
      exact hexchange.makeParams
    have hdh' := hv.switchType ▸ hdh
    refine wp_post (Host.wp_packStartRsp_dh (H := Peers.host e r) (w := w) hd.ciphers hv.names hid hv.hs hdh' hv.data hmake)
      fun b w' ⟨c, hblank, hturned, hb⟩ => ?_
    rw [hb]
    have hbody : d.startRsp id param =
        { sessionId := id, step := .EN_HST_START_RSP, switchType := (w r).proto.handshake.switchSecretType, cryptType := some d.type,
          cryptParam := some param } := by
      rw [Deal.startRsp, ← hv.switchType]
      rfl
    rw [← hbody]
    refine hsend (φ := .awaiting old g.sharedDhContext (w r).proto.seed) ?_
      (.dh _ _ param hswitch htakes) htakes.1 hturned
    refine ⟨⟨hv.done, hv.update, hv.data, hv.switchType, hv.sessionId, hv.index⟩, hswitch, ?_, hv.read.setHs c, hv.write.setHs c, g, ?_⟩
    · change (w r).proto.handshake.dhCtx ++ _ = _
      rw [hctx]
      rfl
    · exact (Voice.hs_setHs (w r).proto.voice c).symm ▸ hblank

end startRsp

end AtFrame
