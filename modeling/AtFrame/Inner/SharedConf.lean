/-
The process-wide crypt configuration `crypt_global_configure_t::current()` and what a peer can do to it.

The two handlers for a server's answers (`START_RSP`, `RECONNECT_RSP`) run on a server's own connections too. When the type
or the switch type in the answer does not match the configuration they replace it by a client's configuration, for every
connection of the process. No other message touches it.

- `startRsp_reloads`, `reconnRsp_reloads`: such a message does replace the configuration;
- `Duo.run_second`: without such a message, one connection's run does not depend on another's;
- `peer_conf`: over a run, the configuration of a server is unchanged exactly as long as no such message is dispatched.

Premises: the server's configuration is not in client mode, and the owner of the object does not replace it in its callbacks
(`Host.KeepsConf`). Witness `peer_conf_pong`, a run without such a message. `plainStartRsp_replaces_conf` is the run that breaks
it: a server whose configuration switches by ECDH receives a START_RSP that names a direct switch, and every later connection of
the process gets a client's configuration.
-/
import AtFrame.Inner.Runs

namespace AtFrame

open AtFrame.Lib

namespace Host

variable {W : Type} {H : Host W} {w : W}

/-- the message is a server's answer that replaces the configuration -/
def Replaces (H : Host W) (w : W) (type : MsgType) (body : CsBody) : Prop :=
  ∃ b g, ReachesHandshake (H.proto w) type body b ∧ Reloads H.ext (H.current w) ((H.proto w).arm type) b g

/-- the event is no frame with such a message -/
def LeavesConf (H : Host W) (ev : Event) (w : W) : Prop :=
  ∀ buffer errcode type body, ev = .frame buffer errcode → H.Dispatched w buffer errcode type body →
    ¬ H.Replaces w type body

/-! ## A replaced configuration -/

/-- the process runs with a client's configuration -/
def ClientConf (H : Host W) (w : W) : Prop := ∃ g ∈ H.current w, g.conf.clientMode = true

theorem reloadedConf_client {ext : Ext} {cur : Option CryptGlobal} {body : HandshakeBody} {g : CryptGlobal}
    (hg : reloadedConf ext cur body = some g) : g.conf.clientMode = true := by
  simp only [reloadedConf] at hg
  split_ifs at hg
  exact globalReload_client hg

theorem clientConf_reloaded {body : HandshakeBody} {g : CryptGlobal} (hg : reloadedConf H.ext (H.current w) body = some g) :
    H.ClientConf (H.reloaded body w) := by
  refine ⟨g, ?_, ?_⟩
  · rw [current_reloaded, confBehind, hg]
    rfl
  · exact reloadedConf_client hg

variable {E : Fault → W → Prop}

theorem startRsp_reloads (h : H.Indifferent H.ClientConf E) {body : HandshakeBody} (hid : body.sessionId ≠ 0)
    (hdata : (H.proto w).handshake.hasData = false) {g : CryptGlobal}
    (hg : reloadedConf H.ext (H.current w) body = some g) :
    wp (dispatchHandshakeStartRsp H body) (fun _ => H.ClientConf) E w := by
  unfold dispatchHandshakeStartRsp
  simp only [wp_bind, wp_get, wp_ite, wp_pure, wp_modify, proto_setProto, setProto_setProto, hdata, wp_followServerConf]
  refine ⟨fun h0 => absurd h0 hid, fun _ => ⟨fun hc => absurd hc Bool.false_ne_true, fun _ => ?_⟩⟩
  have hset : ∀ p, H.ClientConf (H.setProto p (H.reloaded body (H.setProto ((H.proto w).startRspProto body) w))) :=
    fun p => h.setProto p (clientConf_reloaded (by rw [current_setProto]; exact hg))
  exact ⟨fun _ => hset _, fun _ => h.respects.takeStartRsp body _ (hset _) fun _ _ => trivial⟩

theorem reconnRsp_reloads (h : H.Indifferent H.ClientConf E) {body : HandshakeBody} (hid : body.sessionId ≠ 0)
    {g : CryptGlobal} (hg : reloadedConf H.ext (H.current w) body = some g) :
    wp (dispatchHandshakeReconnRsp H body) (fun _ => H.ClientConf) E w := by
  unfold dispatchHandshakeReconnRsp
  simp only [wp_bind, wp_get, wp_ite, wp_pure, wp_modify, wp_followServerConf, proto_setProto, setProto_setProto]
  refine ⟨fun h0 => absurd h0 hid, fun _ => ?_⟩
  have hset : ∀ p, H.ClientConf (H.setProto p (H.reloaded body w)) := fun p => h.setProto p (clientConf_reloaded hg)
  exact ⟨fun _ => hset _, fun _ => h.respects.closeHandshake (hset _) 0 fun _ _ => trivial⟩

theorem dispatchHandshake_reloads (h : H.Indifferent H.ClientConf E) {body : HandshakeBody}
    (hopen : (H.proto w).flags.closing = false)
    (hrun : ¬ ((H.proto w).flags.handshakeDone = true ∧ (H.proto w).flags.handshakeUpdate = false)) {g : CryptGlobal}
    (hreload : Reloads H.ext (H.current w) (H.proto w) body g) :
    wp (dispatchHandshake H body) (fun _ => H.ClientConf) E w := by
  obtain ⟨hid, hcase, hg⟩ := hreload
  have hstep : wp (dispatchHandshakeStep H body) (fun _ => H.ClientConf) E w := by
    unfold dispatchHandshakeStep
    rcases hcase with ⟨hs, hdata⟩ | hs <;> rw [hs]
    · exact startRsp_reloads h hid hdata hg
    · exact reconnRsp_reloads h hid hg
  unfold dispatchHandshake
  simp only [wp_bind, wp_get, wp_ite, wp_pure, hopen, Bool.not_eq_true]
  refine ⟨fun hc => absurd hc Bool.false_ne_true, fun _ => ⟨fun hc => absurd hc hrun, fun _ => ?_⟩⟩
  refine wp_post hstep fun ret w1 hw1 => ⟨fun _ => ?_, fun _ => hw1⟩
  refine wp_post (h.respects.closeHandshake hw1 ret fun _ _ => trivial) fun _ w2 hw2 => ?_
  exact h.respects.close _ _ w2 hw2

theorem frame_replaces (h : H.Indifferent H.ClientConf E) {buffer : Bytes} {errcode : ℤ} {type : MsgType} {body : CsBody}
    (hmsg : H.Dispatched w buffer errcode type body) (hrep : H.Replaces w type body) :
    wp (dispatchData H buffer errcode) (fun _ => H.ClientConf) E w := by
  obtain ⟨hopen, herr, hverify⟩ := hmsg
  obtain ⟨b, g, ⟨htype, rfl, hrun⟩, hreload⟩ := hrep
  have hstage := steady_arm (H.proto w) type
  have hdispatch : wp (dispatchHandshake H b >>= fun _ => pure ()) (fun _ => H.ClientConf) E
      (H.setProto ((H.proto w).arm type) w) := by
    refine (wp_bind _ _).2 (dispatchHandshake_reloads h ?_ ?_ (g := g) ?_)
    · rw [proto_setProto, hstage.closing, hopen]
    · rwa [proto_setProto]
    · rwa [proto_setProto, current_setProto]
  unfold dispatchData
  simp only [wp_bind, wp_get, wp_ite, hopen, hverify]
  refine ⟨fun hc => absurd hc Bool.false_ne_true, fun _ => ⟨fun hc => absurd herr hc.not_ge, fun _ => ?_⟩⟩
  rcases htype with rfl | rfl | rfl
  · rwa [Proto.arm, if_neg (by decide), setProto_proto] at hdispatch
  · exact (wp_bind _ _).2 hdispatch
  · exact (wp_bind _ _).2 hdispatch

/-! ## Runs -/

/-- callbacks that leave the configuration alone keep every statement about it -/
def KeepsConf (H : Host W) : Prop := ∀ P : Option CryptGlobal → Prop,
  H.CallbacksKeep (fun w => P (H.current w)) (fun _ w => P (H.current w))

theorem KeepsConf.indifferent (h : H.KeepsConf) (P : Option CryptGlobal → Prop) :
    H.Indifferent (fun w => P (H.current w)) (fun _ w => P (H.current w)) where
  toOwnerKeeps := (h P).toOwnerKeeps
  setProto p hw := by rwa [current_setProto]
  overflow := id
  assertFail := id
  nullConf := id

theorem msgOk_leaves (hH : H.KeepsConf) {P : Option CryptGlobal → Prop} {type : MsgType} {body : CsBody} (h : ¬ H.Replaces w type body) :
    H.MsgOk (fun w => P (H.current w)) (fun _ w => P (H.current w)) Guard.free w type body where
  handshake _ hb :=
    { start := fun _ => trivial
      resume := fun _ => trivial
      finish := fun _ => trivial
      reload := fun g hg => by
        rw [proto_setProto, current_setProto] at hg
        exact absurd ⟨_, g, hb, hg⟩ h
      absent := fun _ _ => id }
  absent _ _ := id
  message f hf out len _ hw _ := (hH P).messageFn f hf out len w hw

theorem event_current (hH : H.KeepsConf) {ev : Event} (h : H.LeavesConf ev w) :
    H.current (exec (H.event ev) w).2 = H.current w := by
  have hstep := (hH.indifferent (· = H.current w)).event rfl fun buffer errcode type body hframe hmsg =>
    msgOk_leaves hH (P := (· = H.current w)) (h buffer errcode type body hframe hmsg)
  unfold wp at hstep
  rcases hexec : exec (H.event ev) w with ⟨fault | _, w'⟩ <;> rw [hexec] at hstep <;> exact hstep

/-- a run without such a message leaves the configuration as it is, also where a fault stops it -/
theorem run_current (hH : H.KeepsConf) {events : List Event} (hmeets : EachMeets H.event H.LeavesConf events w) :
    H.current (exec (H.run events) w).2 = H.current w := by
  have hkeep := wp_forM (I := fun w' => H.current w' = H.current w) (E := fun _ w' => H.current w' = H.current w)
    (fun ev w' hw' hev => (hH.indifferent (· = H.current w)).event hw' fun buffer errcode type body hframe hmsg =>
      msgOk_leaves hH (P := (· = H.current w)) (hev buffer errcode type body hframe hmsg)) rfl hmeets
  change wp (H.run events) _ _ w at hkeep
  unfold wp at hkeep
  rcases hexec : exec (H.run events) w with ⟨fault | _, w'⟩ <;> rw [hexec] at hkeep <;> exact hkeep

theorem msgOk_client (hH : H.KeepsConf) {type : MsgType} {body : CsBody} :
    H.MsgOk H.ClientConf (fun _ => H.ClientConf) Guard.free w type body where
  handshake _ _ :=
    { start := fun _ => trivial
      resume := fun _ => trivial
      finish := fun _ => trivial
      reload := fun g hg w' _ _ => ⟨g, H.current_setCurrent g w', reloadedConf_client hg.2.2⟩
      absent := fun _ _ => id }
  absent _ _ := id
  message f hf out len _ hw _ := (hH fun c => ∃ g ∈ c, g.conf.clientMode = true).messageFn f hf out len w hw

/-- a run with such a message ends with a client's configuration -/
theorem run_clientConf (hH : H.KeepsConf) {events : List Event} (hnot : ¬ EachMeets H.event H.LeavesConf events w) :
    H.ClientConf (exec (H.run events) w).2 := by
  have h : H.Indifferent H.ClientConf (fun _ => H.ClientConf) :=
    hH.indifferent fun c => ∃ g ∈ c, g.conf.clientMode = true
  have hbreak : wp (H.run events) (fun _ => H.ClientConf) (fun _ => H.ClientConf) w := by
    refine wp_forM_of_not (I := fun _ => True) (fun ev w _ _ => wp_trivial _ w) ?_ ?_ trivial hnot
    · intro ev w _ hev
      unfold LeavesConf at hev
      push Not at hev
      obtain ⟨buffer, errcode, type, body, rfl, hmsg, hrep⟩ := hev
      exact frame_replaces h hmsg hrep
    · exact fun ev w hw => h.event hw fun _ _ _ _ _ _ => msgOk_client hH
  unfold wp at hbreak
  rcases hexec : exec (H.run events) w with ⟨fault | _, w'⟩ <;> rw [hexec] at hbreak <;> exact hbreak

end Host

/-! ## Two connections of one process -/

/-- two objects with the configuration of their process -/
structure Duo where
  a : Solo
  b : Solo
  shared : a.current = b.current

/-- what happens to the first object (`inl`) or to the second (`inr`); both see the configuration it leaves -/
def Duo.event (ea eb : SoloEnv) : Event ⊕ Event → Prog Fault Duo Unit
  | .inl ev => fun d =>
    let r := exec ((Solo.host ea).event ev) d.a
    (r.1, ⟨r.2, { d.b with current := r.2.current }, rfl⟩)
  | .inr ev => fun d =>
    let r := exec ((Solo.host eb).event ev) d.b
    (r.1, ⟨{ d.a with current := r.2.current }, r.2, rfl⟩)

/-- the events of the first object leave the configuration alone -/
def Duo.LeavesConf (ea : SoloEnv) (ev : Event ⊕ Event) (d : Duo) : Prop :=
  ∀ ev', ev = .inl ev' → (Solo.host ea).LeavesConf ev' d.a

theorem Solo.keepsConf (e : SoloEnv) : (Solo.host e).KeepsConf := fun _ => Solo.callbacksKeep fun _ _ _ _ hw => hw

/-- one event that leaves the configuration alone does not change it -/
theorem Solo.event_current {e : SoloEnv} {ev : Event} {w : Solo} (h : (Solo.host e).LeavesConf ev w) :
    (exec ((Solo.host e).event ev) w).2.current = w.current :=
  Host.event_current (Solo.keepsConf e) h

/-- what the second object does in a run of both is its own run -/
theorem Duo.run_second {ea eb : SoloEnv} {events : List (Event ⊕ Event)} {d d' : Duo}
    (hmeets : EachMeets (Duo.event ea eb) (Duo.LeavesConf ea) events d)
    (hrun : exec (events.forM (Duo.event ea eb)) d = (.ok (), d')) :
    exec ((Solo.host eb).run (events.filterMap Sum.getRight?)) d.b = (.ok (), d'.b) := by
  induction events generalizing d with
  | nil =>
    cases hrun
    rfl
  | cons ev events ih =>
    obtain ⟨hev, hrest⟩ := hmeets
    unfold wp at hrest
    rcases hexec : exec (Duo.event ea eb ev) d with ⟨fault | _, d1⟩
    · rw [exec_forM_cons_error hexec] at hrun
      cases hrun
    · rw [hexec] at hrest
      rw [exec_forM_cons_ok hexec] at hrun
      have hown := ih hrest hrun
      cases ev with
      | inl ev =>
        have hcur := Solo.event_current (hev ev rfl)
        obtain ⟨-, rfl⟩ := Prod.mk.inj hexec
        have hb : { d.b with current := (exec ((Solo.host ea).event ev) d.a).2.current } = d.b := by
          rw [hcur, d.shared]
        simp only [hb] at hown
        exact hown
      | inr ev =>
        obtain ⟨hok, rfl⟩ := Prod.mk.inj hexec
        exact (exec_forM_cons_ok (Prod.ext hok rfl)).trans hown

/-- **What a peer can do to the crypt configuration of others.** In a server process, and for callbacks that leave the
configuration alone: over every run of one object, from whatever state, the configuration is the same behind it as before
if and only if no frame is dispatched that replaces it in the state before it. And for two runs of two objects that differ
only in what happens to the first one, if none of its frames does this, the second object ends in the same state, with the
same cipher and switch type and the same messages sent. -/
theorem peer_conf {W : Type} (H : Host W) (hH : H.KeepsConf) (w : W)
    (hserver : ∀ g ∈ H.current w, g.conf.clientMode = false) (events : List Event) :
    (H.current (exec (H.run events) w).2 = H.current w ↔ EachMeets H.event H.LeavesConf events w) ∧
      ∀ (ea eb : SoloEnv) (d d1 d2 : Duo) (xs ys : List (Event ⊕ Event)),
        xs.filterMap Sum.getRight? = ys.filterMap Sum.getRight? →
        EachMeets (Duo.event ea eb) (Duo.LeavesConf ea) xs d → EachMeets (Duo.event ea eb) (Duo.LeavesConf ea) ys d →
        exec (xs.forM (Duo.event ea eb)) d = (.ok (), d1) → exec (ys.forM (Duo.event ea eb)) d = (.ok (), d2) →
        d1.b = d2.b := by
  refine ⟨⟨fun hsame => ?_, Host.run_current hH⟩, fun ea eb d d1 d2 xs ys hsame hxs hys hrun1 hrun2 => ?_⟩
  · by_contra hnot
    obtain ⟨g, hg, hclient⟩ := Host.run_clientConf hH hnot
    rw [hsame] at hg
    exact Bool.false_ne_true ((hserver g hg).symm.trans hclient)
  · have h1 := Duo.run_second hxs hrun1
    have h2 := Duo.run_second hys hrun2
    rw [hsame, h2] at h1
    exact (Prod.mk.inj h1).2.symm

/-- a server that switches its keys by ECDH -/
def serverConf : CryptGlobal where
  conf := { defaultCryptConfigure with type := [120, 111, 114], switchSecretType := .EN_SST_ECDH }
  availableTypes := [[120, 111, 114]]
  sharedDhContext := .EN_CDT_ECDH

theorem peer_conf_pong :
    (exec ((Solo.host (oneMessageEnv ⟨some .EN_MTT_PONG, .ping none⟩)).run [.frame [0] 0])
      (Solo.accepted (some serverConf))).2.current = some serverConf := by
  refine (peer_conf (Solo.host (oneMessageEnv ⟨some .EN_MTT_PONG, .ping none⟩)) (Solo.keepsConf _)
    (Solo.accepted (some serverConf)) ?_ [.frame [0] 0]).1.2 ⟨?_, wp_trivial _ _⟩
  · rintro g ⟨⟩
    rfl
  · rintro buffer errcode type body ⟨⟩ ⟨-, -, hmsg⟩
    cases hmsg
    rintro ⟨b, g, ⟨-, hb, -⟩, -⟩
    cases hb

/-- a start response without encryption, sent by a client that was just accepted -/
def plainStartRsp : CsMsg :=
  handshakeMsg .EN_MTT_HANDSHAKE
    { sessionId := 1, step := .EN_HST_START_RSP, switchType := .EN_SST_DIRECT, cryptType := none, cryptParam := none }

theorem plainStartRsp_replaces_conf :
    (exec ((Solo.host (oneMessageEnv plainStartRsp)).run [.frame [0] 0])
      (Solo.accepted (some serverConf))).2.current ≠ some serverConf := by
  decide +kernel

end AtFrame
