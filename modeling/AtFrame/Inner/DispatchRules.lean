/-
Rules for the dispatch of messages: what an owner's invariant needs so that no message breaks it.

Four things a message can do depend on the state it meets, and an owner may have to exclude them: start or resume a
session, end a handshake with success (`Completes`), replace the process-wide configuration (`Reloads`), and make a handler
read an absent field (`ReadsAbsent`). `HandshakeOk` collects what is required of a handshake message; everything else is
kept by every message.

- `decryptData_result`, `checkVerify_result`: the results of these programs as functions of the state;
- `Respects.dispatchHandshakeStep`: every handshake step;
- `Respects.dispatchMsg`, `Respects.dispatchData`: every message and every buffer.
-/
import AtFrame.Inner.HostRules

namespace AtFrame

open AtFrame.Lib

/-! ## What a handshake message does -/

/-- the result of `decrypt_data` on an object that is not closing -/
def decrypted (ext : Ext) (c : CryptSession) (input : Bytes) : ℤ × Bytes :=
  if ¬ c.isInited then (EN_ECT_CRYPT_NOT_SUPPORTED, [])
  else if input = [] then (EN_ECT_PARAM, input)
  else if c.type = [] then (EN_ECT_SUCCESS, input)
  else
    match ext.decrypt c.cipher input with
    | .error _ => (EN_ECT_CRYPT_OPERATION, [])
    | .ok out => (EN_ECT_SUCCESS, out)

/-- what `message_fn` is called with for a message: buffer and length -/
def Proto.delivered (ext : Ext) (p : Proto) (type : MsgType) (body : CsBody) : Option (Bytes × ℕ) :=
  match type, body with
  | .EN_MTT_POST, .post (some ⟨length, some data⟩) =>
    if p.flags.handshakeDone = true then
      match p.cryptRead with
      | none => none
      | some c =>
        let r := decrypted ext (p.crypts c) data
        if r.1 = 0 then some (r.2, length) else none
    else none
  | _, _ => none

/-- the result of the check in `dispatch_handshake_verify_ntf` -/
def verifyResult (ext : Ext) (c : CryptSession) (body : HandshakeBody) : ℤ :=
  match body.cryptParam with
  | none => 0
  | some param =>
    if c.param ≠ [] ∧ c.param.length ≤ param.length then
      let r := decrypted ext c param
      if r.1 ≠ 0 then r.1
      else if r.2.length < c.param.length then EN_ECT_HANDSHAKE
      else if verifyHalf 0 r.2 c.param then 0 else EN_ECT_CRYPT_VERIFY
    else 0

/-- the configuration that `dispatch_handshake_start_rsp` and `dispatch_handshake_reconn_rsp` install, when they install one -/
def reloadedConf (ext : Ext) (cur : Option CryptGlobal) (body : HandshakeBody) : Option CryptGlobal :=
  let m := confMismatch cur (body.cryptType.getD []) body.switchType
  if m.1 then globalReload ext (clientConf m.2 body.switchType) else none

/-- the object when `dispatch_handshake_start_rsp` looks at the configuration -/
def Proto.startRspProto (p : Proto) (body : HandshakeBody) : Proto :=
  Proto.renewHs { p with sessionId := body.sessionId }

/-- the message replaces the process-wide configuration by `g` -/
def Reloads (ext : Ext) (cur : Option CryptGlobal) (p : Proto) (body : HandshakeBody) (g : CryptGlobal) : Prop :=
  body.sessionId ≠ 0 ∧ (body.step = .EN_HST_START_RSP ∧ p.handshake.hasData = false ∨ body.step = .EN_HST_RECONNECT_RSP) ∧
    reloadedConf ext cur body = some g

/-- the message makes `dispatch_handshake_dh_pubkey_req` read an absent `crypt_param` -/
def ReadsAbsent (p : Proto) (body : HandshakeBody) : Prop :=
  (body.step = .EN_HST_DH_PUBKEY_REQ ∨ body.step = .EN_HST_ECDH_PUBKEY_REQ) ∧
    p.handshake.switchSecretType = body.switchType ∧ p.hs.sharedConf.isSome ∧ p.handshake.hasData ∧
    body.cryptParam = none

/-- the configuration a handshake is set up with behind `reloadedConf` -/
def confBehind (ext : Ext) (cur : Option CryptGlobal) (body : HandshakeBody) : Option CryptGlobal :=
  (reloadedConf ext cur body).or cur

/-- `dispatch_handshake_start_rsp` ends the handshake with success: the response is accepted and either uses no encryption
or brings a secret that can be set -/
def StartRspCompletes (ext : Ext) (cur : Option CryptGlobal) (p : Proto) (body : HandshakeBody) : Prop :=
  let t := (confMismatch cur (body.cryptType.getD []) body.switchType).2
  let r := (p.startRspProto body).setupHandshake ext (confBehind ext cur body)
  let s := r.2.hs.setup ext t
  body.sessionId ≠ 0 ∧ p.handshake.hasData = false ∧ 0 ≤ r.1 ∧ s.1 = 0 ∧
    (t = [] ∨ body.switchType = .EN_SST_DIRECT ∧
      ∃ param ∈ body.cryptParam, ({ s.2 with secret := param }.swapOwnSecret ext).1 = 0)

/-- the object when the handshake in a message of this type is dispatched -/
def Proto.arm (p : Proto) (type : MsgType) : Proto :=
  if type = .EN_MTT_POST_KEY_SYN ∨ type = .EN_MTT_POST_KEY_ACK then p.startUpdate else p

/-- a message of this type with a handshake body `b` reaches the handler of its step -/
def ReachesHandshake (p : Proto) (type : MsgType) (body : CsBody) (b : HandshakeBody) : Prop :=
  (type = .EN_MTT_HANDSHAKE ∨ type = .EN_MTT_POST_KEY_SYN ∨ type = .EN_MTT_POST_KEY_ACK) ∧
    body = .handshake (some b) ∧ ¬ ((p.arm type).flags.handshakeDone = true ∧ (p.arm type).flags.handshakeUpdate = false)

/-- `dispatch_data` itself reads through an absent table or vector -/
def AbsentBody (p : Proto) (type : MsgType) (body : CsBody) : Prop :=
  match type, body with
  | .EN_MTT_POST, .post b =>
    p.flags.handshakeDone = true ∧ p.cryptRead.isSome ∧ (b = none ∨ ∃ post ∈ b, post.data = none)
  | .EN_MTT_HANDSHAKE, .handshake none | .EN_MTT_POST_KEY_SYN, .handshake none | .EN_MTT_POST_KEY_ACK, .handshake none =>
    True
  | .EN_MTT_PING, .ping none | .EN_MTT_KICKOFF, .kickoff none => True
  | _, _ => False

/-- the message ends a handshake with success, without a session being started or resumed by it -/
def Completes (ext : Ext) (cur : Option CryptGlobal) (p : Proto) (body : HandshakeBody) : Prop :=
  match body.step with
  | .EN_HST_START_RSP => StartRspCompletes ext cur p body
  | .EN_HST_RECONNECT_RSP =>
    body.sessionId ≠ 0 ∧ 0 ≤ (p.setupHandshake ext (confBehind ext cur body)).1
  | .EN_HST_DH_PUBKEY_RSP | .EN_HST_ECDH_PUBKEY_RSP =>
    body.sessionId ≠ 0 ∧ ∃ param ∈ body.cryptParam, (decrypted ext p.hs param).1 = 0
  | .EN_HST_VERIFY =>
    p.handshake.switchSecretType = body.switchType ∧
      ∃ c ∈ (p.directRead body.switchType).cryptRead, verifyResult ext (p.crypts c) body = 0
  | _ => False

namespace Host

variable {W : Type} {H : Host W} {I J : W → Prop} {E : Fault → W → Prop} {G : Guard W}

/-- what an owner requires of a handshake message that meets the world `w` -/
structure HandshakeOk (H : Host W) (I : W → Prop) (E : Fault → W → Prop) (G : Guard W) (w : W) (body : HandshakeBody) :
    Prop where
  start : body.step = .EN_HST_START_REQ → G.start w
  resume : body.step = .EN_HST_RECONNECT_REQ → G.resume w
  finish : Completes H.ext (H.current w) (H.proto w) body → G.finish w
  reload : ∀ g, Reloads H.ext (H.current w) (H.proto w) body g →
    ∀ w', I w' → H.current w' = H.current w → I (H.setCurrent g w')
  absent : ReadsAbsent (H.proto w) body → ∀ w', I w' → E .absentField w'

/-! ## Results as functions of the state -/

theorem decryptData_result (h : H.Calm I E) (c : CryptSession) (input : Bytes) {w : W} (hw : I w)
    (hopen : (H.proto w).flags.closing = false) :
    wp (AtFrame.decryptData H c input) (fun r w' => I w' ∧ r = decrypted H.ext c input) E w := by
  unfold AtFrame.decryptData decrypted
  simp only [wp_bind, wp_get, wp_ite, wp_pure, hopen]
  refine ⟨fun h => absurd h Bool.false_ne_true, fun _ => ⟨fun h1 => ?_, fun h1 => ⟨fun h2 => ?_, fun h2 => ⟨fun h3 => ?_, fun h3 => ?_⟩⟩⟩⟩
  · rw [if_pos h1]; exact ⟨hw, rfl⟩
  · rw [if_neg h1, if_pos h2]; exact ⟨hw, rfl⟩
  · rw [if_neg h1, if_neg h2, if_pos h3]; exact ⟨hw, rfl⟩
  · rw [if_neg h1, if_neg h2, if_neg h3]
    cases H.ext.decrypt c.cipher input with
    | ok out => exact ⟨hw, rfl⟩
    | error res =>
      simp only [wp_bind, wp_pure]
      exact wp_post (h.onError _ _ w hw) fun _ w' hw' => ⟨hw', trivial⟩

theorem checkVerify_result (h : H.Calm I E) (c : CryptSession) (body : HandshakeBody) {w : W} (hw : I w)
    (hopen : (H.proto w).flags.closing = false) :
    wp (AtFrame.checkVerify H c body) (fun r w' => I w' ∧ r = verifyResult H.ext c body) E w := by
  unfold AtFrame.checkVerify verifyResult
  cases body.cryptParam with
  | none => exact ⟨hw, rfl⟩
  | some param =>
    simp only [wp_ite, wp_pure, wp_bind]
    refine ⟨fun h1 => ?_, fun h1 => ?_⟩
    · rw [if_pos h1]
      refine wp_post (decryptData_result h c param hw hopen) fun r w1 ⟨hw1, hr⟩ => ?_
      subst hr
      refine ⟨fun h2 => ?_, fun h2 => ⟨fun h3 => ?_, fun h3 => ?_⟩⟩
      · rw [if_pos h2]
        exact wp_post (h.onError _ _ w1 hw1) fun _ w' hw' => ⟨hw', rfl⟩
      · rw [if_neg h2, if_pos h3]
        exact wp_post (h.onError _ _ w1 hw1) fun _ w' hw' => ⟨hw', rfl⟩
      · rw [if_neg h2, if_neg h3]
        exact ⟨hw1, rfl⟩
    · rw [if_neg h1]
      exact ⟨hw, rfl⟩

/-! ## Reconnecting -/

theorem Still.checkReconnectSecret (h : H.Still I E) (other : CryptSession) :
    Keeps I E (AtFrame.checkReconnectSecret H other) := by
  intro w hw
  unfold AtFrame.checkReconnectSecret
  simp only [wp_bind, wp_get]
  cases (H.proto w).handshake.extData with
  | none => exact hw
  | some body =>
    simp only [wp_bind, wp_ite, wp_pure, wp_modify, proto_setProto, setProto_setProto]
    have hset : ∀ c, I (H.setProto ((H.proto w).setHs c) w) := fun _ => h.quiet hw (.of_eq rfl)
    refine ⟨fun _ => hw, fun _ => ⟨fun _ => h.onError _ _ _ (hset _), fun _ => ⟨fun _ => hset _, fun _ => ?_⟩⟩⟩
    refine ⟨fun _ => h.onError _ _ _ (h.quiet hw (.of_eq rfl)), fun _ => ?_⟩
    exact h.decryptData _ _ _ (h.quiet hw (.of_eq rfl))

theorem Still.checkReconnect (h : H.Still I E) (other : Proto) : Keeps I E (AtFrame.checkReconnect H other) := by
  intro w hw
  unfold AtFrame.checkReconnect
  simp only [wp_bind, wp_get, wp_ite, wp_pure]
  refine ⟨fun _ => hw, fun _ => wp_post (h.checkReconnectSecret _ w hw) fun r w' hw' => ⟨fun _ => ?_, fun _ => hw'⟩⟩
  simp only [wp_modify, wp_setupHandshake, proto_setProto, setProto_setProto]
  have hset := steady_setupHandshake H.ext { H.proto w' with sessionId := other.sessionId } other.reconnectCrypt.sharedConf
  exact h.quiet hw' ((steady_writeHs _).trans ((steady_readHs _).trans (hset.trans (.of_eq rfl))))

/-! ## Handshake steps -/

theorem Respects.startReq (h : H.Respects I E G) (body : HandshakeBody) {w : W} (hw : I w)
    (hopen : (H.proto w).flags.closing = false) (hs : G.start w) :
    wp (dispatchHandshakeStartReq H body) (fun _ => I) E w := by
  unfold dispatchHandshakeStartReq
  simp only [wp_bind, wp_get, wp_ite, wp_pure, hopen]
  refine ⟨fun h => absurd h Bool.false_ne_true, fun _ => ?_⟩
  split
  · rename_i newSessionFn _ hnew
    simp only [wp_bind, wp_getCurrent, wp_setupHandshake, wp_ite, wp_pure]
    have hstage := steady_setupHandshake H.ext (H.proto w) (H.current w)
    have hset := h.quiet hw hstage
    refine ⟨fun _ => hset, fun _ => ?_⟩
    split
    · exact h.nullConf hset
    · simp only [wp_bind, wp_get, wp_modify]
      refine wp_post (h.newSessionFn _ hnew _ _ hset ?_ (h.start hs hstage)) fun r w' hw' => ?_
      · rw [proto_setProto, hstage.closing, hopen]
      · obtain ⟨hI, hf⟩ := h.finishCalm.quiet (p := { H.proto w' with sessionId := r.2 }) hw' (.of_eq rfl)
        exact h.sendStartRsp _ _ _ hI fun _ => hf
  · exact hw

/-- the world behind the configuration check of a server's response -/
def reloaded (H : Host W) (body : HandshakeBody) (w : W) : W :=
  match reloadedConf H.ext (H.current w) body with
  | none => w
  | some g => H.setCurrent g w

theorem proto_reloaded (H : Host W) (body : HandshakeBody) (w : W) : H.proto (H.reloaded body w) = H.proto w := by
  unfold reloaded
  cases reloadedConf H.ext (H.current w) body with
  | none => rfl
  | some g => exact H.proto_setCurrent g w

theorem current_reloaded (H : Host W) (body : HandshakeBody) (w : W) :
    H.current (H.reloaded body w) = confBehind H.ext (H.current w) body := by
  unfold reloaded confBehind
  cases reloadedConf H.ext (H.current w) body with
  | none => rfl
  | some g => exact H.current_setCurrent g w

theorem wp_globalReloadFn {Q : PUnit → W → Prop} {w : W} (conf : CryptConf) :
    wp (globalReloadFn H conf) Q E w ↔
      Q ⟨⟩ (match globalReload H.ext conf with | none => w | some g => H.setCurrent g w) := by
  unfold globalReloadFn
  cases globalReload H.ext conf <;> rfl

theorem wp_followServerConf {Q : ℤ × Bytes → W → Prop} {w : W} (body : HandshakeBody) :
    wp (followServerConf H body) Q E w ↔
      Q (((H.proto w).setupHandshake H.ext (confBehind H.ext (H.current w) body)).1,
          (confMismatch (H.current w) (body.cryptType.getD []) body.switchType).2)
        (H.setProto ((H.proto w).setupHandshake H.ext (confBehind H.ext (H.current w) body)).2 (H.reloaded body w)) := by
  unfold followServerConf
  simp only [wp_bind, wp_getCurrent, wp_ite, wp_globalReloadFn, wp_pure, wp_setupHandshake]
  rw [← current_reloaded, ← H.proto_reloaded body w]
  by_cases hm : (confMismatch (H.current w) (body.cryptType.getD []) body.switchType).1 = true
  · have hr : (match globalReload H.ext (clientConf (confMismatch (H.current w) (body.cryptType.getD []) body.switchType).2
        body.switchType) with | none => w | some g => H.setCurrent g w) = H.reloaded body w := by
      simp only [reloaded, reloadedConf, hm, if_true]
    rw [hr]
    exact ⟨fun h => h.1 hm, fun h => ⟨fun _ => h, fun hc => absurd hm hc⟩⟩
  · have hr : H.reloaded body w = w := by simp only [reloaded, reloadedConf, if_neg hm]
    rw [hr]
    exact ⟨fun h => h.2 hm, fun h => ⟨fun hc => absurd hc hm, fun _ => h⟩⟩

/-- the reload in front of `setup_handshake` keeps what the owner requires of it -/
theorem reload_keeps {body : HandshakeBody} {w : W} (hw : I w)
    (hreload : ∀ g, reloadedConf H.ext (H.current w) body = some g → I (H.setCurrent g w)) : I (H.reloaded body w) := by
  unfold reloaded
  cases hg : reloadedConf H.ext (H.current w) body with
  | none => exact hw
  | some g => exact hreload g hg

theorem Respects.finish_reloaded (h : H.Respects I E G) (body : HandshakeBody) {w : W} (hf : G.finish w) :
    G.finish (H.reloaded body w) := by
  unfold reloaded
  split
  · exact hf
  · exact h.finishCurrent hf

theorem Calm.computeDhSecret (h : H.Calm I E) (param : Bytes) : Keeps I E (AtFrame.computeDhSecret H param) := by
  intro w hw
  unfold AtFrame.computeDhSecret
  simp only [wp_bind, wp_get, wp_ite, wp_pure, wp_modify, proto_setProto, setProto_setProto]
  have hread := steady_dhCall H.ext (H.proto w) (.readParams param)
  have hmake := fun c b => (steady_setHs _ b).trans ((steady_dhCall H.ext _ c).trans hread)
  have hcalc := fun c d b b' => (steady_setHs _ b').trans ((steady_dhCall H.ext _ d).trans (hmake c b))
  refine ⟨fun _ => h.onError _ _ w hw, fun _ => ⟨fun _ => h.onError _ _ _ (h.quiet hw hread), fun _ => ?_⟩⟩
  refine ⟨fun _ => h.onError _ _ _ (h.quiet hw (hmake _ _)), fun _ => ?_⟩
  refine ⟨fun _ => h.onError _ _ _ (h.quiet hw (hcalc _ _ _ _)), fun _ => ?_⟩
  have hkey := fun c d b b' b'' => (steady_setHs _ b'').trans (hcalc c d b b')
  exact ⟨fun _ => h.onError _ _ _ (h.quiet hw (hkey _ _ _ _ _)), fun _ => h.quiet hw ((steady_writeHs _).trans (hkey _ _ _ _ _))⟩

theorem Calm.startRspDh (h : H.Calm I E) (body : HandshakeBody) (nextStep : HandshakeStep) :
    Keeps I E (AtFrame.startRspDh H body nextStep) := by
  intro w hw
  unfold AtFrame.startRspDh packHandshakeDhPubkeyReq
  simp only [wp_bind, wp_get]
  cases body.cryptParam with
  | none => exact hw
  | some param =>
    simp only [wp_ite, wp_bind, wp_pure, wp_modify, proto_setProto, setProto_setProto, wp_get]
    refine ⟨fun _ => hw, fun _ => wp_post (h.computeDhSecret _ _ (h.quiet hw (.of_eq rfl))) fun r w' hw' => ?_⟩
    exact ⟨fun _ => hw', fun _ => h.writeMsg _ w' hw'⟩

theorem Respects.startRspDirect (h : H.Respects I E G) (param : Bytes) {w : W} (hw : I w)
    (hf : ({ (H.proto w).hs with secret := param }.swapOwnSecret H.ext).1 = 0 → G.finish w) :
    wp (AtFrame.startRspDirect H param) (fun _ => I) E w := by
  unfold AtFrame.startRspDirect
  simp only [wp_bind, wp_get, wp_ite, wp_pure, wp_modify, proto_setProto, setProto_setProto]
  have hverify : ∀ (r : Unit) w', I w' → wp (AtFrame.sendVerify H []) (fun _ => I) E w' :=
    fun _ w' hw' => h.sendVerify [] w' hw'
  refine ⟨fun hret => ?_, fun _ => ?_⟩
  · have hset : ∀ c, I (H.setProto ((H.proto w).setHs c) w) := fun _ => h.quiet hw (.of_eq rfl)
    refine wp_post (h.onError _ _ _ (hset _)) fun _ w1 hw1 => wp_post ?_ hverify
    have hsw : I (H.setProto (H.proto w1).readHs.writeHs w1) := h.quiet hw1 ((steady_writeHs _).trans (steady_readHs _))
    exact h.closeHandshake hsw _ fun h0 _ => absurd h0 hret.ne
  · have hstage : ∀ c, ((H.proto w).setHs c).readHs.writeHs.Steady (H.proto w) := fun _ =>
      (steady_writeHs _).trans ((steady_readHs _).trans (steady_setHs _ _))
    refine wp_post ?_ hverify
    exact h.closeHandshake (h.quiet hw (hstage _)) _ fun h0 _ => h.finish hw (hf h0) (hstage _)

theorem steady_startRspProto (p : Proto) (body : HandshakeBody) : (p.startRspProto body).Steady p := by
  unfold Proto.startRspProto Proto.renewHs
  split_ifs
  · exact (steady_newHs _).trans (steady_sessionId p _)
  · exact steady_sessionId p _

theorem hs_setHs (p : Proto) (c : CryptSession) : (p.setHs c).hs = c := Function.update_self ..

theorem Respects.takeStartRsp (h : H.Respects I E G) (body : HandshakeBody) (cryptType : Bytes) {w : W} (hw : I w)
    (hf : ((H.proto w).hs.setup H.ext cryptType).1 = 0 → (cryptType = [] ∨ body.switchType = .EN_SST_DIRECT ∧
      ∃ param ∈ body.cryptParam,
        ({ ((H.proto w).hs.setup H.ext cryptType).2 with secret := param }.swapOwnSecret H.ext).1 = 0) → G.finish w) :
    wp (AtFrame.takeStartRsp H body cryptType) (fun _ => I) E w := by
  unfold AtFrame.takeStartRsp
  simp only [wp_bind, wp_get, wp_ite, wp_pure, wp_modify, proto_setProto, setProto_setProto]
  set s := (H.proto w).hs.setup H.ext cryptType
  refine ⟨fun hplain => ?_, fun hcrypt => ?_⟩
  · have hstage : ((H.proto w).setHs s.2).readHs.writeHs.Steady (H.proto w) :=
      (steady_writeHs _).trans ((steady_readHs _).trans (steady_setHs _ _))
    refine h.closeHandshake (h.quiet hw hstage) _ fun h0 _ => h.finish hw (hf h0 (.inl ?_)) hstage
    exact hplain.resolve_right fun hneg => absurd h0 hneg.ne
  · have hstage : ∀ hh, (((H.proto w).setHs s.2).setHandshake hh).Steady (H.proto w) := fun _ => .of_eq rfl
    have hset : ∀ hh, I (H.setProto (((H.proto w).setHs s.2).setHandshake hh) w) := fun hh => h.quiet hw (hstage hh)
    cases hparam : body.cryptParam with
    | none =>
      simp only [wp_bind, wp_pure]
      exact h.onError _ _ _ (hset _)
    | some param =>
      cases hsw : body.switchType with
      | EN_SST_DIRECT =>
        refine h.startRspDirect param (hset _) fun h0 => h.finish hw (hf ?_ (.inr ⟨hsw, param, hparam, ?_⟩)) (hstage _)
        · exact setup_success fun hneg => hcrypt (.inr hneg)
        · rw [proto_setProto] at h0
          rw [← hs_setHs (H.proto w) s.2]
          exact h0
      | EN_SST_DH => exact h.startRspDh _ _ _ (hset _)
      | EN_SST_ECDH => exact h.startRspDh _ _ _ (hset _)
      | other n =>
        simp only [wp_bind, wp_pure]
        exact h.onError _ _ _ (hset _)

theorem Respects.startRsp (h : H.Respects I E G) (body : HandshakeBody) {w : W} (hw : I w)
    (hf : StartRspCompletes H.ext (H.current w) (H.proto w) body → G.finish w)
    (hreload : body.sessionId ≠ 0 → (H.proto w).handshake.hasData = false →
      ∀ g, reloadedConf H.ext (H.current w) body = some g → ∀ w', I w' → H.current w' = H.current w → I (H.setCurrent g w')) :
    wp (dispatchHandshakeStartRsp H body) (fun _ => I) E w := by
  unfold dispatchHandshakeStartRsp
  simp only [wp_bind, wp_get, wp_ite, wp_pure, wp_modify, proto_setProto, setProto_setProto, Bool.not_eq_true]
  refine ⟨fun _ => h.onError _ _ w hw, fun hid => ⟨fun _ => h.quiet hw (.of_eq rfl), fun hdata => ?_⟩⟩
  have hstage := steady_startRspProto (H.proto w) body
  have hstart : I (H.setProto ((H.proto w).startRspProto body) w) := h.quiet hw hstage
  rw [← Proto.startRspProto, wp_followServerConf]
  simp only [current_setProto, proto_setProto]
  have hback := steady_setupHandshake H.ext ((H.proto w).startRspProto body) (confBehind H.ext (H.current w) body)
  set r := ((H.proto w).startRspProto body).setupHandshake H.ext (confBehind H.ext (H.current w) body)
  have hreloaded : I (H.reloaded body (H.setProto ((H.proto w).startRspProto body) w)) := by
    refine reload_keeps hstart fun g hg => ?_
    rw [current_setProto] at hg
    exact hreload hid hdata g hg _ hstart (H.current_setProto _ _)
  have hsame : r.2.Steady (H.proto (H.reloaded body (H.setProto ((H.proto w).startRspProto body) w))) := by
    rw [proto_reloaded, proto_setProto]
    exact hback
  have hset := h.quiet hreloaded hsame
  refine ⟨fun _ => hset, fun hpos => h.takeStartRsp body _ hset fun h0 hcase => h.finish hreloaded ?_ hsame⟩
  rw [proto_setProto] at h0 hcase
  exact h.finish_reloaded body (h.finish hw (hf ⟨hid, hdata, Int.not_lt.1 hpos, h0, hcase⟩) hstage)

theorem Respects.reconnReq (h : H.Respects I E G)
    (hJ : H.Resumes I J E G) (body : HandshakeBody) {w : W}
    (hw : I w) (hopen : (H.proto w).flags.closing = false) (hr : G.resume w) :
    wp (dispatchHandshakeReconnReq H body) (fun _ => I) E w := by
  unfold dispatchHandshakeReconnReq
  cases hf : H.reconnectFn with
  | none => exact hw
  | some f =>
    simp only [wp_bind, wp_modify, wp_get, wp_ite, wp_pure]
    have hstage : ∀ hh, ((H.proto w).setHandshake hh).Steady (H.proto w) := fun _ => .of_eq rfl
    refine wp_post (hJ.reconnectFn f hf _ _ (h.quiet hw (hstage _)) ?_ (h.resume hr (hstage _)))
      fun ret w1 ⟨hresumed, hrefused⟩ => ⟨fun hne => ?_, fun heq => ?_⟩
    · rw [proto_setProto]
      exact hopen
    · refine wp_post (h.writeMsg _ w1 (hrefused hne)) fun _ w2 hw2 => ?_
      refine wp_post (h.closeHandshake hw2 ret fun h0 _ => absurd h0 hne) fun _ w3 hw3 => ?_
      exact h.close ret true w3 hw3
    · refine wp_post (hJ.calm.writeMsg _ w1 (hresumed (not_not.1 heq))) fun ret2 w2 hw2 => ?_
      refine wp_post (hJ.ends ret2 hw2) fun _ w3 hw3 => wp_post hw3 fun ret3 w4 hw4 => ?_
      exact ⟨fun _ => h.onError _ _ w4 hw4, fun _ => hw4⟩

theorem Respects.reconnRsp (h : H.Respects I E G) (body : HandshakeBody) {w : W} (hw : I w)
    (hf : body.sessionId ≠ 0 → 0 ≤ ((H.proto w).setupHandshake H.ext (confBehind H.ext (H.current w) body)).1 → G.finish w)
    (hreload : body.sessionId ≠ 0 → ∀ g, reloadedConf H.ext (H.current w) body = some g → I (H.setCurrent g w)) :
    wp (dispatchHandshakeReconnRsp H body) (fun _ => I) E w := by
  unfold dispatchHandshakeReconnRsp
  simp only [wp_bind, wp_get, wp_ite, wp_pure, wp_modify, wp_setupHandshake, wp_followServerConf, proto_setProto,
    setProto_setProto]
  refine ⟨fun _ => wp_post (h.onError _ _ w hw) fun _ w1 hw1 => ?_, fun hid => ?_⟩
  · have hset := h.quiet hw1 (steady_setupHandshake H.ext (H.proto w1) (H.proto w1).hs.sharedConf)
    exact h.closeHandshake hset _ fun h0 _ => absurd h0 (by decide)
  · have hback := steady_setupHandshake H.ext (H.proto w) (confBehind H.ext (H.current w) body)
    have hreloaded : I (H.reloaded body w) := reload_keeps hw (hreload hid)
    rw [← H.proto_reloaded body w] at hback
    refine ⟨fun _ => ?_, fun hpos => ?_⟩
    · rw [← H.proto_reloaded body w]
      exact h.quiet hreloaded hback
    · rw [← H.proto_reloaded body w]
      have hstage : ∀ id, Proto.Steady { ((H.proto (H.reloaded body w)).setupHandshake H.ext
          (confBehind H.ext (H.current w) body)).2.readHs.writeHs with sessionId := id } (H.proto (H.reloaded body w)) :=
        fun _ => (steady_sessionId _ _).trans ((steady_writeHs _).trans ((steady_readHs _).trans hback))
      refine h.closeHandshake (h.quiet hreloaded (hstage _)) 0 fun _ _ => h.finish hreloaded ?_ (hstage _)
      exact h.finish_reloaded body (hf hid (Int.not_lt.1 hpos))

theorem Respects.readDhPubkey (h : H.Respects I E G) (peer : HandshakeBody) {w : W} (hw : I w)
    (habs : (H.proto w).handshake.hasData = true → peer.cryptParam = none → E .absentField w) :
    wp (AtFrame.readDhPubkey H peer) (fun _ => I) E w := by
  unfold AtFrame.readDhPubkey
  simp only [wp_bind, wp_get, wp_ite, wp_pure, not_not]
  refine ⟨fun _ => h.onError _ _ w hw, fun hdata => ?_⟩
  cases hkey : peer.cryptParam with
  | none => exact habs hdata hkey
  | some key =>
    simp only [wp_bind, wp_ite, wp_pure, wp_modify, proto_setProto, setProto_setProto]
    have hread := steady_dhCall H.ext (H.proto w) (.readPublic key)
    have hcalc := fun d b => (steady_setHs _ b).trans ((steady_dhCall H.ext _ d).trans hread)
    refine ⟨fun _ => h.onError _ _ _ (h.quiet hw hread), fun _ => ?_⟩
    refine ⟨fun _ => h.onError _ _ _ (h.quiet hw (hcalc _ _)), fun _ => ?_⟩
    have hkey := fun d b b' => (steady_setHs _ b').trans (hcalc d b)
    exact ⟨fun _ => h.onError _ _ _ (h.quiet hw (hkey _ _ _)),
      fun _ => h.quiet hw ((steady_writeHs _).trans ((steady_readHs _).trans (hkey _ _ _)))⟩

theorem Calm.packVerifyText (h : H.Calm I E) (g : CryptGlobal) : Keeps I E (AtFrame.packVerifyText H g) := by
  intro w hw
  unfold AtFrame.packVerifyText
  simp only [wp_bind, wp_get, wp_ite, wp_pure, wp_modify]
  have hrest : ∀ (r : ℤ × Bytes) w', I w' → (r.2 = [] →
      wp (AtFrame.encryptData H (H.proto w').hs g.conf.defaultKey) (fun _ => I) E w') ∧ (¬ r.2 = [] → I w') :=
    fun r w' hw' => ⟨fun _ => h.encryptData _ _ w' hw', fun _ => hw'⟩
  have hseed : I (H.setProto { H.proto w with seed := (H.proto w).seed + 1 } w) := h.quiet hw (.of_eq rfl)
  cases H.ext.random (H.proto w).seed ((H.proto w).hs.cipher.info.keyBits / 8) with
  | ok text =>
    simp only [wp_bind, wp_modify, wp_pure]
    exact wp_post (h.encryptData _ _ _ hseed) fun r w' hw' => hrest r _ (h.quiet hw' (.of_eq rfl))
  | error res =>
    simp only [wp_bind, wp_modify, wp_pure]
    refine wp_post (h.onError _ _ _ hseed) fun r w' hw' => ⟨fun _ => ?_, fun hc => absurd trivial hc⟩
    exact h.encryptData _ _ _ (h.quiet hw' (.of_eq rfl))

theorem Respects.dhPubkeyReq (h : H.Respects I E G) (peer : HandshakeBody) (nextStep : HandshakeStep) {w : W} (hw : I w)
    (habs : (H.proto w).handshake.switchSecretType = peer.switchType → (H.proto w).hs.sharedConf.isSome →
      (H.proto w).handshake.hasData = true → peer.cryptParam = none → ∀ w', I w' → E .absentField w') :
    wp (dispatchHandshakeDhPubkeyReq H peer nextStep) (fun _ => I) E w := by
  unfold dispatchHandshakeDhPubkeyReq
  simp only [wp_bind, wp_get]
  split
  · simp only [wp_bind, wp_pure]
    exact wp_post (h.onError _ _ w hw) fun _ w1 hw1 => h.close _ _ w1 hw1
  · rename_i g hg
    have hg : (H.proto w).handshake.switchSecretType = peer.switchType ∧ (H.proto w).hs.sharedConf = some g := by
      split_ifs at hg with hsw
      exact ⟨hsw, hg⟩
    simp only [wp_bind, wp_modify, wp_get, wp_ite, wp_pure]
    have hstage : ∀ c, ((H.proto w).setHs c).Steady (H.proto w) := fun _ => .of_eq rfl
    refine wp_post (h.readDhPubkey peer (h.quiet hw (hstage _)) fun hdata hnone => ?_) fun ret w1 hw1 => ?_
    · rw [proto_setProto] at hdata
      exact habs hg.1 (by rw [hg.2]; rfl) hdata hnone _ (h.quiet hw (hstage _))
    · exact ⟨fun _ => wp_post (h.packVerifyText g w1 hw1) fun _ w2 hw2 => h.writeMsg _ w2 hw2, fun _ => h.writeMsg _ w1 hw1⟩

theorem Respects.dhPubkeyRsp (h : H.Respects I E G) (body : HandshakeBody) {w : W} (hw : I w)
    (hopen : (H.proto w).flags.closing = false)
    (hf : body.sessionId ≠ 0 → (∃ param ∈ body.cryptParam, (decrypted H.ext (H.proto w).hs param).1 = 0) → G.finish w) :
    wp (dispatchHandshakeDhPubkeyRsp H body) (fun _ => I) E w := by
  unfold dispatchHandshakeDhPubkeyRsp
  split
  · simp only [wp_bind, wp_pure]
    exact h.onError _ _ w hw
  · rename_i param hparam
    have hparam : body.sessionId ≠ 0 ∧ body.cryptParam = some param := by
      split_ifs at hparam with hid
      exact ⟨hid, hparam⟩
    simp only [wp_bind, wp_get, wp_ite, wp_pure, wp_modify]
    by_cases h0 : (decrypted H.ext (H.proto w).hs param).1 = 0
    · have hJ : I w ∧ G.finish w := ⟨hw, hf hparam.1 ⟨param, hparam.2, h0⟩⟩
      refine wp_post (decryptData_result h.finishCalm _ param hJ hopen) fun r w1 hw1 => ?_
      obtain ⟨hw1, hr⟩ := hw1
      refine ⟨fun _ => ?_, fun hne => absurd (hr ▸ h0) hne⟩
      refine wp_post (h.finishCalm.sendVerify _ _ (h.finishCalm.quiet hw1 ((steady_seed _).trans (steady_readHs _)))) fun ret w2 hw2 => ?_
      exact h.closeHandshake hw2.1 ret fun _ _ => hw2.2
    · refine wp_post (decryptData_result h.toCalm _ param hw hopen) fun r w1 hw1 => ?_
      obtain ⟨hw1, hr⟩ := hw1
      exact ⟨fun hz => absurd (hr ▸ hz) h0, fun _ => hw1⟩

theorem steady_directRead (p : Proto) (switchType : SwitchSecret) : (p.directRead switchType).Steady p := by
  unfold Proto.directRead
  split_ifs
  · exact steady_readHs p
  · exact steady_refl p

theorem directRead_handshake (p : Proto) (switchType : SwitchSecret) :
    (p.directRead switchType).handshake = p.handshake ∧ (p.directRead switchType).crypts = p.crypts := by
  unfold Proto.directRead
  split_ifs <;> exact ⟨rfl, rfl⟩

theorem Respects.judgeVerify (h : H.Respects I E G) (body : HandshakeBody) {w : W} (hw : I w)
    (hopen : (H.proto w).flags.closing = false)
    (hf : (H.proto w).handshake.switchSecretType = body.switchType →
      (∃ c ∈ (H.proto w).cryptRead, verifyResult H.ext ((H.proto w).crypts c) body = 0) → G.finish w) :
    wp (AtFrame.judgeVerify H body) (fun _ => I) E w := by
  unfold AtFrame.judgeVerify
  simp only [wp_bind, wp_get]
  split
  · simp only [wp_bind, wp_pure]
    exact wp_post (h.onError _ _ w hw) fun _ w1 hw1 => h.close _ _ w1 hw1
  · rename_i c hc
    have hc : (H.proto w).handshake.switchSecretType = body.switchType ∧ (H.proto w).cryptRead = some c := by
      split_ifs at hc with hsw
      exact ⟨hsw, hc⟩
    simp only [wp_bind, wp_ite, wp_pure]
    by_cases h0 : verifyResult H.ext ((H.proto w).crypts c) body = 0
    · have hJ : I w ∧ G.finish w := ⟨hw, hf hc.1 ⟨c, hc.2, h0⟩⟩
      refine wp_post (checkVerify_result h.finishCalm _ body hJ hopen) fun r w1 ⟨hw1, hr⟩ => ?_
      exact ⟨fun _ => h.closeHandshake hw1.1 0 fun _ _ => hw1.2, fun hne => absurd (hr ▸ h0) hne⟩
    · refine wp_post (checkVerify_result h.toCalm _ body hw hopen) fun r w1 ⟨hw1, hr⟩ => ?_
      refine ⟨fun hz => absurd (hr ▸ hz) h0, fun _ => wp_post (h.onError _ _ w1 hw1) fun _ w2 hw2 => ?_⟩
      exact wp_post (h.closeHandshake hw2 _ fun hz _ => absurd hz (by decide)) fun _ w3 hw3 => h.close _ _ w3 hw3

theorem Respects.verifyNtf (h : H.Respects I E G) (body : HandshakeBody) {w : W} (hw : I w)
    (hopen : (H.proto w).flags.closing = false)
    (hf : (H.proto w).handshake.switchSecretType = body.switchType →
      (∃ c ∈ ((H.proto w).directRead body.switchType).cryptRead, verifyResult H.ext ((H.proto w).crypts c) body = 0) →
        G.finish w) :
    wp (dispatchHandshakeVerifyNtf H body) (fun _ => I) E w := by
  unfold dispatchHandshakeVerifyNtf
  rw [wp_bind, wp_modify]
  have hstage := steady_directRead (H.proto w) body.switchType
  obtain ⟨hhand, hcrypts⟩ := directRead_handshake (H.proto w) body.switchType
  refine h.judgeVerify body (h.quiet hw hstage) ?_ fun hsw hread => h.finish hw (hf ?_ ?_) hstage
  · rw [proto_setProto, hstage.closing, hopen]
  · rwa [proto_setProto, hhand] at hsw
  · rwa [proto_setProto, hcrypts] at hread

/-! ## Every message -/

variable {body : HandshakeBody} {w : W}

/-- **Every handshake step keeps the invariant**, if what the owner requires of the message holds. -/
theorem Respects.dispatchHandshakeStep (h : H.Respects I E G)
    (hJ : H.Resumes I J E G) (hw : I w)
    (hopen : (H.proto w).flags.closing = false) (ok : H.HandshakeOk I E G w body) :
    wp (AtFrame.dispatchHandshakeStep H body) (fun _ => I) E w := by
  have hf := ok.finish
  unfold AtFrame.dispatchHandshakeStep
  unfold Completes at hf
  cases hstep : body.step with
  | EN_HST_START_REQ => exact h.startReq body hw hopen (ok.start hstep)
  | EN_HST_START_RSP =>
    rw [hstep] at hf
    exact h.startRsp body hw hf fun hid hdata g hg => ok.reload g ⟨hid, .inl ⟨hstep, hdata⟩, hg⟩
  | EN_HST_RECONNECT_REQ => exact h.reconnReq hJ body hw hopen (ok.resume hstep)
  | EN_HST_RECONNECT_RSP =>
    rw [hstep] at hf
    exact h.reconnRsp body hw (fun hid hpos => hf ⟨hid, hpos⟩) fun hid g hg => ok.reload g ⟨hid, .inr hstep, hg⟩ w hw rfl
  | EN_HST_DH_PUBKEY_REQ =>
    exact h.dhPubkeyReq body _ hw fun h1 h2 h3 h4 => ok.absent ⟨.inl hstep, h1, h2, h3, h4⟩
  | EN_HST_DH_PUBKEY_RSP =>
    rw [hstep] at hf
    exact h.dhPubkeyRsp body hw hopen fun hid hdec => hf ⟨hid, hdec⟩
  | EN_HST_ECDH_PUBKEY_REQ =>
    exact h.dhPubkeyReq body _ hw fun h1 h2 h3 h4 => ok.absent ⟨.inr hstep, h1, h2, h3, h4⟩
  | EN_HST_ECDH_PUBKEY_RSP =>
    rw [hstep] at hf
    exact h.dhPubkeyRsp body hw hopen fun hid hdec => hf ⟨hid, hdec⟩
  | EN_HST_VERIFY =>
    rw [hstep] at hf
    exact h.verifyNtf body hw hopen fun hsw hread => hf ⟨hsw, hread⟩
  | other n => exact hw

theorem Respects.dispatchHandshake (h : H.Respects I E G)
    (hJ : H.Resumes I J E G) (hw : I w)
    (ok : (H.proto w).flags.closing = false →
      ¬ ((H.proto w).flags.handshakeDone = true ∧ (H.proto w).flags.handshakeUpdate = false) → H.HandshakeOk I E G w body) :
    wp (AtFrame.dispatchHandshake H body) (fun _ => I) E w := by
  unfold AtFrame.dispatchHandshake
  simp only [wp_bind, wp_get, wp_ite, wp_pure, Bool.not_eq_true]
  refine ⟨fun _ => hw, fun hopen => ⟨fun _ => hw, fun hrun => ?_⟩⟩
  refine wp_post (h.dispatchHandshakeStep hJ hw hopen (ok hopen hrun)) fun ret w1 hw1 => ⟨fun hneg => ?_, fun _ => hw1⟩
  exact wp_post (h.closeHandshake hw1 ret fun h0 _ => absurd h0 hneg.ne) fun _ w2 hw2 => h.close _ _ w2 hw2


/-- what an owner requires of a message -/
structure MsgOk (H : Host W) (I : W → Prop) (E : Fault → W → Prop) (G : Guard W) (w : W) (type : MsgType)
    (body : CsBody) : Prop where
  handshake : ∀ b, ReachesHandshake (H.proto w) type body b →
    H.HandshakeOk I E G (H.setProto ((H.proto w).arm type) w) b
  absent : AbsentBody (H.proto w) type body → ∀ w', I w' → E .absentField w'
  message : ∀ f ∈ H.messageFn, ∀ out len, (H.proto w).delivered H.ext type body = some (out, len) → I w →
    (H.proto w).flags.closing = false → wp (f out len) (fun _ => I) E w

/-- what is decrypted on an object that is open leaves everything as it is -/
theorem Calm.decryptData_open (h : H.Calm I E) (c : CryptSession) (input : Bytes) {w : W} (hw : I w)
    (hopen : (H.proto w).flags.closing = false) :
    wp (AtFrame.decryptData H c input) (fun r w' => I w' ∧ (r.1 = 0 → w' = w ∧ r = decrypted H.ext c input)) E w := by
  unfold AtFrame.decryptData decrypted
  simp only [wp_bind, wp_get, wp_ite, wp_pure, Bool.not_eq_true]
  refine ⟨fun hc => absurd (hopen.symm.trans hc) Bool.false_ne_true, fun _ => ⟨fun hinit => ?_, fun hinit => ?_⟩⟩
  · exact ⟨hw, fun h0 => absurd h0 (by decide)⟩
  rw [if_neg hinit]
  refine ⟨fun hnil => ⟨hw, fun h0 => absurd h0 (by decide)⟩, fun hnil => ?_⟩
  rw [if_neg hnil]
  refine ⟨fun htype => ⟨hw, fun _ => ⟨trivial, (if_pos htype).symm⟩⟩, fun htype => ?_⟩
  rw [if_neg htype]
  cases H.ext.decrypt c.cipher input with
  | ok out => exact ⟨hw, fun _ => ⟨rfl, rfl⟩⟩
  | error res =>
    simp only [wp_bind, wp_pure]
    exact wp_post (h.onError _ _ w hw) fun _ w' hw' => ⟨hw', fun h0 => absurd h0 (by decide)⟩

theorem delivered_post {ext : Ext} {p : Proto} {post : PostBody} {data out : Bytes} {c : ℕ}
    (hdone : p.flags.handshakeDone = true) (hread : p.cryptRead = some c) (hdata : post.data = some data)
    (hout : decrypted ext (p.crypts c) data = (0, out)) :
    p.delivered ext .EN_MTT_POST (.post (some post)) = some (out, post.length) := by
  obtain ⟨length, data'⟩ := post
  obtain rfl : data' = some data := hdata
  simp only [Proto.delivered, hdone, hread, hout, if_true]

/-- the arm of `dispatch_post` behind the decryption: a message that could be read is passed on, else the link closes -/
theorem Respects.passPost (h : H.Respects I E G) {length : ℕ} {r : ℤ × Bytes} {w' : W} (hw' : I w')
    (hmessage : r.1 = 0 → ∀ f ∈ H.messageFn, wp (f r.2 length) (fun _ => I) E w') :
    (r.1 = 0 → wp (match H.messageFn with
        | none => return ()
        | some f => do
          let _ ← f r.2 length
          return ()) (fun _ => I) E w') ∧
      (¬ r.1 = 0 → wp (AtFrame.close H EN_CRT_INVALID_DATA false) (fun _ => I) E w') := by
  refine ⟨fun h0 => ?_, fun _ => h.close _ _ w' hw'⟩
  cases hf : H.messageFn with
  | none => exact hw'
  | some f => exact (wp_bind _ _).2 (hmessage h0 f hf)

theorem Respects.dispatchPost (h : H.Respects I E G) (b : Option PostBody) (hw : I w) (hopen : (H.proto w).flags.closing = false)
    (hmessage : ∀ f ∈ H.messageFn, ∀ out len, (H.proto w).delivered H.ext .EN_MTT_POST (.post b) = some (out, len) →
      wp (f out len) (fun _ => I) E w)
    (habs : (H.proto w).flags.handshakeDone = true → (H.proto w).cryptRead.isSome →
      (b = none ∨ ∃ post ∈ b, post.data = none) → E .absentField w) :
    wp (AtFrame.dispatchPost H b) (fun _ => I) E w := by
  unfold AtFrame.dispatchPost
  simp only [wp_bind, wp_get, wp_ite, wp_pure, not_or, not_not]
  refine ⟨fun _ => h.close _ _ w hw, fun hopened => ?_⟩
  obtain ⟨hdone, hread⟩ := hopened
  have hread : (H.proto w).cryptRead.isSome := Option.isSome_iff_ne_none.2 (by simpa using hread)
  cases b with
  | none => exact habs hdone hread (.inl rfl)
  | some post =>
    cases hdata : post.data with
    | none =>
      simp only [hdata]
      exact habs hdone hread (.inr ⟨post, rfl, hdata⟩)
    | some data =>
      obtain ⟨c, hc⟩ := Option.isSome_iff_exists.1 hread
      simp only [hdata, wp_bind, wp_ite, wp_pure]
      -- what comes out of the decryption may be passed on
      have hpass : ∀ (r : ℤ × Bytes) w', (r.1 = 0 → w' = w ∧ r = decrypted H.ext ((H.proto w).crypts c) data) →
          r.1 = 0 → ∀ f ∈ H.messageFn, wp (f r.2 post.length) (fun _ => I) E w' := by
        intro r w' hr h0 f hf
        obtain ⟨rfl, hres⟩ := hr h0
        refine hmessage f hf _ _ (delivered_post hdone hc hdata ?_)
        rw [← hres, ← h0]
      unfold AtFrame.decodePost
      simp only [wp_bind, wp_get, wp_ite, wp_pure, hc]
      refine ⟨fun _ => h.passPost hw (hpass (EN_ECT_CLOSING, data) w fun h0 => absurd h0 (show EN_ECT_CLOSING ≠ 0 by decide)),
        fun _ => ?_⟩
      refine wp_post (h.decryptData_open _ _ hw hopen) fun r w' hdecrypt => ?_
      obtain ⟨hw', hr⟩ := hdecrypt
      refine ⟨fun hneg => ?_, fun _ => h.passPost hw' (hpass r w' hr)⟩
      exact h.passPost hw' (hpass (r.1, data) w' fun h0 => absurd h0 hneg.ne)

theorem steady_arm (p : Proto) (type : MsgType) : (p.arm type).Steady p := by
  unfold Proto.arm
  split_ifs <;> exact .of_eq rfl

/-- the arms of `dispatch_data` that hand a body to `dispatch_handshake` -/
theorem Respects.dispatchArmed (h : H.Respects I E G)
    (hJ : H.Resumes I J E G) (hw : I w) {type : MsgType}
    (htype : type = .EN_MTT_HANDSHAKE ∨ type = .EN_MTT_POST_KEY_SYN ∨ type = .EN_MTT_POST_KEY_ACK)
    (b : Option HandshakeBody) (ok : H.MsgOk I E G w type (.handshake b)) :
    wp (match b with
      | none => throw .absentField
      | some body => do
        let _ ← AtFrame.dispatchHandshake H body
        return ()) (fun _ => I) E (H.setProto ((H.proto w).arm type) w) := by
  have hset := h.quiet hw (steady_arm (H.proto w) type)
  cases b with
  | none =>
    have habs : AbsentBody (H.proto w) type (.handshake none) := by
      rcases htype with rfl | rfl | rfl <;> trivial
    exact ok.absent habs _ hset
  | some b =>
    refine (wp_bind _ _).2 (h.dispatchHandshake hJ hset fun _ hrun => ?_)
    rw [proto_setProto] at hrun
    exact ok.handshake b ⟨htype, rfl, hrun⟩

/-- **Every message keeps the invariant**, if what the owner requires of it holds. -/
theorem Respects.dispatchMsg (h : H.Respects I E G)
    (hJ : H.Resumes I J E G) (hw : I w) {type : MsgType}
    {body : CsBody} (hopen : (H.proto w).flags.closing = false) (ok : H.MsgOk I E G w type body) :
    wp (AtFrame.dispatchMsg H type body) (fun _ => I) E w := by
  have hclose : ∀ reason kick, wp (AtFrame.close H reason kick >>= fun _ => pure ()) (fun _ => I) E w :=
    fun reason kick => (wp_bind _ _).2 (h.close reason kick w hw)
  unfold AtFrame.dispatchMsg
  split
  · rename_i b
    exact h.dispatchPost b hw hopen (fun f hf out len hout => ok.message f hf out len hout hw hopen)
      fun h1 h2 h3 => ok.absent ⟨h1, h2, h3⟩ w hw
  · exact hclose _ _
  -- the two messages that change a key
  · rename_i b
    exact (wp_bind _ _).2 (h.dispatchArmed hJ hw (.inr (.inl rfl)) b ok)
  · rename_i b
    exact (wp_bind _ _).2 (h.dispatchArmed hJ hw (.inr (.inr rfl)) b ok)
  · exact hclose _ _
  · exact hclose _ _
  · rename_i b
    have harmed := h.dispatchArmed hJ hw (.inl rfl) b ok
    rwa [Proto.arm, if_neg (by decide), setProto_proto] at harmed
  · exact hclose _ _
  · rename_i b
    cases b with
    | none => exact ok.absent trivial w hw
    | some timepoint => exact (wp_bind _ _).2 (h.sendPong timepoint w hw)
  · simp only [wp_bind, Lib.wp_get, wp_modify]
    refine h.quiet hw ?_
    split_ifs <;> exact .of_eq rfl
  · exact hclose _ _
  · exact hclose _ _
  · rename_i b
    cases b with
    | none => exact ok.absent trivial w hw
    | some reason => exact hclose _ _
  · exact hclose _ _
  · exact hw
  · exact hw

/-- the message that `dispatch_data` hands on: the object is not closing, the buffer is verified and has a head -/
def Dispatched (H : Host W) (w : W) (buffer : Bytes) (errcode : ℤ) (type : MsgType) (body : CsBody) : Prop :=
  (H.proto w).flags.closing = false ∧ 0 ≤ errcode ∧ H.ext.verify buffer = some ⟨some type, body⟩

/-- **Every buffer keeps the invariant**, if what the owner requires of the message in it holds. -/
theorem Respects.dispatchData (h : H.Respects I E G)
    (hJ : H.Resumes I J E G) (hw : I w) {buffer : Bytes}
    {errcode : ℤ} (ok : ∀ type body, H.Dispatched w buffer errcode type body → H.MsgOk I E G w type body) :
    wp (AtFrame.dispatchData H buffer errcode) (fun _ => I) E w := by
  unfold AtFrame.dispatchData
  simp only [wp_bind, wp_get, wp_ite, wp_pure, Bool.not_eq_true, not_lt]
  refine ⟨fun _ => hw, fun hopen => ⟨fun _ => hw, fun herr => ?_⟩⟩
  split
  · exact (wp_bind _ _).2 (h.close _ _ w hw)
  · rename_i msg hmsg
    split
    · exact hw
    · rename_i type htype
      refine h.dispatchMsg hJ hw hopen (ok type msg.body ⟨hopen, herr, ?_⟩)
      rw [hmsg, ← htype]

/-- a `read` keeps what every frame keeps -/
theorem Calm.readData (h : H.Calm I E) (hframe : ∀ buffer errcode, Keeps I E (AtFrame.dispatchData H buffer errcode))
    (chunk : Bytes) : Keeps I E (AtFrame.readData H chunk) := by
  intro w hw
  unfold AtFrame.readData
  simp only [wp_bind, wp_get, wp_modify, wp_pure]
  generalize Framing.read H.ext.hash (H.proto w).flags.closing (H.proto w).reader chunk = r
  exact keeps_forM (fun c : Bytes × ℤ => hframe c.1 c.2) r.calls _ (h.quiet hw (.of_eq rfl))

end Host

end AtFrame
