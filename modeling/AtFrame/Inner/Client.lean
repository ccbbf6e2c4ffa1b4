/-
The two entries of a client into the protocol, `start_session` and `reconnect_session`, and the rules for them.
-/
import AtFrame.Inner.DispatchRules

namespace AtFrame

open AtFrame.Lib

variable {W : Type}

/-- `start_session` -/
def startSession (H : Host W) (cryptType : Bytes) : Prog Fault W ℤ := do
  let p ← H.get
  if p.flags.closing then return EN_ECT_CLOSING
  else if p.sessionId ≠ 0 then return EN_ECT_SESSION_ALREADY_EXIST
  else if H.writeFn.isNone then return EN_ECT_MISS_CALLBACKS
  else
    writeMsg H (handshakeMsg .EN_MTT_HANDSHAKE
      { sessionId := 0, step := .EN_HST_START_REQ, switchType := .EN_SST_DIRECT, cryptType := some cryptType,
        cryptParam := some [] })

/-- the crypt session of `reconnect_session` with the old secret set, or an error -/
def CryptSession.resume (ext : Ext) (c : CryptSession) (cryptType secret : Bytes) : ℤ × CryptSession :=
  let (ret, c) := c.setup ext cryptType
  if ret < 0 then (ret, c)
  else if cryptType = [] then (ret, c)
  else
    let (ret, _, c) := c.swapSecret ext secret
    (ret, c)

/-- `reconnect_session` -/
def reconnectSession (H : Host W) (sessId : UInt64) (cryptType secret : Bytes) : Prog Fault W ℤ := do
  let p ← H.get
  if p.flags.closing then return EN_ECT_CLOSING
  else if H.writeFn.isNone then return EN_ECT_MISS_CALLBACKS
  else
    -- encrypt secrets
    let (ret, c) := p.hs.resume H.ext cryptType secret
    H.modify fun p => p.setHs c
    if ret < 0 then return ret
    else
      let (_, secretBuffer) ← encryptData H c secret
      let q ← H.get
      writeMsg H (handshakeMsg .EN_MTT_HANDSHAKE
        { sessionId := sessId, step := .EN_HST_RECONNECT_REQ, switchType := q.handshake.switchSecretType,
          cryptType := some cryptType, cryptParam := some secretBuffer })

namespace Host

variable {H : Host W} {I : W → Prop} {E : Fault → W → Prop}

theorem Calm.startSession (h : H.Calm I E) (cryptType : Bytes) : Keeps I E (AtFrame.startSession H cryptType) := by
  intro w hw
  unfold AtFrame.startSession
  simp only [wp_bind, wp_get, wp_ite, wp_pure]
  exact ⟨fun _ => hw, fun _ => ⟨fun _ => hw, fun _ => ⟨fun _ => hw, fun _ => h.writeMsg _ w hw⟩⟩⟩

theorem Calm.reconnectSession (h : H.Calm I E) (sessId : UInt64) (cryptType secret : Bytes) :
    Keeps I E (AtFrame.reconnectSession H sessId cryptType secret) := by
  intro w hw
  unfold AtFrame.reconnectSession
  simp only [wp_bind, wp_get, wp_modify, wp_ite, wp_pure]
  have hset : ∀ c, I (H.setProto ((H.proto w).setHs c) w) := fun _ => h.quiet hw (.of_eq rfl)
  refine ⟨fun _ => hw, fun _ => ⟨fun _ => hw, fun _ => ⟨fun _ => hset _, fun _ => ?_⟩⟩⟩
  exact wp_post (h.encryptData _ _ _ (hset _)) fun _ w' hw' => h.writeMsg _ w' hw'

end Host

end AtFrame
