/-
The rest of `libatgw_proto_inner_v1` below the dispatch of messages: closing, the encryption of payloads, the `send_*`
functions, the setup and end of a handshake, and `check_reconnect`.

The functions that only change the object's own fields are functions on `Proto`; the others are programs over the world of
their `Host`. `alloc_seq` numbers, which nothing reads back, are left out of the messages.
-/
import AtFrame.Inner.Proto

namespace AtFrame

open AtFrame.Lib

variable {W : Type}

/-! ## Closing -/

def sendKickoff (H : Host W) (reason : ℤ) : Prog Fault W ℤ := do
  let p ← H.get
  if p.flags.closing then return EN_ECT_CLOSING
  else
    match H.writeFn with
    | none => return EN_ECT_MISS_CALLBACKS
    | some _ => writeMsg H ⟨some .EN_MTT_KICKOFF, .kickoff (some reason)⟩

/-- the end of `close`, after the kickoff message -/
def finishClose (H : Host W) : Prog Fault W ℤ := do
  H.modify fun p => p.setFlags { p.flags with closing := true }
  let p ← H.get
  -- wait until the writing is finished
  if ¬ p.flags.writing ∧ ¬ p.flags.closed then
    H.modify fun p => p.setFlags { p.flags with closed := true }
    match H.closeFn with
    | none => return 0
    | some f => f p.closeReason
  else return 0

/-- `close(reason, is_send_kickoff)` -/
def close (H : Host W) (reason : ℤ) (isSendKickoff : Bool) : Prog Fault W ℤ := do
  let p ← H.get
  if p.flags.closing then return 0
  else
    H.modify fun p => { p with closeReason := reason }
    let _ ← (if isSendKickoff then sendKickoff H reason else pure 0)
    finishClose H

/-! ## Payload encryption -/

def encryptData (H : Host W) (c : CryptSession) (input : Bytes) : Prog Fault W (ℤ × Bytes) := do
  let p ← H.get
  if p.flags.closing then return (EN_ECT_CLOSING, [])
  else if ¬ c.isInited then return (EN_ECT_CRYPT_NOT_SUPPORTED, [])
  else if input = [] then return (EN_ECT_PARAM, input)
  else if c.type = [] then return (EN_ECT_SUCCESS, input)
  else
    match H.ext.encrypt c.cipher input with
    | .error res =>
      H.onError res "encrypt data failed"
      return (EN_ECT_CRYPT_OPERATION, [])
    | .ok out => return (EN_ECT_SUCCESS, out)

def decryptData (H : Host W) (c : CryptSession) (input : Bytes) : Prog Fault W (ℤ × Bytes) := do
  let p ← H.get
  if p.flags.closing then return (EN_ECT_CLOSING, [])
  else if ¬ c.isInited then return (EN_ECT_CRYPT_NOT_SUPPORTED, [])
  else if input = [] then return (EN_ECT_PARAM, input)
  else if c.type = [] then return (EN_ECT_SUCCESS, input)
  else
    match H.ext.decrypt c.cipher input with
    | .error res =>
      H.onError res "decrypt data failed"
      return (EN_ECT_CRYPT_OPERATION, [])
    | .ok out => return (EN_ECT_SUCCESS, out)

def encodePost (H : Host W) (input : Bytes) : Prog Fault W (ℤ × Bytes) := do
  let p ← H.get
  if p.flags.closing then return (EN_ECT_CLOSING, input)
  else
    match p.cryptWrite with
    | none => return (EN_ECT_HANDSHAKE, input)
    | some c => encryptData H (p.crypts c) input

def decodePost (H : Host W) (input : Bytes) : Prog Fault W (ℤ × Bytes) := do
  let p ← H.get
  if p.flags.closing then return (EN_ECT_CLOSING, input)
  else
    match p.cryptRead with
    | none => return (EN_ECT_HANDSHAKE, input)
    | some c => do
      let (ret, out) ← decryptData H (p.crypts c) input
      if ret < 0 then return (ret, input) else return (ret, out)

/-! ## Messages sent in a session -/

/-- `send_post(msg_type, buffer, len)` -/
def sendPost (H : Host W) (msgType : MsgType) (buffer : Bytes) : Prog Fault W ℤ := do
  let p ← H.get
  if p.flags.closing then return EN_ECT_CLOSING
  else if H.writeFn.isNone ∨ p.cryptWrite.isNone then return EN_ECT_MISS_CALLBACKS
  else
    let (res, out) ← encodePost H buffer
    if res ≠ 0 then return res
    else writeMsg H ⟨some msgType, .post (some ⟨buffer.length, some out⟩)⟩

/-- `write` of `proto_base` -/
def write (H : Host W) (buffer : Bytes) : Prog Fault W ℤ := sendPost H .EN_MTT_POST buffer

def sendPing (H : Host W) : Prog Fault W ℤ := do
  let p ← H.get
  if p.flags.closing then return EN_ECT_CLOSING
  else if H.writeFn.isNone then return EN_ECT_MISS_CALLBACKS
  else
    let w ← get
    H.modify fun p => { p with lastPing := H.now w }
    writeMsg H ⟨some .EN_MTT_PING, .ping (some (H.now w))⟩

def sendPong (H : Host W) (tp : ℤ) : Prog Fault W ℤ := do
  let p ← H.get
  if p.flags.closing then return EN_ECT_CLOSING
  else if H.writeFn.isNone then return EN_ECT_MISS_CALLBACKS
  else writeMsg H ⟨some .EN_MTT_PONG, .ping (some tp)⟩

def sendVerify (H : Host W) (buf : Bytes) : Prog Fault W ℤ := do
  let p ← H.get
  if p.flags.closing then return EN_ECT_CLOSING
  else
    match H.writeFn, p.cryptWrite with
    | some _, some c => do
      let (ret, outbuf) ← (if buf = [] then pure (0, []) else encryptData H (p.crypts c) buf)
      let q ← H.get
      writeMsg H (handshakeMsg .EN_MTT_HANDSHAKE
        { sessionId := if ret = 0 then p.sessionId else 0, step := .EN_HST_VERIFY,
          switchType := q.handshake.switchSecretType, cryptType := some [],
          cryptParam := some (if ret = 0 then outbuf else []) })
    | _, _ => return EN_ECT_MISS_CALLBACKS

/-! ## Setup and end of a handshake -/

/-- `setup_handshake` -/
def Proto.setupHandshake (ext : Ext) (p : Proto) (sharedConf : Option CryptGlobal) : ℤ × Proto :=
  if p.handshake.hasData then (0, p)
  else
    let p := p.setHs { p.hs with sharedConf := sharedConf }
    match sharedConf with
    | none => (0, p)
    | some g =>
      if g.conf.type = [] then (0, p)
      else
        let p := p.setHandshake { p.handshake with switchSecretType := g.conf.switchSecretType }
        -- ready to update the handshake
        let ready (p : Proto) : Proto :=
          (p.setHandshake { p.handshake with hasData := true }).setFlags { p.flags with handshakeUpdate := true }
        match g.conf.switchSecretType with
        | .EN_SST_DH | .EN_SST_ECDH => (0, ready (p.dhCall ext (.init g.sharedDhContext)).2)
        | .EN_SST_DIRECT => (0, ready p)
        | .other _ => (EN_ECT_CRYPT_NOT_SUPPORTED, p)

def setupHandshake (H : Host W) (sharedConf : Option CryptGlobal) : Prog Fault W ℤ := do
  let p ← H.get
  let (ret, p') := p.setupHandshake H.ext sharedConf
  H.modify fun _ => p'
  return ret

/-- `proto_base::handshake_done` -/
def handshakeDone (H : Host W) (status : ℤ) : Prog Fault W ℤ := do
  let p ← H.get
  if p.flags.handshakeDone ∧ ¬ p.flags.handshakeUpdate then return EN_ECT_HANDSHAKE
  else
    H.modify fun p => p.setFlags { p.flags with handshakeDone := true, handshakeUpdate := false }
    match (if p.flags.handshakeDone then none else H.onHandshakeDoneFn) with
    | some f => do
      let _ ← f status
      return 0
    | none =>
      match H.onHandshakeUpdateFn with
      | some f => do
        let _ ← f status
        return 0
      | none => return 0

/-- what `close_handshake` does to the object before `handshake_done`: the status to report and the new object -/
def Proto.closeHandshake (p : Proto) (status : ℤ) : ℤ × Proto :=
  let p := p.setHs { p.hs with param := [] }
  if ¬ p.handshake.hasData then (status, p)
  else
    match p.handshake.switchSecretType with
    | .EN_SST_DH | .EN_SST_ECDH => (status, p.setHandshake { p.handshake with hasData := false, dhCtx := [] })
    | .EN_SST_DIRECT => (status, p.setHandshake { p.handshake with hasData := false })
    | .other _ => (EN_ECT_CRYPT_NOT_SUPPORTED, p.setHandshake { p.handshake with hasData := false })

def closeHandshake (H : Host W) (status : ℤ) : Prog Fault W Unit := do
  let p ← H.get
  let (status', p') := p.closeHandshake status
  H.modify fun _ => p'
  let _ ← handshakeDone H status'
  return ()

/-! ## The messages of a handshake -/

/-- `pack_handshake_start_rsp` for a direct switch of the key: the new secret is sent along -/
def packStartRspDirect (H : Host W) (sessId : UInt64) (cryptType : Bytes) : Prog Fault W HandshakeBody := do
  let p ← H.get
  let (ret, libres, c) := p.hs.generateSecret H.ext p.seed
  H.modify fun p => { p.setHs c with seed := p.seed + 1 }
  (if ret < 0 then H.onError libres "generate secret failed" else pure ())
  H.modify Proto.writeHs
  return { sessionId := sessId, step := .EN_HST_START_RSP, switchType := .EN_SST_DIRECT, cryptType := some cryptType,
           cryptParam := some c.secret }

/-- `pack_handshake_start_rsp` for a DH switch of the key: the parameters are sent along -/
def packStartRspDh (H : Host W) (sessId : UInt64) (cryptType : Bytes) : Prog Fault W (Except ℤ HandshakeBody) := do
  let p ← H.get
  if ¬ p.handshake.hasData then
    H.onError EN_ECT_HANDSHAKE "DH not loaded"
    return .error EN_ECT_HANDSHAKE
  else
    let ((res, param), p') := p.dhCall H.ext (.makeParams p.seed)
    H.modify fun _ => p'.setHs { p'.hs with param := param }
    if res ≠ 0 then
      H.onError res "DH generate check public key failed"
      return .error EN_ECT_CRYPT_OPERATION
    else
      return .ok { sessionId := sessId, step := .EN_HST_START_RSP, switchType := p'.handshake.switchSecretType,
                   cryptType := some cryptType, cryptParam := some param }

/-- `pack_handshake_start_rsp`: the body, or the negative result it leaves the builder without a use for -/
def packHandshakeStartRsp (H : Host W) (sessId : UInt64) (cryptType : Bytes) :
    Prog Fault W (Except ℤ HandshakeBody) := do
  let p ← H.get
  let (ret, c) := p.hs.setup H.ext cryptType
  H.modify fun p => p.setHs c
  if sessId = 0 ∨ c.sharedConf.isNone ∨ cryptType = [] ∨ ret < 0 then
    -- no encryption
    H.modify fun p => p.readHs.writeHs
    closeHandshake H ret
    if ret < 0 then return .error ret
    else
      return .ok { sessionId := sessId, step := .EN_HST_START_RSP, switchType := .EN_SST_DIRECT,
                   cryptType := some cryptType, cryptParam := some [] }
  else
    H.modify fun p => p.setHs { p.hs with param := [] }
    match p.handshake.switchSecretType with
    | .EN_SST_DIRECT => do
      let body ← packStartRspDirect H sessId cryptType
      return .ok body
    | .EN_SST_DH | .EN_SST_ECDH => packStartRspDh H sessId cryptType
    | .other _ =>
      H.onError EN_ECT_CRYPT_NOT_SUPPORTED "Unknown switch type"
      return .error EN_ECT_CRYPT_NOT_SUPPORTED

/-- the end of `dispatch_handshake_start_req` and of `send_key_syn`: pack the start response and send it -/
def sendStartRsp (H : Host W) (msgType : MsgType) (sessId : UInt64) (cryptType : Bytes) : Prog Fault W ℤ := do
  let body ← packHandshakeStartRsp H sessId cryptType
  match body with
  | .error ret =>
    let _ ← handshakeDone H ret
    return ret
  | .ok body =>
    let ret ← writeMsg H (handshakeMsg msgType body)
    let _ ← (if ret < 0 then handshakeDone H ret else pure 0)
    return ret

/-- `send_key_syn`, which is what `handshake_update` does -/
def sendKeySyn (H : Host W) : Prog Fault W ℤ := do
  let p ← H.get
  if p.flags.closing then return EN_ECT_CLOSING
  else if p.hs.type = [] then return 0
  else if H.writeFn.isNone ∨ p.cryptWrite.isNone then return EN_ECT_MISS_CALLBACKS
  -- if a handshake is running, do not start it again
  else if p.handshake.hasData then return 0
  else
    H.modify Proto.newHs
    let globalCfg ← H.getCurrent
    let ret ← setupHandshake H globalCfg
    if ret < 0 then return ret
    else
      match globalCfg with
      | none => return ret
      | some g =>
        if g.conf.clientMode then return ret
        else
          let q ← H.get
          sendStartRsp H .EN_MTT_POST_KEY_SYN q.sessionId p.hs.type

/-! ## Reconnecting -/

/-- `check_reconnect` up to the decision; `other` is the object of the old session -/
def checkReconnectSecret (H : Host W) (otherCrypt : CryptSession) : Prog Fault W Bool := do
  let p ← H.get
  match p.handshake.extData with
  | none => return false
  | some body =>
    let handshakeSecret := body.cryptParam.getD []
    let cryptType := body.cryptType.getD []
    -- check crypt type and keybits
    if cryptType ≠ otherCrypt.type then return false
    else
      let (res, c) := p.hs.setup H.ext cryptType
      H.modify fun p => p.setHs c
      if res < 0 then
        H.onError res "reconnect to old session failed on setup type."
        return false
      else if cryptType = [] then return true
      else
        let (res, _, c) := c.swapSecret H.ext otherCrypt.secret
        H.modify fun p => p.setHs c
        if res < 0 then
          H.onError res "reconnect to old session failed on setup secret."
          return false
        else
          let (ret, outbuf) ← decryptData H c handshakeSecret
          -- decrypting adds padding, so the secret may be followed by more
          return ret = 0 ∧ c.secret.length ≤ outbuf.length ∧ outbuf.take c.secret.length = c.secret

/-- the `crypt_session_t` of the old session that a reconnect is checked against -/
def Proto.reconnectCrypt (other : Proto) : CryptSession :=
  match other.cryptRead with
  | some c => other.crypts c
  | none => other.hs

/-- `check_reconnect` -/
def checkReconnect (H : Host W) (other : Proto) : Prog Fault W Bool := do
  let p ← H.get
  if p.flags.closing then return false
  else
    let ret ← checkReconnectSecret H other.reconnectCrypt
    if ret then
      H.modify fun p => { p with sessionId := other.sessionId }
      let _ ← setupHandshake H other.reconnectCrypt.sharedConf
      H.modify fun p => p.readHs.writeHs
      return true
    else return false

end AtFrame
