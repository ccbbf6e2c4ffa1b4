/-
Receiving: `dispatch_data` with one handler for each handshake step, and `read` on top of the framing.

A handler reads the fields of a message that the verifier accepted. `Fault.absentField` is a read through a table, string
or vector that the message leaves out, `Fault.nullConf` a read through a configuration that was never loaded.
-/
import AtFrame.Inner.Handshake

namespace AtFrame

open AtFrame.Lib

variable {W : Type}

/-! ## Handshake steps -/

/-- the loop of `dispatch_handshake_start_req` over the types a client offers; `none` is the read through a null
configuration -/
def selectCryptType (globalCfg : Option CryptGlobal) : List Bytes → Option Bytes
  | [] => some []
  | t :: ts =>
    match globalCfg with
    | none => none
    | some g => if (g.checkType t).1 then some (g.checkType t).2 else selectCryptType globalCfg ts

def dispatchHandshakeStartReq (H : Host W) (body : HandshakeBody) : Prog Fault W ℤ := do
  let p ← H.get
  if p.flags.closing then return EN_ECT_CLOSING
  else
    match H.writeFn, H.newSessionFn with
    | some _, some newSessionFn => do
      let globalCfg ← H.getCurrent
      let ret ← setupHandshake H globalCfg
      if ret < 0 then return ret
      else
        let offered := body.cryptType.getD []
        match (if offered = [] then some [] else selectCryptType globalCfg (H.ext.ciphertok offered)) with
        | none => throw .nullConf
        | some cryptType => do
          let p ← H.get
          let (_, sessionId) ← newSessionFn p.sessionId
          H.modify fun p => { p with sessionId := sessionId }
          sendStartRsp H .EN_MTT_HANDSHAKE sessionId cryptType
    | _, _ => return EN_ECT_MISS_CALLBACKS

/-- `check_type` on a configuration that may be missing: does the handshake have to load another one, and the type from
then on -/
def confMismatch (globalCfg : Option CryptGlobal) (cryptType : Bytes) (switchType : SwitchSecret) : Bool × Bytes :=
  match globalCfg with
  | none => (true, cryptType)
  | some g =>
    let r := g.checkType cryptType
    (¬ r.1 ∨ g.conf.switchSecretType ≠ switchType, r.2)

/-- `global_reload`, on the process-wide configuration -/
def globalReloadFn (H : Host W) (conf : CryptConf) : Prog Fault W PUnit :=
  match globalReload H.ext conf with
  | none => pure ⟨⟩
  | some g => modifyThe W (H.setCurrent g)

/-- "check if global configure changed" of `dispatch_handshake_start_rsp` and `dispatch_handshake_reconn_rsp`, and the
`setup_handshake` behind it: its result and the type -/
def followServerConf (H : Host W) (body : HandshakeBody) : Prog Fault W (ℤ × Bytes) := do
  let globalCfg ← H.getCurrent
  let (mismatch, cryptType) := confMismatch globalCfg (body.cryptType.getD []) body.switchType
  (if mismatch then globalReloadFn H (clientConf cryptType body.switchType) else pure ⟨⟩)
  let globalCfg ← H.getCurrent
  let ret ← setupHandshake H globalCfg
  return (ret, cryptType)

/-- the DH part of `pack_handshake_dh_pubkey_req`: read the parameters, make a public key, compute the secret -/
def computeDhSecret (H : Host W) (param : Bytes) : Prog Fault W ℤ := do
  let p ← H.get
  if ¬ p.handshake.hasData then
    H.onError EN_ECT_CRYPT_NOT_SUPPORTED "DH not loaded"
    return EN_ECT_CRYPT_NOT_SUPPORTED
  else
    let ((res, _), p) := p.dhCall H.ext (.readParams param)
    H.modify fun _ => p
    if res ≠ 0 then
      H.onError res "DH read param failed"
      return EN_ECT_CRYPT_NOT_SUPPORTED
    else
      let ((res, pubkey), p) := p.dhCall H.ext (.makePublic p.seed)
      let p := p.setHs { p.hs with param := pubkey }
      H.modify fun _ => p
      if res ≠ 0 then
        H.onError res "DH make public key failed"
        return EN_ECT_CRYPT_NOT_SUPPORTED
      else
        let ((res, secret), p) := p.dhCall H.ext .calcSecret
        let p := p.setHs { p.hs with secret := secret }
        H.modify fun _ => p
        if res ≠ 0 then
          H.onError res "DH compute key failed"
          return EN_ECT_CRYPT_NOT_SUPPORTED
        else
          let (ret, libres, c) := p.hs.swapOwnSecret H.ext
          H.modify fun p => p.setHs c
          if ret < 0 then
            H.onError libres "DH set key failed"
            return 0
          else
            H.modify Proto.writeHs
            return 0

/-- `pack_handshake_dh_pubkey_req` -/
def packHandshakeDhPubkeyReq (H : Host W) (peer : HandshakeBody) (nextStep : HandshakeStep) :
    Prog Fault W (Except ℤ HandshakeBody) := do
  let p ← H.get
  match peer.cryptParam with
  | none => return .error EN_ECT_SESSION_NOT_FOUND
  | some param =>
    if peer.sessionId = 0 ∨ p.hs.sharedConf.isNone then return .error EN_ECT_SESSION_NOT_FOUND
    else
      H.modify fun p => p.setHandshake { p.handshake with switchSecretType := peer.switchType }
      H.modify fun p => p.setHs { p.hs with param := [] }
      let ret ← computeDhSecret H param
      if ret < 0 then return .error ret
      else
        let p ← H.get
        return .ok { sessionId := peer.sessionId, step := nextStep, switchType := p.handshake.switchSecretType,
                     cryptType := some [], cryptParam := some p.hs.param }

/-- the direct switch of `dispatch_handshake_start_rsp`: the server's secret is taken as it is -/
def startRspDirect (H : Host W) (param : Bytes) : Prog Fault W ℤ := do
  let p ← H.get
  let (ret, libres, c) := { p.hs with secret := param }.swapOwnSecret H.ext
  H.modify fun p => p.setHs c
  (if ret < 0 then H.onError libres "set secret failed" else pure ())
  H.modify fun p => p.readHs.writeHs
  closeHandshake H ret
  sendVerify H []

/-- the DH switch of `dispatch_handshake_start_rsp`: answer with a public key -/
def startRspDh (H : Host W) (body : HandshakeBody) (nextStep : HandshakeStep) : Prog Fault W ℤ := do
  let r ← packHandshakeDhPubkeyReq H body nextStep
  match r with
  | .error ret => return ret
  | .ok b => writeMsg H (handshakeMsg .EN_MTT_HANDSHAKE b)

/-- `dispatch_handshake_start_rsp` once the handshake is set up -/
def takeStartRsp (H : Host W) (body : HandshakeBody) (cryptType : Bytes) : Prog Fault W ℤ := do
  let p ← H.get
  let (ret, c) := p.hs.setup H.ext cryptType
  H.modify fun p => p.setHs c
  -- no encryption, or none that is available
  if cryptType = [] ∨ ret < 0 then
    H.modify fun p => p.readHs.writeHs
    closeHandshake H ret
    return ret
  else
    H.modify fun p => p.setHandshake { p.handshake with switchSecretType := body.switchType }
    match body.cryptParam with
    | none =>
      H.onError EN_ECT_HANDSHAKE "has no secret"
      return EN_ECT_HANDSHAKE
    | some param =>
      match body.switchType with
      | .EN_SST_DIRECT => startRspDirect H param
      | .EN_SST_DH => startRspDh H body .EN_HST_DH_PUBKEY_REQ
      | .EN_SST_ECDH => startRspDh H body .EN_HST_ECDH_PUBKEY_REQ
      | .other n =>
        H.onError n "unsupported switch type"
        return EN_ECT_HANDSHAKE

/-- "make a new crypt session for handshake" -/
def Proto.renewHs (p : Proto) : Proto := if p.hs.sharedConf.isSome then p.newHs else p

def dispatchHandshakeStartRsp (H : Host W) (body : HandshakeBody) : Prog Fault W ℤ := do
  -- check if starting the new session succeeded
  if body.sessionId = 0 then
    H.onError EN_ECT_HANDSHAKE "start new session refused."
    return EN_ECT_HANDSHAKE
  else
    H.modify fun p => { p with sessionId := body.sessionId }
    let p ← H.get
    -- a running handshake can not be started again
    if p.handshake.hasData then return EN_ECT_HANDSHAKE
    else
      H.modify Proto.renewHs
      let (ret, cryptType) ← followServerConf H body
      if ret < 0 then return ret else takeStartRsp H body cryptType

def dispatchHandshakeReconnReq (H : Host W) (body : HandshakeBody) : Prog Fault W ℤ :=
  match H.reconnectFn with
  | none => return EN_ECT_MISS_CALLBACKS
  | some reconnectFn => do
    -- assign crypt options
    H.modify fun p => p.setHandshake { p.handshake with extData := some body }
    let ret ← reconnectFn body.sessionId
    let p ← H.get
    let rsp : HandshakeBody :=
      { sessionId := if ret = 0 then p.sessionId else 0, step := .EN_HST_RECONNECT_RSP,
        switchType := p.handshake.switchSecretType, cryptType := some p.hs.type, cryptParam := none }
    if ret ≠ 0 then
      let _ ← writeMsg H (handshakeMsg .EN_MTT_HANDSHAKE rsp)
      closeHandshake H ret
      let _ ← close H ret true
      return ret
    else
      let ret ← writeMsg H (handshakeMsg .EN_MTT_HANDSHAKE rsp)
      closeHandshake H ret
      -- change the key immediately
      let ret ← sendKeySyn H
      (if ret ≠ 0 then H.onError ret "reconnect to old session refused." else pure ())
      return ret

def dispatchHandshakeReconnRsp (H : Host W) (body : HandshakeBody) : Prog Fault W ℤ := do
  if body.sessionId = 0 then
    H.onError EN_ECT_REFUSE_RECONNECT "update handshake failed."
    -- force to trigger handshake done
    let p ← H.get
    let _ ← setupHandshake H p.hs.sharedConf
    closeHandshake H EN_ECT_REFUSE_RECONNECT
    return EN_ECT_HANDSHAKE
  else
    let (ret, _) ← followServerConf H body
    if ret < 0 then return ret
    else
      H.modify fun p => { p.readHs.writeHs with sessionId := body.sessionId }
      closeHandshake H 0
      return 0

/-- the first block of `dispatch_handshake_dh_pubkey_req`: the secret from the peer's public key -/
def readDhPubkey (H : Host W) (peer : HandshakeBody) : Prog Fault W ℤ := do
  let p ← H.get
  if ¬ p.handshake.hasData then
    H.onError EN_ECT_CRYPT_NOT_SUPPORTED "DH not loaded"
    return EN_ECT_CRYPT_NOT_SUPPORTED
  else
    match peer.cryptParam with
    | none => throw .absentField
    | some key =>
      let ((res, _), p) := p.dhCall H.ext (.readPublic key)
      H.modify fun _ => p
      if res ≠ 0 then
        H.onError res "DH read param failed"
        return EN_ECT_CRYPT_NOT_SUPPORTED
      else
        let ((res, secret), p) := p.dhCall H.ext .calcSecret
        let p := p.setHs { p.hs with secret := secret }
        H.modify fun _ => p
        if res ≠ 0 then
          H.onError res "DH compute key failed"
          return EN_ECT_CRYPT_NOT_SUPPORTED
        else
          let (ret, libres, c) := p.hs.swapOwnSecret H.ext
          H.modify fun p => p.setHs c
          if ret < 0 then
            H.onError libres "DH set key failed"
            return 0
          else
            H.modify fun p => p.readHs.writeHs
            return 0

/-- one digit of `util::string::dumphex` -/
def hexDigit (n : UInt8) : UInt8 := if n < 10 then 48 + n else 87 + n

/-- `util::string::dumphex` -/
def dumphex (b : Bytes) : Bytes := b.flatMap fun c => [hexDigit (c / 16), hexDigit (c % 16)]

/-- the verify text of `dispatch_handshake_dh_pubkey_req`, encrypted; it also becomes the `param` of the handshake. Where
no random bytes come the text is memory that was never written, zeros stand for it -/
def packVerifyText (H : Host W) (g : CryptGlobal) : Prog Fault W (ℤ × Bytes) := do
  let p ← H.get
  let secretLen := p.hs.cipher.info.keyBits / 8
  H.modify fun p => { p with seed := p.seed + 1 }
  let (ret, outbuf) ←
    (match H.ext.random p.seed secretLen with
    | .ok text => do
      let r ← encryptData H p.hs (dumphex text)
      H.modify fun p => p.setHs { p.hs with param := dumphex text }
      return r
    | .error res => do
      H.onError res "generate verify text failed"
      H.modify fun p => p.setHs { p.hs with param := List.replicate (2 * secretLen) 0 }
      return (0, []))
  if outbuf = [] then
    let q ← H.get
    encryptData H q.hs g.conf.defaultKey
  else return (ret, outbuf)

def dispatchHandshakeDhPubkeyReq (H : Host W) (peer : HandshakeBody) (nextStep : HandshakeStep) :
    Prog Fault W ℤ := do
  let p ← H.get
  match (if p.handshake.switchSecretType = peer.switchType then p.hs.sharedConf else none) with
  | none =>
    H.onError EN_ECT_HANDSHAKE "crypt information between client and server not matched."
    let _ ← close H EN_ECT_HANDSHAKE true
    return EN_ECT_HANDSHAKE
  | some g =>
    H.modify fun p => p.setHs { p.hs with param := [] }
    let ret ← readDhPubkey H peer
    let (ret, outbuf) ← (if ret = 0 then packVerifyText H g else pure (ret, []))
    let q ← H.get
    writeMsg H (handshakeMsg .EN_MTT_HANDSHAKE
      { sessionId := if ret = 0 then q.sessionId else 0, step := nextStep, switchType := peer.switchType,
        cryptType := some [], cryptParam := some (if ret = 0 then outbuf else []) })

/-- the answer to the verify text: every second byte is the peer's, the others are random -/
def mixVerify (random : Bytes) (outbuf : Bytes) : Bytes :=
  outbuf.mapIdx fun i c => if i % 2 = 1 then c else random.getD i 0

def dispatchHandshakeDhPubkeyRsp (H : Host W) (body : HandshakeBody) : Prog Fault W ℤ := do
  match (if body.sessionId = 0 then none else body.cryptParam) with
  | none =>
    H.onError EN_ECT_HANDSHAKE "DH switch key failed."
    return EN_ECT_HANDSHAKE
  | some param =>
    let p ← H.get
    -- decrypt the default key
    let (ret, outbuf) ← decryptData H p.hs param
    if ret = 0 then
      -- the secret is already set up when the public key request is packed
      H.modify fun p => { p.readHs with seed := p.seed + 1 }
      let q ← H.get
      let random :=
        if q.hs.sharedConf.isSome then
          match H.ext.random p.seed outbuf.length with
          | .ok r => r
          | .error _ => []
        else []
      let ret ← sendVerify H (mixVerify random outbuf)
      closeHandshake H ret
      return ret
    else return ret

/-- the loop of `dispatch_handshake_verify_ntf`: it stops at the first zero byte, and half of the bytes are compared -/
def verifyHalf : ℕ → Bytes → Bytes → Bool
  | i, c :: cs, q :: qs => if c = 0 then true else if i % 2 = 1 ∧ c ≠ q then false else verifyHalf (i + 1) cs qs
  | _, _, _ => true

/-- the check of `dispatch_handshake_verify_ntf` against the text that was sent -/
def checkVerify (H : Host W) (c : CryptSession) (body : HandshakeBody) : Prog Fault W ℤ :=
  match body.cryptParam with
  | none => return 0
  | some param =>
    if c.param ≠ [] ∧ c.param.length ≤ param.length then do
      let (ret, outbuf) ← decryptData H c param
      if ret ≠ 0 then
        H.onError ret "verify crypt information but decode failed."
        return ret
      else if outbuf.length < c.param.length then
        H.onError EN_ECT_HANDSHAKE "verify data length error."
        return EN_ECT_HANDSHAKE
      else return (if verifyHalf 0 outbuf c.param then 0 else EN_ECT_CRYPT_VERIFY)
    else return 0

/-- `dispatch_handshake_verify_ntf` behind the choice of the read handle -/
def judgeVerify (H : Host W) (body : HandshakeBody) : Prog Fault W ℤ := do
  let p ← H.get
  match (if p.handshake.switchSecretType = body.switchType then p.cryptRead else none) with
  | none =>
    H.onError EN_ECT_HANDSHAKE "crypt information between client and server not matched."
    let _ ← close H EN_ECT_HANDSHAKE true
    return EN_ECT_HANDSHAKE
  | some c => do
    let ret ← checkVerify H (p.crypts c) body
    if ret = 0 then
      -- then the read key is updated
      closeHandshake H 0
      return ret
    else
      H.onError EN_ECT_CRYPT_VERIFY "verify failed."
      closeHandshake H EN_ECT_CRYPT_VERIFY
      let _ ← close H EN_CRT_HANDSHAKE true
      return ret

/-- if the switch type is direct, the read handle is set here -/
def Proto.directRead (p : Proto) (switchType : SwitchSecret) : Proto :=
  if switchType = .EN_SST_DIRECT then p.readHs else p

def dispatchHandshakeVerifyNtf (H : Host W) (body : HandshakeBody) : Prog Fault W ℤ := do
  H.modify fun p => p.directRead body.switchType
  judgeVerify H body

/-- the switch of `dispatch_handshake` -/
def dispatchHandshakeStep (H : Host W) (body : HandshakeBody) : Prog Fault W ℤ :=
  match body.step with
  | .EN_HST_START_REQ => dispatchHandshakeStartReq H body
  | .EN_HST_START_RSP => dispatchHandshakeStartRsp H body
  | .EN_HST_RECONNECT_REQ => dispatchHandshakeReconnReq H body
  | .EN_HST_RECONNECT_RSP => dispatchHandshakeReconnRsp H body
  | .EN_HST_DH_PUBKEY_REQ => dispatchHandshakeDhPubkeyReq H body .EN_HST_DH_PUBKEY_RSP
  | .EN_HST_DH_PUBKEY_RSP => dispatchHandshakeDhPubkeyRsp H body
  | .EN_HST_ECDH_PUBKEY_REQ => dispatchHandshakeDhPubkeyReq H body .EN_HST_ECDH_PUBKEY_RSP
  | .EN_HST_ECDH_PUBKEY_RSP => dispatchHandshakeDhPubkeyRsp H body
  | .EN_HST_VERIFY => dispatchHandshakeVerifyNtf H body
  | .other _ => return 0

def dispatchHandshake (H : Host W) (body : HandshakeBody) : Prog Fault W ℤ := do
  let p ← H.get
  if p.flags.closing then return EN_ECT_CLOSING
  else if p.flags.handshakeDone ∧ ¬ p.flags.handshakeUpdate then return EN_ECT_HANDSHAKE
  else
    let ret ← dispatchHandshakeStep H body
    -- a failed handshake closes the connection
    if ret < 0 then
      closeHandshake H ret
      let _ ← close H EN_CRT_HANDSHAKE false
      return ret
    else return ret

/-! ## Messages -/

def dispatchPost (H : Host W) (b : Option PostBody) : Prog Fault W Unit := do
  let p ← H.get
  if ¬ p.flags.handshakeDone ∨ p.cryptRead.isNone then
    let _ ← close H EN_CRT_HANDSHAKE false
    return ()
  else
    match b with
    | none => throw .absentField
    | some body =>
      match body.data with
      | none => throw .absentField
      | some data =>
        let (res, out) ← decodePost H data
        if res = 0 then
          match H.messageFn with
          | none => return ()
          | some f =>
            let _ ← f out body.length
            return ()
        else
          let _ ← close H EN_CRT_INVALID_DATA false
          return ()

/-- "start to update handshake" -/
def Proto.startUpdate (p : Proto) : Proto := p.setFlags { p.flags with handshakeUpdate := true }

/-- `dispatch_data` behind the verifier, for a message of type `type`; `*msg_body` counts as a read -/
def dispatchMsg (H : Host W) (type : MsgType) (body : CsBody) : Prog Fault W Unit :=
  match type, body with
  | .EN_MTT_POST, .post b => dispatchPost H b
  | .EN_MTT_POST, _ => do
    let _ ← close H EN_CRT_INVALID_DATA false
    return ()
  | .EN_MTT_POST_KEY_SYN, .handshake b | .EN_MTT_POST_KEY_ACK, .handshake b => do
    H.modify Proto.startUpdate
    match b with
    | none => throw .absentField
    | some body =>
      let _ ← dispatchHandshake H body
      return ()
  | .EN_MTT_POST_KEY_SYN, _ | .EN_MTT_POST_KEY_ACK, _ => do
    let _ ← close H EN_CRT_INVALID_DATA false
    return ()
  | .EN_MTT_HANDSHAKE, .handshake b =>
    match b with
    | none => throw .absentField
    | some body => do
      let _ ← dispatchHandshake H body
      return ()
  | .EN_MTT_HANDSHAKE, _ => do
    let _ ← close H EN_CRT_INVALID_DATA false
    return ()
  | .EN_MTT_PING, .ping b =>
    match b with
    | none => throw .absentField
    | some timepoint => do
      let _ ← sendPong H timepoint
      return ()
  | .EN_MTT_PONG, .ping _ => do
    let w ← get
    -- `to_time_t` counts whole seconds
    H.modify fun p =>
      if p.lastPing.tdiv 1000000000 ≠ 0 then { p with lastDelta := (H.now w - p.lastPing).tdiv 1000000 } else p
  | .EN_MTT_PING, _ | .EN_MTT_PONG, _ => do
    let _ ← close H EN_CRT_INVALID_DATA true
    return ()
  | .EN_MTT_KICKOFF, .kickoff b =>
    match b with
    | none => throw .absentField
    | some reason => do
      let _ ← close H reason false
      return ()
  | .EN_MTT_KICKOFF, _ => do
    let _ ← close H EN_CRT_INVALID_DATA false
    return ()
  | .EN_MTT_UNKNOWN, _ | .other _, _ => return ()

/-- `dispatch_data` -/
def dispatchData (H : Host W) (buffer : Bytes) (errcode : ℤ) : Prog Fault W Unit := do
  let p ← H.get
  if p.flags.closing then return ()
  else if errcode < 0 then return ()
  else
    match H.ext.verify buffer with
    | none =>
      let _ ← close H EN_CRT_INVALID_DATA true
      return ()
    | some msg =>
      match msg.head with
      | none => return ()
      | some type => dispatchMsg H type msg.body

/-- `read`: the framing hands each frame to `dispatch_data`; the error code it ends with -/
def readData (H : Host W) (chunk : Bytes) : Prog Fault W ℤ := do
  let p ← H.get
  let r := Framing.read H.ext.hash p.flags.closing p.reader chunk
  H.modify fun p => { p with reader := r.reader }
  r.calls.forM fun c => dispatchData H c.1 c.2
  return r.errcode

end AtFrame
