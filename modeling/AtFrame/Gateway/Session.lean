/-
`session` and `session_manager`: closing, limits, notices, activation and reconnecting.

These functions call each other through the protocol object: a close writes a kickoff message, a write may complete at once,
a completed write closes the object, its `close_fn` closes the session. `Reentry` holds the functions that are reached this
way; `reentry` ties them together, `depth` levels deep.
-/
import AtFrame.Gateway.State

namespace AtFrame.Gateway

open AtFrame.Lib

/-- the functions that callbacks and limit checks lead back to -/
structure Reentry where
  /-- `session::close` -/
  close : ℕ → ℤ → Prog Fault World ℤ
  onClose : ℕ → ℤ → Prog Fault World ℤ
  onHandshakeDone : ℕ → ℤ → Prog Fault World ℤ
  onReconnect : ℕ → UInt64 → Prog Fault World ℤ

variable (e : GwEnv) (rec : Reentry)

def Session.setFlags (x : Session) (f : SessionFlags) : Session := { x with flags := f }

def Session.setLimit (x : Session) (l : Limit) : Session := { x with limit := l }

/-! ## Callbacks without re-entry -/

/-- `proto_inner_callback_on_write` -/
def onWrite (s : ℕ) (buffer : Bytes) : Prog Fault World (ℤ × Bool) :=
  if buffer.length < e.offset then throw .assertFail
  else do
    let w ← get
    let ret := e.uvWrite w.writes
    modify fun w => { w with writes := w.writes + 1 }
    -- set before `uv_write` and cleared again when it fails
    modifySess s fun x => x.setFlags { x.flags with writingFd := decide (ret = 0) }
    let x ← getSess s
    return (ret, !x.flags.writingFd)

/-- `send_data` -/
def sendData (sender : Option ℕ) (target id : UInt64) (body : SsBody) : Prog Fault World ℤ := do
  let w ← get
  let ret := e.sendData w.sent.length
  modify fun w => { w with sent := w.sent ++ [⟨sender, id, target, body, ret⟩] }
  return ret

/-- `session_manager::post_data(tid, msg)` -/
def postData (sender : Option ℕ) (target id : UInt64) (body : SsBody) : Prog Fault World ℤ :=
  match e.serialize id body with
  | none => return EN_ECT_BAD_DATA
  | some _ => sendData e sender target id body

/-- `proto_inner_callback_on_message` -/
def onMessage (s : ℕ) (out : Bytes) (len : ℕ) : Prog Fault World ℤ := do
  let x ← getSess s
  postData e (some s) x.router x.id (.post [x.id] out len)

def Session.initNew (x : Session) (id router : UInt64) : Session := { x with id := id, router := router }

/-- the end of `init_new_session` and `init_reconnect`: the key is updated later, and the session is inited -/
def Session.initDone (x : Session) (w : World) : Session :=
  { x with limit := { x.limit with updateHandshakeTimepoint := w.now + w.conf.crypt.updateInterval },
           flags := { x.flags with inited := true } }

/-- `init_new_session` -/
def initNewSession (s : ℕ) (router : UInt64) : Prog Fault World ℤ := do
  record (.initNewSession s)
  let w ← get
  modify fun w => { w with allocated := w.allocated + 1 }
  modifySess s fun x => x.initNew (e.allocate w.allocated) router
  let x ← getSess s
  if x.owner then
    modifySess s fun x => x.initDone w
    return 0
  else throw .nullOwner

/-- `proto_inner_callback_on_new_session` -/
def onNewSession (s : ℕ) : Prog Fault World (ℤ × UInt64) := do
  let w ← get
  let ret ← initNewSession e s w.conf.defaultRouter
  let x ← getSess s
  return (ret, x.id)

/-- the protocol object of a session, with the callbacks that `gateway_module` sets -/
@[reducible] def gwHost (s : ℕ) : Host World where
  proto w := (w.sess s).proto
  setProto p w := w.setSess s { w.sess s with proto := p }
  proto_setProto p w := by rw [World.setSess_sess]
  setProto_setProto p q w := by rw [World.setSess_sess, World.setSess_setSess]
  setProto_proto w := w.setSess_self s
  current w := w.current
  setCurrent g w := { w with current := some g }
  proto_setCurrent _ _ := rfl
  current_setProto _ _ := rfl
  current_setCurrent _ _ := rfl
  ext := e.ext
  stack := e.stack
  now w := w.now * 1000000000
  writeFn := some (onWrite e s)
  messageFn := some (onMessage e s)
  newSessionFn := some fun _ => onNewSession e s
  reconnectFn := some fun id => rec.onReconnect s id
  closeFn := some fun reason => rec.onClose s reason
  onHandshakeDoneFn := some fun status => rec.onHandshakeDone s status
  onHandshakeUpdateFn := some fun _ => return 0
  onErrorFn := some fun _ _ => return ()

/-! ## Limits -/

/-- a limit that is set and exceeded -/
def exceeds (limit counter : ℕ) : Bool := 0 < limit ∧ limit < counter

/-- one `if (check && owner_->get_conf()...) { close(..); }` -/
def limitCheck (s : ℕ) (check : Bool) (exceeded : GwConf → Limit → Bool) : Prog Fault World Unit :=
  if check then do
    let x ← getSess s
    if x.owner then
      let w ← get
      if exceeded w.conf x.limit then
        let _ ← rec.close s EN_CRT_TRAFIC_EXTENDED
        return ()
      else return ()
    else throw .nullOwner
  else return ()

/-- `time_utility::DAY_SECONDS` -/
def daySeconds : ℤ := 86400

/-- `time_utility::MINITE_SECONDS` -/
def minuteSeconds : ℤ := 60

/-- the first and the second `if` of `check_hour_limit`, for each of its flags -/
def hourExceeded (send second : Bool) (c : GwConf) (l : Limit) : Bool :=
  match send, second with
  | false, false => exceeds c.hour.recvBytes l.hour.recvBytes
  | false, true => exceeds c.hour.sendBytes l.hour.sendBytes
  | true, false => exceeds c.hour.recvTimes l.hour.recvTimes
  | true, true => exceeds c.hour.sendTimes l.hour.sendTimes

def checkHourLimit (s : ℕ) (checkRecv checkSend : Bool) : Prog Fault World Unit := do
  record (.check s .hour checkRecv checkSend)
  let w ← get
  let x ← getSess s
  let nowHr := w.now.tdiv daySeconds
  if nowHr ≠ x.limit.hourTimepoint then
    modifySess s fun x => x.setLimit { x.limit with hour := {}, hourTimepoint := nowHr }
  else if ¬ x.owner then return ()
  else if x.flags.closing then return ()
  else
    limitCheck rec s checkRecv (hourExceeded false false)
    limitCheck rec s checkRecv (hourExceeded false true)
    limitCheck rec s checkSend (hourExceeded true false)
    limitCheck rec s checkSend (hourExceeded true true)

/-- one of the four limits of `check_minute_limit` that lead to a close -/
def minuteExceeded (checkRecv checkSend : Bool) (c : GwConf) (l : Limit) : Bool :=
  checkRecv && (exceeds c.minute.recvBytes l.minute.recvBytes || exceeds c.minute.recvTimes l.minute.recvTimes) ||
    checkSend && (exceeds c.minute.sendBytes l.minute.sendBytes || exceeds c.minute.sendTimes l.minute.sendTimes)

/-- the end of `check_minute_limit`: update the key of the session from time to time -/
def updateKey (s : ℕ) : Prog Fault World Unit := do
  let w ← get
  let x ← getSess s
  if x.owner ∧ 0 < w.conf.crypt.updateInterval ∧ x.flags.hasFd ∧ x.limit.updateHandshakeTimepoint < w.now then
    modifySess s fun x =>
      x.setLimit { x.limit with updateHandshakeTimepoint := w.now + w.conf.crypt.updateInterval }
    let _ ← sendKeySyn (gwHost e rec s)
    return ()
  else return ()

def checkMinuteLimit (s : ℕ) (checkRecv checkSend : Bool) : Prog Fault World Unit := do
  record (.check s .minute checkRecv checkSend)
  let w ← get
  let x ← getSess s
  let nowMi := w.now.tdiv minuteSeconds
  if nowMi ≠ x.limit.minuteTimepoint then
    modifySess s fun x => x.setLimit { x.limit with minute := {}, minuteTimepoint := nowMi }
  else if ¬ x.owner then return ()
  else if x.flags.closing then return ()
  else if minuteExceeded checkRecv checkSend w.conf x.limit then
    let _ ← rec.close s EN_CRT_TRAFIC_EXTENDED
    return ()
  else updateKey e rec s

/-- the first and the second `if` of `check_total_limit`, for each of its flags; the first one compares the received bytes
with the limit for sent bytes -/
def totalExceeded (send second : Bool) (c : GwConf) (l : Limit) : Bool :=
  match send, second with
  | false, false => 0 < c.total.recvBytes ∧ c.total.sendBytes < l.total.recvBytes
  | false, true => exceeds c.total.recvTimes l.total.recvTimes
  | true, false => exceeds c.total.sendBytes l.total.sendBytes
  | true, true => exceeds c.total.sendTimes l.total.sendTimes

def checkTotalLimit (s : ℕ) (checkRecv checkSend : Bool) : Prog Fault World Unit := do
  record (.check s .total checkRecv checkSend)
  let x ← getSess s
  if ¬ x.owner then return ()
  else if x.flags.closing then return ()
  else
    limitCheck rec s checkRecv (totalExceeded false false)
    limitCheck rec s checkRecv (totalExceeded false true)
    limitCheck rec s checkSend (totalExceeded true false)
    limitCheck rec s checkSend (totalExceeded true true)

/-- the three checks behind each message from or to a client -/
def checkLimits (s : ℕ) (checkRecv checkSend : Bool) : Prog Fault World Unit := do
  checkHourLimit rec s checkRecv checkSend
  checkMinuteLimit e rec s checkRecv checkSend
  checkTotalLimit rec s checkRecv checkSend

/-! ## Notices to the server -/

/-- `send_to_server(msg, mgr)`; `mgr` is whether a manager was given -/
def sendToServer (s : ℕ) (body : SsBody) (mgr : Bool) : Prog Fault World ℤ := do
  let x ← getSess s
  if x.router = 0 then return EN_ECT_INVALID_ROUTER
  else if ¬ mgr ∧ ¬ x.owner then return EN_ECT_LOST_MANAGER
  else
    match e.serialize x.id body with
    | none => return EN_ECT_BAD_DATA
    | some len =>
      modifySess s fun x => x.setLimit (x.limit.addRecv len)
      let ret ← sendData e (some s) x.router x.id body
      checkLimits e rec s true false
      return ret

def sendNewSession (s : ℕ) : Prog Fault World ℤ := do
  let x ← getSess s
  if x.flags.registered then return 0
  else
    let ret ← sendToServer e rec s (.addSession x.peer) x.owner
    (if ret = 0 then modifySess s fun x => x.setFlags { x.flags with registered := true } else pure ⟨⟩)
    return ret

def sendRemoveSession (s : ℕ) (mgr : Bool) : Prog Fault World ℤ := do
  let x ← getSess s
  if ¬ x.flags.registered then return 0
  else
    let ret ← sendToServer e rec s (.removeSession x.peer) mgr
    (if ret = 0 then modifySess s fun x => x.setFlags { x.flags with registered := false } else pure ⟨⟩)
    return ret

/-! ## Closing a session -/

def Session.loseFd (x : Session) : Session := x.setFlags { x.flags with hasFd := false }

/-- the manager can not be used any more, and the socket is closed when everything is written -/
def Session.dropOwner (x : Session) : Session := { x with owner := false, flags := { x.flags with closingFd := true } }

/-- `uv_shutdown`, when the object is closed -/
def Session.shutdownIfClosed (x : Session) : Session :=
  if x.proto.flags.closed then
    { x with stream := { x.stream with shutdown := true }, shutdowns := x.shutdowns ++ [x.proto.flags] }
  else x

def closeFd (s : ℕ) (reason : ℤ) : Prog Fault World ℤ := do
  let x ← getSess s
  if x.flags.closingFd then return 0
  else if x.flags.hasFd then
    modifySess s Session.loseFd
    let _ ← close (gwHost e rec s) reason true
    modifySess s Session.dropOwner
    modifySess s Session.shutdownIfClosed
    return 0
  else return 0

def closeWithManager (s : ℕ) (reason : ℤ) (mgr : Bool) : Prog Fault World ℤ := do
  let x ← getSess s
  -- the server is told, unless the session goes on or may still do so
  (if x.flags.registered ∧ ¬ x.flags.reconnected ∧ ¬ x.flags.waitReconnect then do
    let _ ← sendRemoveSession e rec s mgr
    return ()
  else return ())
  let x ← getSess s
  if x.flags.closing then return 0
  else
    modifySess s fun x => x.setFlags { x.flags with closing := true }
    closeFd e rec s reason

/-- `session::close` -/
def sessionClose (s : ℕ) (reason : ℤ) : Prog Fault World ℤ := do
  let x ← getSess s
  closeWithManager e rec s reason x.owner

/-! ## The manager -/

/-- `erase(iter)`, for an iterator that was at session `s` -/
def eraseActived (id : UInt64) (s : ℕ) : Prog Fault World Unit := do
  let w ← get
  if w.actived.lookup id = some s then modify fun w => { w with actived := w.actived.erase id }
  else throw .badIterator

def eraseCache (id : UInt64) (s : ℕ) : Prog Fault World Unit := do
  let w ← get
  if w.reconnectCache.lookup id = some s then modify fun w => { w with reconnectCache := w.reconnectCache.erase id }
  else throw .badIterator

/-- "just close fd" of `session_manager::close`: the session waits for a reconnect -/
def waitReconnect (s : ℕ) (reason : ℤ) : Prog Fault World ℤ := do
  modify fun w => { w with reconnectTimeout := w.reconnectTimeout ++ [(w.now + w.conf.reconnectTimeout, s)] }
  modify fun w => { w with reconnectCache := w.reconnectCache.insert (w.sess s).id s }
  modifySess s fun x => x.setFlags { x.flags with waitReconnect := true }
  closeFd e rec s reason

/-- `session_manager::close` for a session that is not active: without a reconnect it leaves the cache -/
def closeCached (id : UInt64) (reason : ℤ) : Prog Fault World ℤ := do
  let w ← get
  match w.reconnectCache.lookup id with
  | none => return EN_ECT_SESSION_NOT_FOUND
  | some s => do
    let _ ← sessionClose e rec s reason
    modifySess s fun x => x.setFlags { x.flags with waitReconnect := false }
    eraseCache id s
    return 0

/-- `session_manager::close` -/
def managerClose (id : UInt64) (reason : ℤ) (allowReconnect : Bool) : Prog Fault World ℤ := do
  record (.managerClose id reason allowReconnect)
  let w ← get
  match w.actived.lookup id with
  | none => if allowReconnect then return EN_ECT_SESSION_NOT_FOUND else closeCached e rec id reason
  | some s => do
    let _ ← (if 0 < w.conf.reconnectTimeout ∧ allowReconnect then waitReconnect e rec s reason
      else sessionClose e rec s reason)
    eraseActived id s
    return 0

/-- `proto_inner_callback_on_close` -/
def onClose (s : ℕ) (reason : ℤ) : Prog Fault World ℤ := do
  let x ← getSess s
  if x.flags.closing then return 0
  else if x.owner then
    let ret ← managerClose e rec x.id reason (reason ≤ EN_CRT_RECONNECT_BOUND)
    if ret < 0 then
      let _ ← sessionClose e rec s reason
      return 0
    else return 0
  else
    let _ ← sessionClose e rec s reason
    return 0

def activeSession (s : ℕ) : Prog Fault World ℤ := do
  record (.activeSession s)
  let w ← get
  (if (w.actived.lookup (w.sess s).id).isSome then do
    let _ ← managerClose e rec (w.sess s).id EN_CRT_KICKOFF false
    return ()
  else return ())
  let ret ← sendNewSession e rec s
  if ret < 0 then return ret
  else
    modify fun w => { w with actived := w.actived.insert (w.sess s).id s }
    return 0

/-- `proto_inner_callback_on_handshake_done` -/
def onHandshakeDone (s : ℕ) (status : ℤ) : Prog Fault World ℤ := do
  record (.handshakeDone s status)
  if status = 0 then
    let res ← activeSession e rec s
    return if res ≠ 0 then -1 else 0
  else return 0

/-- what `init_reconnect` takes over from the old session -/
def Session.takeOver (x old : Session) : Session :=
  { x with id := old.id, router := old.router, limit := old.limit, privateData := old.privateData }

/-- `init_reconnect` -/
def initReconnect (s old : ℕ) : Prog Fault World Unit := do
  record (.initReconnect s old)
  let w ← get
  let o ← getSess old
  modifySess s fun x => x.takeOver o
  let x ← getSess s
  if x.owner then
    modifySess s fun x => x.initDone w
    modifySess s fun x => x.setFlags { x.flags with registered := o.flags.registered }
    modifySess old fun o => o.setFlags { o.flags with reconnected := true, waitReconnect := false }
  else throw .nullOwner

/-- `new_sess.get_protocol_handle()->check_reconnect(..)` against the object of `old` -/
def checkOld (s old : ℕ) : Prog Fault World Bool := do
  let o ← getSess old
  let ok ← checkReconnect (gwHost e rec s) o.proto
  record (.checkReconnect s old ok)
  return ok

/-- the first part of `reconnect`: an old session that is still active is closed if the check allows it; was it checked -/
def closeOldConnection (s : ℕ) (oldId : UInt64) : Prog Fault World Bool := do
  let w ← get
  match w.reconnectCache.lookup oldId, w.actived.lookup oldId with
  | none, some old => do
    let ok ← checkOld e rec s old
    (if ok then do
      let _ ← managerClose e rec oldId EN_CRT_LOGOUT true
      return ()
    else return ())
    return true
  | _, _ => return false

/-- `session_manager::reconnect` -/
def reconnect (s : ℕ) (oldId : UInt64) : Prog Fault World ℤ := do
  record (.reconnect s oldId)
  let checked ← closeOldConnection e rec s oldId
  let w ← get
  match w.reconnectCache.lookup oldId with
  | none => return EN_ECT_SESSION_NOT_FOUND
  | some old => do
    let o ← getSess old
    if o.flags.hasFd then return EN_ECT_ALREADY_HAS_FD
    else if o.flags.reconnected then return EN_ECT_SESSION_NOT_FOUND
    else
      let ok ← (if checked then pure true else checkOld e rec s old)
      if ¬ ok then return EN_ECT_REFUSE_RECONNECT
      else
        initReconnect s old
        let _ ← sessionClose e rec old EN_CRT_LOGOUT
        eraseCache oldId old
        record (.reconnected s oldId)
        return 0

/-- `proto_inner_callback_on_reconnect` -/
def onReconnect (s : ℕ) (oldId : UInt64) : Prog Fault World ℤ := do
  let x ← getSess s
  if x.flags.inited then return -1 else reconnect e rec s oldId

/-- the re-entrant functions, with `n` levels of the stack left -/
def reentry : ℕ → Reentry
  | 0 =>
    { close := fun _ _ => throw .stackOverflow, onClose := fun _ _ => throw .stackOverflow,
      onHandshakeDone := fun _ _ => throw .stackOverflow, onReconnect := fun _ _ => throw .stackOverflow }
  | n + 1 =>
    { close := sessionClose e (reentry n), onClose := onClose e (reentry n),
      onHandshakeDone := onHandshakeDone e (reentry n), onReconnect := onReconnect e (reentry n) }

end AtFrame.Gateway
