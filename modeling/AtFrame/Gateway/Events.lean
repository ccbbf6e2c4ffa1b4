/-
The events of the gateway: what libuv, the servers, the operator and the clock do to it, and its runs.

An event that cannot happen in a state (data from a handle that is not read, the completion of a write that was never
started) does nothing there, so a run is any list of events.
-/
import AtFrame.Gateway.Session

namespace AtFrame.Gateway

open AtFrame.Lib

variable (e : GwEnv) (rec : Reentry)

/-! ## Accepting -/

/-- `session::create(mgr, proto)`: a new session that has taken the object -/
def newSession (router : UInt64) (proto : Proto) : Prog Fault World ℕ := do
  let w ← get
  modify fun w => { w.setSess w.count (Session.create router proto) with count := w.count + 1 }
  return w.count

/-- `on_evt_accept_tcp` up to `accept_tcp`: a new session with its protocol object -/
def createSession (seed : ℕ) : Prog Fault World ℕ := do
  let w ← get
  newSession w.conf.defaultRouter (Proto.fresh e.offset msgLimit 2 w.conf.sendBufferSize 0 seed)

/-- `accept_tcp`, for the results of `uv_tcp_init` and `uv_accept` -/
def acceptSocket (s : ℕ) (peer : Peer) (initRes acceptRes : ℤ) : Prog Fault World ℤ :=
  if initRes ≠ 0 then return EN_ECT_NETWORK
  else do
    modifySess s fun x => x.setFlags { x.flags with hasFd := true }
    if acceptRes ≠ 0 then return EN_ECT_NETWORK
    else
      modifySess s fun x => { x with peer := peer }
      return 0

/-- `max_client_number` is reached -/
def World.full (w : World) : Bool :=
  0 < w.conf.maxClientNumber ∧ w.conf.maxClientNumber ≤ w.reconnectCache.entries.length + w.actived.entries.length

/-- `on_evt_accept_tcp` and `on_evt_accept_pipe` from `accept_tcp` or `accept_pipe` on -/
def acceptSession (s : ℕ) (peer : Peer) (initRes acceptRes : ℤ) : Prog Fault World Unit := do
  let res ← acceptSocket s peer initRes acceptRes
  let w ← get
  if res ≠ 0 ∨ w.full then
    record (.refuse s)
    let _ ← sessionClose e rec s EN_CRT_SERVER_BUSY
    return ()
  else
    modifySess s fun x => { x with stream := { x.stream with reading := true } }
    let idle := if 0 < w.conf.firstIdleTimeout then w.conf.firstIdleTimeout else 1
    modify fun w => { w with firstIdle := w.firstIdle ++ [(w.now + idle, s)] }

/-- `on_evt_accept_tcp` -/
def acceptTcp (seed : ℕ) (peer : Peer) (initRes acceptRes : ℤ) : Prog Fault World Unit := do
  let s ← createSession e seed
  acceptSession e rec s peer initRes acceptRes

/-- `on_evt_accept_pipe`: `session::create` takes the object out of `proto`, and the next line calls it -/
def acceptPipe (seed : ℕ) : Prog Fault World Unit := do
  let _ ← createSession e seed
  throw .nullProto

/-! ## Reading and writing -/

/-- `on_alloc_read`: the length of the buffer, 0 where there is none -/
def allocRead (s : ℕ) : Prog Fault World ℕ := do
  record (.allocRead s)
  let x ← getSess s
  match Framing.allocRecvBuffer x.proto.flags.closing x.proto.reader with
  | none => throw .assertFail
  | some 0 => do
    let _ ← closeFd e rec s EN_CRT_INVALID_DATA
    return 0
  | some (n + 1) => return n + 1

/-- a frame that was cut out of the stream -/
def frame (s : ℕ) (buffer : Bytes) (errcode : ℤ) : Prog Fault World Unit := do
  record (.frame s buffer errcode)
  dispatchData (gwHost e rec s) buffer errcode

/-- `on_read` -/
def onRead (s : ℕ) (chunk : Bytes) : Prog Fault World Unit := do
  let x ← getSess s
  let r := Framing.read e.ext.hash x.proto.flags.closing x.proto.reader chunk
  modifySess s fun x => { x with proto := { x.proto with reader := r.reader } }
  r.calls.forM fun c => frame e rec s c.1 c.2
  if r.errcode < 0 then
    record (.readError s)
    let _ ← sessionClose e rec s EN_CRT_INVALID_DATA
    return ()
  else return ()

def UV_EAGAIN : ℤ := -11
def UV_EAI_AGAIN : ℤ := -3001
def UV_EINTR : ℤ := -4
def UV_ENOBUFS : ℤ := -105

/-- what libuv reports to the read callback: an error (or 0) or data -/
abbrev ReadData := Except ℤ Bytes

/-- `proto_inner_callback_on_read_data` -/
def onReadData (s : ℕ) (data : ReadData) : Prog Fault World Unit := do
  let x ← getSess s
  if x.flags.closing then return ()
  else if ¬ x.owner then return ()
  else
    match data with
    | .error nread =>
      if nread = 0 ∨ nread = UV_EAGAIN ∨ nread = UV_EAI_AGAIN ∨ nread = UV_EINTR then return ()
      else
        let _ ← managerClose e rec x.id EN_CRT_RESET true
        return ()
    | .ok chunk => onRead e rec s chunk

/-- one round of libuv on a handle that is read: ask for a buffer, read into it, report -/
def uvRead (s : ℕ) (data : ReadData) : Prog Fault World Unit := do
  let x ← getSess s
  if ¬ x.stream.reading then return ()
  else
    let n ← allocRead e rec s
    if n = 0 then onReadData e rec s (.error UV_ENOBUFS)
    else
      match data with
      | .error nread =>
        (if nread < 0 then modifySess s fun x => { x with stream := { x.stream with reading := false } } else pure ⟨⟩)
        onReadData e rec s (.error nread)
      | .ok bytes => onReadData e rec s (if bytes.take n = [] then .error 0 else .ok (bytes.take n))

/-- `proto_inner_callback_on_written_fn` and `on_write_done` -/
def uvWritten (s : ℕ) (status : ℤ) : Prog Fault World Unit := do
  let x ← getSess s
  if ¬ x.flags.writingFd then return ()
  else
    modifySess s fun x => x.setFlags { x.flags with writingFd := false }
    let _ ← writeDone (gwHost e rec s) e.stack status
    modifySess s fun x => if x.flags.closingFd then x.shutdownIfClosed else x

/-- `on_evt_shutdown` -/
def uvShutdown (s : ℕ) : Prog Fault World Unit :=
  modifySess s fun x => if x.stream.shutdown then { x with stream := { closing := true } } else x

/-- `on_evt_closed` -/
def uvClosed (s : ℕ) : Prog Fault World Unit :=
  modifySess s fun x =>
    if x.stream.closing then { x with stream := {}, flags := { x.flags with closingFd := false } } else x

/-! ## Messages from servers -/

def sendToClient (s : ℕ) (content : Bytes) : Prog Fault World ℤ := do
  let x ← getSess s
  if x.flags.closing then return EN_ECT_CLOSING
  else if ¬ x.flags.hasFd then return EN_ECT_CLOSING
  else
    modifySess s fun x => x.setLimit (x.limit.addSend content.length)
    let ret ← write (gwHost e rec s) content
    checkLimits e rec s false true
    return ret

def pushData (id : UInt64) (content : Bytes) : Prog Fault World ℤ := do
  let w ← get
  match w.actived.lookup id with
  | none => return EN_ECT_SESSION_NOT_FOUND
  | some s => sendToClient e rec s content

/-- a loop over a map; what `f` does may erase entries that come later, but not the one it works on -/
def overMap {β : Type} (map : World → SessionMap) (init : β) (f : β → ℕ → Prog Fault World β) : Prog Fault World β := do
  let w ← get
  (map w).entries.foldlM (fun b entry => do
    let w ← get
    if (map w).lookup entry.1 = some entry.2 then
      let b ← f b entry.2
      let w ← get
      if (map w).lookup entry.1 = some entry.2 then return b else throw .badIterator
    else return b) init

def broadcastData (content : Bytes) : Prog Fault World ℤ :=
  overMap (fun w => w.actived) EN_ECT_SESSION_NOT_FOUND fun ret s => do
    let x ← getSess s
    if x.flags.registered then
      let res ← sendToClient e rec s content
      return if ret ≠ 0 then res else ret
    else return ret

/-- `app_handle_on_recv` for a post: to one session, to all or to several -/
def serverPost (source id : UInt64) (ids : List UInt64) (content : Bytes) : Prog Fault World Unit :=
  if id ≠ 0 ∧ ids = [] then do
    let res ← pushData e rec id content
    -- the session may have expired without a remove
    if res = EN_ECT_SESSION_NOT_FOUND then
      let _ ← postData e none source id (.removeSession {})
      return ()
    else return ()
  else if ids = [] then do
    let _ ← broadcastData e rec content
    return ()
  else ids.forM fun id => do
    let _ ← pushData e rec id content
    return ()

def serverKickoff (id : UInt64) (errorCode : ℤ) : Prog Fault World Unit := do
  let _ ← (if errorCode = 0 then managerClose e rec id EN_CRT_KICKOFF false
    else managerClose e rec id errorCode (0 < errorCode ∧ errorCode < EN_CRT_RECONNECT_BOUND))
  return ()

def setSessionRouter (id router : UInt64) : Prog Fault World ℤ := do
  let w ← get
  match w.actived.lookup id with
  | none => return EN_ECT_SESSION_NOT_FOUND
  | some s => do
    modifySess s fun x => { x with router := router }
    return 0

def serverSetRouter (source id router : UInt64) : Prog Fault World Unit := do
  let res ← setSessionRouter id router
  let _ ← postData e none source id (.setRouterRsp router res)
  return ()

/-! ## Timers and the operator -/

/-- one round of the loop over `reconnect_timeout_` in `tick` -/
def expireReconnect (s : ℕ) : Prog Fault World Unit := do
  record (.expireReconnect s)
  modify fun w => { w with reconnectCache := w.reconnectCache.erase (w.sess s).id }
  -- from here on a remove notice is sent
  modifySess s fun x => x.setFlags { x.flags with waitReconnect := false }
  let _ ← closeWithManager e rec s EN_CRT_LOGOUT true
  modify fun w => { w with reconnectTimeout := w.reconnectTimeout.tail }

/-- one round of the loop over `first_idle_` in `tick` -/
def expireIdle (s : ℕ) : Prog Fault World Unit := do
  let x ← getSess s
  (if ¬ x.flags.registered ∧ ¬ x.flags.closing then do
    record (.expireIdle s)
    let _ ← sessionClose e rec s EN_CRT_FIRST_IDLE
    return ()
  else return ())
  modify fun w => { w with firstIdle := w.firstIdle.tail }

/-- `tick`; entries that are added in a loop stand at the end of its list and are not due -/
def tick : Prog Fault World Unit := do
  let w ← get
  if w.lastTickTime = w.now then return ()
  else
    record .tick
    modify fun w => { w with lastTickTime := w.now }
    (w.reconnectTimeout.takeWhile (·.1 ≤ w.now)).forM fun t => expireReconnect e rec t.2
    let w ← get
    (w.firstIdle.takeWhile (·.1 ≤ w.now)).forM fun t => expireIdle e rec t.2

/-- `reset`, without the listening sockets -/
def reset : Prog Fault World Unit := do
  record .reset
  let closeOne (s : ℕ) : Prog Fault World Unit := do
    let _ ← sessionClose e rec s EN_CRT_SERVER_CLOSED
    return ()
  overMap (fun w => w.actived) () fun _ s => closeOne s
  modify fun w => { w with actived := ∅ }
  let w ← get
  w.firstIdle.forM fun t => closeOne t.2
  modify fun w => { w with firstIdle := [] }
  overMap (fun w => w.reconnectCache) () fun _ s => closeOne s
  record .cleared
  modify fun w => { w with reconnectCache := ∅ }
  let w ← get
  w.reconnectTimeout.forM fun t => closeOne t.2
  modify fun w => { w with reconnectTimeout := [] }

/-- `reload`, with the configuration that it reads -/
def reload (conf : GwConf) : Prog Fault World Unit := do
  modify fun w => { w with conf := conf }
  match globalReload e.ext conf.crypt with
  | none => return ()
  | some g => modify fun w => { w with current := some g }

/-! ## Runs -/

inductive GwEvent where
  | acceptTcp (seed : ℕ) (peer : Peer) (initRes acceptRes : ℤ)
  | acceptPipe (seed : ℕ)
  | uvRead (s : ℕ) (data : ReadData)
  | uvWritten (s : ℕ) (status : ℤ)
  | uvShutdown (s : ℕ)
  | uvClosed (s : ℕ)
  | serverPost (source id : UInt64) (ids : List UInt64) (content : Bytes)
  | serverKickoff (id : UInt64) (errorCode : ℤ)
  | serverSetRouter (source id router : UInt64)
  /-- `cmd_on_kickoff` -/
  | cmdKickoff (id : UInt64) (reason : ℤ)
  /-- `cmd_on_disconnect` -/
  | cmdDisconnect (id : UInt64) (reason : ℤ)
  | tick
  | clock (now : ℤ)
  | reset
  | reload (conf : GwConf)

def gwEvent : GwEvent → Prog Fault World Unit
  | .acceptTcp seed peer initRes acceptRes => acceptTcp e (reentry e e.depth) seed peer initRes acceptRes
  | .acceptPipe seed => acceptPipe e seed
  | .uvRead s data => uvRead e (reentry e e.depth) s data
  | .uvWritten s status => uvWritten e (reentry e e.depth) s status
  | .uvShutdown s => uvShutdown s
  | .uvClosed s => uvClosed s
  | .serverPost source id ids content => serverPost e (reentry e e.depth) source id ids content
  | .serverKickoff id errorCode => serverKickoff e (reentry e e.depth) id errorCode
  | .serverSetRouter source id router => serverSetRouter e source id router
  | .cmdKickoff id reason => do
    let _ ← managerClose e (reentry e e.depth) id reason false
    return ()
  | .cmdDisconnect id reason => do
    let _ ← managerClose e (reentry e e.depth) id reason true
    return ()
  | .tick => tick e (reentry e e.depth)
  | .clock now => modify fun w => { w with now := now }
  | .reset => reset e (reentry e e.depth)
  | .reload conf => reload e conf

def gwRun (events : List GwEvent) : Prog Fault World Unit := events.forM (gwEvent e)

/-- a gateway that was just started -/
def World.start (conf : GwConf) (now : ℤ) (current : Option CryptGlobal) : World where
  conf := conf
  now := now
  current := current
  sess := fun _ => Session.create 0 (Proto.fresh 0 0 0 0 0 0)
  count := 0
  actived := ∅
  reconnectCache := ∅
  firstIdle := []
  reconnectTimeout := []
  lastTickTime := 0
  allocated := 0
  writes := 0
  sent := []
  history := []

end AtFrame.Gateway
