/-
The state of the gateway process: its sessions, the maps and timer lists of `session_manager`, its clock, and the notices
it posted to servers.

Sessions are numbered in the order in which they are created and are never freed here, so `shared_ptr` ownership is left
out; the maps and lists hold these numbers. `World.history` is no state of the program: it records the steps that later
statements put conditions on, each with the state before it.

What the process cannot decide is in `GwEnv`: the libraries, the results of the calls into libuv and libatbus, the ids of
`timestamp_id_allocator` (which never gives 0), and how deep callbacks may nest.
-/
import Mathlib.Data.List.AList
import AtFrame.Inner.Dispatch

namespace AtFrame.Gateway

open AtFrame.Lib

/-! ## Sessions -/

/-- the byte and call counters of `limit_t` and `client_limit_t`, for one period -/
structure Traffic where
  recvBytes : ℕ := 0
  sendBytes : ℕ := 0
  recvTimes : ℕ := 0
  sendTimes : ℕ := 0
deriving DecidableEq, Repr

/-- `size_t` addition -/
def addSizeT (a b : ℕ) : ℕ := (a + b) % 2 ^ 64

def Traffic.addRecv (t : Traffic) (len : ℕ) : Traffic :=
  { t with recvBytes := addSizeT t.recvBytes len, recvTimes := addSizeT t.recvTimes 1 }

def Traffic.addSend (t : Traffic) (len : ℕ) : Traffic :=
  { t with sendBytes := addSizeT t.sendBytes len, sendTimes := addSizeT t.sendTimes 1 }

/-- `limit_t` -/
structure Limit where
  total : Traffic := {}
  hour : Traffic := {}
  minute : Traffic := {}
  hourTimepoint : ℤ := 0
  minuteTimepoint : ℤ := 0
  updateHandshakeTimepoint : ℤ := 0
deriving DecidableEq, Repr

def Limit.addRecv (l : Limit) (len : ℕ) : Limit :=
  { l with total := l.total.addRecv len, hour := l.hour.addRecv len, minute := l.minute.addRecv len }

def Limit.addSend (l : Limit) (len : ℕ) : Limit :=
  { l with total := l.total.addSend len, hour := l.hour.addSend len, minute := l.minute.addSend len }

/-- `flag_t` of `session` -/
structure SessionFlags where
  inited : Bool := false
  hasFd : Bool := false
  registered : Bool := false
  reconnected : Bool := false
  waitReconnect : Bool := false
  closing : Bool := false
  closingFd : Bool := false
  writingFd : Bool := false
deriving DecidableEq, Repr

/-- what libuv does with the session's handle -/
structure UvStream where
  reading : Bool := false
  shutdown : Bool := false
  closing : Bool := false
deriving DecidableEq, Repr

/-- `peer_ip_` and `peer_port_` -/
structure Peer where
  ip : String := ""
  port : ℤ := 0
deriving DecidableEq, Repr

structure Session where
  id : UInt64
  router : UInt64
  /-- `owner_` is set -/
  owner : Bool
  limit : Limit
  flags : SessionFlags
  peer : Peer
  stream : UvStream
  /-- the flags of the object at each call of `uv_shutdown` so far; no state of the program either -/
  shutdowns : List ProtoFlags
  /-- `private_data_`, an address -/
  privateData : ℕ
  proto : Proto

/-- `session::create`, with the router that its caller sets -/
def Session.create (router : UInt64) (proto : Proto) : Session where
  id := 0
  router := router
  owner := true
  limit := {}
  flags := {}
  peer := {}
  stream := {}
  shutdowns := []
  privateData := 0
  proto := proto

/-! ## The process -/

/-- `conf_t` without the listening sockets -/
structure GwConf where
  total : Traffic
  hour : Traffic
  minute : Traffic
  maxClientNumber : ℕ
  reconnectTimeout : ℤ
  firstIdleTimeout : ℤ
  sendBufferSize : ℕ
  defaultRouter : UInt64
  crypt : CryptConf
deriving DecidableEq, Repr

/-- the body of an `ss_msg` that the gateway sends -/
inductive SsBody where
  | addSession (peer : Peer)
  | removeSession (peer : Peer)
  | post (sessionIds : List UInt64) (content : Bytes) (length : ℕ)
  | setRouterRsp (router : UInt64) (errcode : ℤ)
deriving DecidableEq, Repr

/-- one `send_data`: who sent it, the `session_id` in its head, where it goes, and the result -/
structure Notice where
  sender : Option ℕ
  id : UInt64
  target : UInt64
  body : SsBody
  ret : ℤ
deriving DecidableEq, Repr

/-- `session_map_t` -/
abbrev SessionMap := AList fun _ : UInt64 => ℕ

/-- the periods that limits are checked for -/
inductive Period where
  | hour
  | minute
  | total
deriving DecidableEq, Repr

/-- what is recorded -/
inductive Step where
  /-- `dispatch_data` on the session's object -/
  | frame (s : ℕ) (buffer : Bytes) (errcode : ℤ)
  /-- `read` ended with an error -/
  | readError (s : ℕ)
  /-- `on_alloc_read` -/
  | allocRead (s : ℕ)
  /-- `check_hour_limit`, `check_minute_limit`, `check_total_limit` -/
  | check (s : ℕ) (period : Period) (checkRecv checkSend : Bool)
  /-- `init_new_session` -/
  | initNewSession (s : ℕ)
  /-- `init_reconnect(old)` -/
  | initReconnect (s old : ℕ)
  /-- `reconnect` -/
  | reconnect (s : ℕ) (oldId : UInt64)
  /-- `check_reconnect` of the object of `s` against that of `old`, which ended with `ok` -/
  | checkReconnect (s old : ℕ) (ok : Bool)
  /-- `reconnect` returns 0 -/
  | reconnected (s : ℕ) (oldId : UInt64)
  /-- `on_handshake_done_fn` -/
  | handshakeDone (s : ℕ) (status : ℤ)
  /-- `active_session` -/
  | activeSession (s : ℕ)
  /-- `session_manager::close` -/
  | managerClose (id : UInt64) (reason : ℤ) (allowReconnect : Bool)
  /-- `on_evt_accept_tcp` refuses the session -/
  | refuse (s : ℕ)
  /-- `session_manager::tick` beyond its check for a new second -/
  | tick
  /-- the reconnect timer of the session is due -/
  | expireReconnect (s : ℕ)
  /-- the session did not register in time -/
  | expireIdle (s : ℕ)
  /-- `session_manager::reset` -/
  | reset
  /-- `reset` clears `reconnect_cache_` -/
  | cleared
deriving DecidableEq, Repr

structure Core where
  conf : GwConf
  /-- `time_utility::get_now()` -/
  now : ℤ
  current : Option CryptGlobal
  sess : ℕ → Session
  count : ℕ
  actived : SessionMap
  reconnectCache : SessionMap
  firstIdle : List (ℤ × ℕ)
  reconnectTimeout : List (ℤ × ℕ)
  lastTickTime : ℤ
  /-- ids that `timestamp_id_allocator` gave so far -/
  allocated : ℕ
  /-- `uv_write` calls so far -/
  writes : ℕ
  sent : List Notice

structure World extends Core where
  history : List (Core × Step)

structure GwEnv where
  ext : Ext
  stack : ℕ
  /-- how deep callbacks may nest -/
  depth : ℕ
  /-- `write_header_offset_` of every object -/
  offset : ℕ
  /-- the result of each `uv_write`; one that succeeds completes later -/
  uvWrite : ℕ → ℤ
  /-- the result of each `send_data`, 0 or an error code -/
  sendData : ℕ → ℤ
  sendData_le : ∀ n, sendData n ≤ 0
  /-- the length of a message from a session, `none` where it can not be serialized -/
  serialize : UInt64 → SsBody → Option ℕ
  /-- `timestamp_id_allocator::allocate` -/
  allocate : ℕ → UInt64
  allocate_ne : ∀ n, allocate n ≠ 0

/-! ## Access -/

def World.setSess (s : ℕ) (x : Session) (w : World) : World := { w with sess := Function.update w.sess s x }

@[simp] theorem World.setSess_sess (s : ℕ) (x : Session) (w : World) : (w.setSess s x).sess s = x :=
  Function.update_self ..

theorem World.setSess_sess_ne {s t : ℕ} (h : t ≠ s) (x : Session) (w : World) : (w.setSess s x).sess t = w.sess t :=
  Function.update_of_ne h ..

@[simp] theorem World.setSess_setSess (s : ℕ) (x y : Session) (w : World) : (w.setSess s y).setSess s x = w.setSess s x := by
  simp only [World.setSess, Function.update_idem]

@[simp] theorem World.setSess_self (s : ℕ) (w : World) : w.setSess s (w.sess s) = w := by
  simp only [World.setSess, Function.update_eq_self]

def getSess (s : ℕ) : Prog Fault World Session := do return (← get).sess s

def modifySess (s : ℕ) (f : Session → Session) : Prog Fault World PUnit :=
  modify fun w => w.setSess s (f (w.sess s))

/-- add a step to the history -/
def record (step : Step) : Prog Fault World PUnit :=
  modify fun w => { w with history := w.history ++ [(w.toCore, step)] }

section wp

variable {E : Fault → World → Prop} {w : World}

theorem wp_getSess {Q : Session → World → Prop} (s : ℕ) : wp (getSess s) Q E w ↔ Q (w.sess s) w := Iff.rfl

theorem wp_modifySess {Q : PUnit → World → Prop} (s : ℕ) (f : Session → Session) :
    wp (modifySess s f) Q E w ↔ Q ⟨⟩ (w.setSess s (f (w.sess s))) := Iff.rfl

theorem wp_record {Q : PUnit → World → Prop} (step : Step) :
    wp (record step) Q E w ↔ Q ⟨⟩ { w with history := w.history ++ [(w.toCore, step)] } := Iff.rfl

end wp

end AtFrame.Gateway
