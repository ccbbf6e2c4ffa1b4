/-
`etcd_watcher`: a range request for a first snapshot, then one watch connection after another, each asking for the changes
behind `last_revision`.

The world around the object is the store with all changes ever committed, the connection of the watch request with what etcd
has sent over it and how much of that has come in, the clock, and a log of what `evt_handle_` was called with and which watch
requests were made. The JSON library and the number and base64 routines are parameters (`Codec`). A string that the code leaves
unset where a member is missing is empty, a number or a flag `none`. `check_authorization_expired`, which only changes the
cluster, is left out.

What etcd promises is the guard of an event, which does nothing where the guard fails: `push` sends a response with the
revision of the store and the next changes of the watched range in order, until a response cancels the watch.
-/
import AtFrame.Etcd.Cluster
import AtFrame.Lib.Brackets

namespace AtFrame.EtcdWatcher

open AtFrame.Etcd AtFrame.Lib

/-! ## JSON -/

/-- `rapidjson::Value`; a number that is no integer is `double` -/
inductive Json where
  | null
  | bool (b : Bool)
  | int (n : ℤ)
  | double
  | string (s : String)
  | array (values : List Json)
  | object (members : List (String × Json))

/-- `FindMember` -/
def Json.find (key : String) : Json → Option Json
  | .object members => (members.find? fun m => m.1 = key).map fun m => m.2
  | _ => none

structure Codec where
  /-- `rapidjson::Document::Parse` of a text without NUL -/
  parse : Bytes → Option Json
  /-- `util::string::str2int` for an integer of so many bits -/
  str2int : ℕ → String → ℤ
  /-- `util::base64_decode` -/
  base64Decode : String → Option Bytes

/-- what a C function reads of a buffer -/
def cString (b : Bytes) : Bytes := b.takeWhile (· ≠ 0)

def IsInt64 (n : ℤ) : Prop := -2 ^ 63 ≤ n ∧ n < 2 ^ 63

def IsUint64 (n : ℤ) : Prop := 0 ≤ n ∧ n < 2 ^ 64

instance : DecidablePred IsInt64 := fun _ => inferInstanceAs (Decidable (_ ∧ _))

instance : DecidablePred IsUint64 := fun _ => inferInstanceAs (Decidable (_ ∧ _))

structure ResponseHeader where
  clusterId : ℤ
  memberId : ℤ
  revision : ℤ
  raftTerm : ℤ
deriving DecidableEq, Repr

structure KeyValue where
  key : Bytes
  createRevision : ℤ
  modRevision : ℤ
  version : ℤ
  value : Bytes
  lease : ℤ
deriving DecidableEq, Repr

inductive EventType where
  | put
  | delete
deriving DecidableEq, Repr

/-- `event_t` -/
structure Event where
  evtType : Option EventType
  kv : Option KeyValue
  prevKv : Option KeyValue
deriving DecidableEq, Repr

/-- `response_t` -/
structure Response where
  watchId : Option ℤ
  created : Option Bool
  canceled : Option Bool
  compactRevision : Option ℤ
  events : List Event
deriving DecidableEq, Repr

variable (C : Codec)

/-- a number of a header or of a key and its value -/
def Codec.field (fits : ℤ → Prop) [DecidablePred fits] (key : String) (json : Json) : ℤ :=
  match json.find key with
  | some (.int n) => if fits n then n else 0
  | some (.string s) => C.str2int 64 s
  | _ => 0

/-- `unpack_int` -/
def Codec.unpackInt (fits : ℤ → Prop) [DecidablePred fits] (key : String) (json : Json) : Option ℤ :=
  match json.find key with
  | none => some 0
  | some (.int n) => if fits n then some n else none
  | some (.string s) => some (C.str2int 64 s)
  | some _ => none

/-- `unpack_bool` -/
def Codec.unpackBool (key : String) (json : Json) : Option Bool :=
  match json.find key with
  | none => some false
  | some (.bool b) => some b
  | some (.int n) => if IsUint64 n ∨ IsInt64 n then some (n ≠ 0) else none
  | some (.string s) => some (C.str2int 32 s ≠ 0)
  | some _ => none

/-- `unpack_base64` -/
def Codec.unpackBase64 (key : String) (json : Json) : Bytes :=
  match json.find key with
  | some (.string s) => (C.base64Decode s).getD []
  | _ => []

def Codec.unpackHeader (json : Json) : ResponseHeader where
  clusterId := C.field IsUint64 "cluster_id" json
  memberId := C.field IsUint64 "member_id" json
  revision := C.field IsInt64 "revision" json
  raftTerm := C.field IsUint64 "raft_term" json

def Codec.unpackKeyValue (json : Json) : KeyValue where
  key := C.unpackBase64 "key" json
  createRevision := C.field IsInt64 "create_revision" json
  modRevision := C.field IsInt64 "mod_revision" json
  version := C.field IsInt64 "version" json
  value := C.unpackBase64 "value" json
  lease := C.field IsInt64 "lease" json

/-- the type of an event; "type" may be left out -/
def Json.eventType (json : Json) : Option EventType :=
  match json.find "type" with
  | none => some .put
  | some (.string s) => some (if s.toUpper = "DELETE" then .delete else .put)
  | some (.int n) => some (if IsUint64 n ∧ n ≠ 0 then .delete else .put)
  | some .double => some .put
  | some _ => none

def Codec.unpackEvent (json : Json) : Event where
  evtType := json.eventType
  kv := (json.find "kv").map C.unpackKeyValue
  prevKv := (json.find "prev_kv").map C.unpackKeyValue

/-- the elements of a member that is an array -/
def Json.elements (key : String) (json : Json) : List Json :=
  match json.find key with
  | some (.array values) => values
  | _ => []

/-- `parse_object` -/
def Codec.parseObject (text : Bytes) : Option Json :=
  match C.parse (cString text) with
  | some (.object members) => some (.object members)
  | _ => none

/-- what a chunk of the watch stream says: the header, if it has one, and the response -/
def Codec.watchResponse (text : Bytes) : Option (Option ResponseHeader × Response) :=
  (C.parseObject text).map fun root =>
    let result := (root.find "result").getD root
    ((result.find "header").map C.unpackHeader,
      { watchId := C.unpackInt IsInt64 "watch_id" result
        created := C.unpackBool "created" result
        canceled := C.unpackBool "canceled" result
        compactRevision := C.unpackInt IsInt64 "compact_revision" result
        events := (result.elements "events").map C.unpackEvent })

/-- what the answer to the range request says; all keys found count as put -/
def Codec.rangeResponse (text : Bytes) : Option (Option ResponseHeader × Response) :=
  (C.parseObject text).map fun doc =>
    ((doc.find "header").map C.unpackHeader,
      { watchId := some 0
        created := some false
        canceled := some false
        compactRevision := some 0
        events := (doc.elements "kvs").map fun kv => ⟨some .put, some (C.unpackKeyValue kv), none⟩ })

/-! ## State -/

/-- what is asked of etcd -/
inductive Request where
  | get (range : KeyRange)
  | watch (range : KeyRange) (startRevision : ℤ) (prevKv progressNotify : Bool) (timeout : ℤ)
deriving DecidableEq, Repr

/-- `etcd_watcher`; times in nanoseconds -/
structure Watcher where
  path : Bytes
  rangeEnd : Bytes
  rpcDataStream : Bytes := []
  rpcDataBrackets : ℤ := 0
  rpcOpr : Option Request := none
  isActived : Bool := false
  isRetryMode : Bool := false
  enableProgressNotify : Bool := true
  enablePrevKv : Bool := false
  lastRevision : ℤ := 0
  watcherNextRequestTime : ℤ := 0
  retryInterval : ℤ := 15000000000
  requestTimeout : ℤ := 3600000000000
deriving DecidableEq, Repr

/-- a change in the store -/
structure Change where
  evtType : EventType
  kv : KeyValue
deriving DecidableEq, Repr

/-- the change that an event tells of -/
def Event.change (ev : Event) : Option Change :=
  match ev.evtType, ev.kv with
  | some evtType, some kv => some ⟨evtType, kv⟩
  | _, _ => none

structure Store where
  revision : ℤ
  history : List Change
deriving DecidableEq, Repr

/-- a response on its way -/
structure Piece where
  /-- the bytes in front of it -/
  gap : Bytes
  object : Bytes
  header : Option ResponseHeader
  changes : List Change
  /-- how many changes of the range were still to be sent behind it -/
  behind : ℕ
deriving DecidableEq, Repr

def Piece.bytes (p : Piece) : Bytes := p.gap ++ p.object

def Piece.size (p : Piece) : ℕ := p.bytes.length

/-- the connection of a watch request -/
structure Connection where
  startRevision : ℤ
  /-- what etcd has sent -/
  pieces : List Piece
  canceled : Bool
  /-- how many bytes of it have come in -/
  received : ℕ
  /-- `http_request::stop` was called -/
  stopped : Bool
deriving DecidableEq, Repr

def Connection.wire (c : Connection) : Bytes := c.pieces.flatMap Piece.bytes

/-- the responses that have come in completely -/
def Connection.arrived (c : Connection) : List Piece := Lib.arrived Piece.size c.pieces c.received

inductive Notice where
  /-- `evt_handle_` was called for a range request -/
  | snapshot (header : ResponseHeader) (response : Response)
  /-- `evt_handle_` was called for a chunk of the watch stream -/
  | response (header : Option ResponseHeader) (response : Response)
  /-- a watch request was started -/
  | watch (startRevision : ℤ)
deriving DecidableEq, Repr

structure State extends Watcher where
  now : ℤ
  /-- requests created and started so far, also without success -/
  creates : ℕ
  starts : ℕ
  store : Store
  connection : Option Connection
  log : List Notice

/-- an HTTP answer -/
structure HttpReply where
  errorCode : ℤ
  responseCode : ℤ
  content : Bytes
deriving DecidableEq, Repr

def HttpReply.success (r : HttpReply) : Bool := r.errorCode = 0 ∧ r.responseCode / 100 = 2

def CURLE_OPERATION_TIMEDOUT : ℤ := 28

variable (e : EtcdEnv)

/-! ## Requests -/

/-- `create_request_*` of the cluster -/
def createRequest (w : State) : Bool × State := (e.create w.creates, { w with creates := w.creates + 1 })

/-- `start` -/
def startRequest (w : State) : Bool × State := (e.start w.starts = 0, { w with starts := w.starts + 1 })

/-- the part of `process` that asks for the revision first; in retry mode the key alone is asked for -/
def processRange (w : State) : State :=
  let request := Request.get (packKeyRange w.path (if w.isRetryMode then [] else w.rangeEnd))
  let r := createRequest e w
  if ¬ r.1 then { r.2 with watcherNextRequestTime := r.2.now + r.2.retryInterval }
  else
    let s := startRequest e r.2
    if s.1 then { s.2 with rpcOpr := some request } else { s.2 with rpcOpr := none }

/-- the part of `process` that watches from the next revision on -/
def processWatch (w : State) : State :=
  let startRevision := w.lastRevision + 1
  let request := Request.watch (packKeyRange w.path w.rangeEnd) startRevision w.enablePrevKv w.enableProgressNotify
    w.requestTimeout
  let r := createRequest e w
  if ¬ r.1 then { r.2 with watcherNextRequestTime := r.2.now + r.2.retryInterval }
  else
    let s := startRequest e { r.2 with rpcDataStream := [], rpcDataBrackets := 0 }
    if s.1 then { s.2 with rpcOpr := some request, connection := some ⟨startRevision, [], false, 0, false⟩,
                           log := s.2.log ++ [.watch startRevision] }
    else { s.2 with rpcOpr := none }

def process (w : State) : State :=
  if w.rpcOpr.isSome then w
  else
    let w := { w with isActived := false }
    if w.now < w.watcherNextRequestTime then w
    -- ask for revision first
    else if w.lastRevision = 0 ∨ w.isRetryMode then processRange e w
    else processWatch e w

def active (w : State) : State := process e { w with isActived := true }

def close (w : State) : State :=
  { w with rpcOpr := none, connection := none, isActived := false, isRetryMode := false, lastRevision := 0 }

/-! ## Callbacks -/

/-- ask again behind the retry interval -/
def State.later (w : State) : State := { w with watcherNextRequestTime := w.now + w.retryInterval }

/-- reset request time to invoke the next request immediately -/
def State.immediately (w : State) : State := { w with watcherNextRequestTime := w.now }

/-- `libcurl_callback_on_range_completed` -/
def onRangeCompleted (r : HttpReply) (w : State) : State :=
  let w := { w with rpcOpr := none }
  if ¬ r.success then w.later
  else if w.isRetryMode then active e { w with isRetryMode := false }.immediately
  else
    match C.rangeResponse r.content with
    | some (some header, response) =>
      if header.revision = 0 then active e w.later
      else
        let w := { w with lastRevision := header.revision }
        active e { w with log := w.log ++ [Notice.snapshot header response] }.immediately
    | _ => active e w.later

/-- `libcurl_callback_on_watch_completed` -/
def onWatchCompleted (errorCode responseCode : ℤ) (w : State) : State :=
  let w := { w with rpcOpr := none, connection := none, isRetryMode := true }
  if errorCode ≠ 0 ∨ responseCode / 100 ≠ 2 then
    active e (if errorCode ≠ CURLE_OPERATION_TIMEDOUT then w.later else w.immediately)
  else active e w

/-- the brackets that `libcurl_callback_on_watch_write` counts -/
def jsonBrackets : Brackets UInt8 where
  opens a := a = 123 ∨ a = 91
  closes a := a = 125 ∨ a = 93
  stops a := a = 0

/-- the loop over the bytes in front of an object -/
def skipBytes (inbuf : Bytes) : Bytes := inbuf.dropWhile fun a => decide (jsonBrackets.Skips a)

/-- the loop over the bytes of an object: the depth behind them, or the bytes up to the end of the object and the others -/
def scanBytes (depth : ℤ) : Bytes → ℤ ⊕ Bytes × Bytes
  | [] => .inl depth
  | a :: rest =>
    if jsonBrackets.next depth a ≤ 0 then .inr ([a], rest)
    else
      match scanBytes (jsonBrackets.next depth a) rest with
      | .inl depth => .inl depth
      | .inr (object, rest) => .inr (a :: object, rest)

/-- the part of the round that handles a complete object -/
def onObject (text : Bytes) (w : State) : State :=
  match C.watchResponse text with
  -- empty data is ignored
  | none => w
  | some (header, response) =>
    let w := match header with
      -- save revision
      | some h => if h.revision ≠ 0 then { w with lastRevision := h.revision } else w
      | none => w
    let w := { w with log := w.log ++ [Notice.response header response] }
    -- stopped if canceled and wait to start another watcher later
    if response.canceled = some true then { w with connection := w.connection.map fun c => { c with stopped := true } } else w

/-- the rounds of `libcurl_callback_on_watch_write`, one object each -/
def watchWriteRounds : ℕ → Bytes → State → State
  | 0, _, w => w
  | n + 1, inbuf, w =>
    if inbuf = [] then w
    else
      let inbuf := if w.rpcDataBrackets ≤ 0 then skipBytes inbuf else inbuf
      match scanBytes w.rpcDataBrackets inbuf with
      | .inl depth => { w with rpcDataStream := w.rpcDataStream ++ inbuf, rpcDataBrackets := depth }
      | .inr (object, rest) =>
        let text := w.rpcDataStream ++ object
        watchWriteRounds n rest (onObject C text { w with rpcDataStream := [], rpcDataBrackets := 0 })

/-- `libcurl_callback_on_watch_write`; a round takes at least one byte -/
def onWatchWrite (inbuf : Bytes) (w : State) : State := watchWriteRounds C inbuf.length inbuf w

/-! ## Runs -/

/-- the keys that the watch is about -/
def Watcher.range (w : Watcher) : KeyRange := packKeyRange w.path w.rangeEnd

/-- the changes that a watch from a revision on delivers, in order -/
def State.due (w : State) (startRevision : ℤ) : List Change :=
  w.store.history.filter fun ch => w.range.Covers ch.kv.key ∧ startRevision ≤ ch.kv.modRevision

def Connection.sent (c : Connection) : List Change := c.pieces.flatMap Piece.changes

/-- the changes that are still to be sent -/
def State.pending (w : State) (c : Connection) : List Change := (w.due c.startRevision).drop c.sent.length

/-- the changes that a response tells of -/
def Response.changes (r : Response) : List (Option Change) := r.events.map Event.change

inductive WatcherEvent where
  /-- a transaction commits changes -/
  | write (changes : List Change)
  | clock (now : ℤ)
  | active
  | close
  /-- etcd sends a response, with bytes in front of it -/
  | push (gap object : Bytes)
  /-- so many bytes come in -/
  | receive (n : ℕ)
  | rangeCompleted (reply : HttpReply)
  | watchCompleted (errorCode responseCode : ℤ)

/-- what etcd sends has the store's revision, if it has a header, and the next changes -/
def State.Sends (w : State) (c : Connection) (gap object : Bytes) (header : Option ResponseHeader) (r : Response) : Prop :=
  Framed jsonBrackets gap object ∧ c.canceled = false ∧ (∀ h ∈ header, h.revision = w.store.revision) ∧
    r.changes = ((w.pending c).take r.events.length).map some

instance (w : State) (c : Connection) (gap object : Bytes) (header : Option ResponseHeader) (r : Response) :
    Decidable (w.Sends c gap object header r) := inferInstanceAs (Decidable (_ ∧ _ ∧ _ ∧ _))

def push (gap object : Bytes) (w : State) : State :=
  match w.connection, C.watchResponse object with
  | some c, some (header, r) =>
    if w.Sends c gap object header r then
      let pending := w.pending c
      let n := r.events.length
      let p : Piece := ⟨gap, object, header, pending.take n, (pending.drop n).length⟩
      { w with connection := some { c with pieces := c.pieces ++ [p], canceled := r.canceled = some true } }
    else w
  | _, _ => w

/-- bytes come in until the request is stopped -/
def receive (n : ℕ) (w : State) : State :=
  match w.connection with
  | none => w
  | some c =>
    if c.stopped ∨ c.wire.length < c.received + n then w
    else onWatchWrite C ((c.wire.drop c.received).take n) { w with connection := some { c with received := c.received + n } }

/-- an answer to a range request has the revision of the store at some time before -/
def State.Answers (w : State) (r : HttpReply) : Prop :=
  match C.rangeResponse r.content with
  | some (some header, _) => 0 ≤ header.revision ∧ header.revision ≤ w.store.revision
  | _ => True

instance (w : State) (r : HttpReply) : Decidable (w.Answers C r) := by
  unfold State.Answers
  split <;> infer_instance

def watcherEvent (w : State) : WatcherEvent → State
  | .write changes =>
    if ∀ ch ∈ changes, ch.kv.modRevision = w.store.revision + 1 then
      { w with store := ⟨w.store.revision + 1, w.store.history ++ changes⟩ }
    else w
  | .clock now => { w with now := now }
  | .active => active e w
  | .close => close w
  | .push gap object => push C gap object w
  | .receive n => receive C n w
  | .rangeCompleted r =>
    match w.rpcOpr with
    | some (.get _) => if w.Answers C r then onRangeCompleted C e r w else w
    | _ => w
  | .watchCompleted errorCode responseCode =>
    match w.rpcOpr with
    | some (.watch ..) => onWatchCompleted e errorCode responseCode w
    | _ => w

def watcherRun (w : State) (events : List WatcherEvent) : State := events.foldl (watcherEvent C e) w

/-- a new watcher, and a store without keys -/
def State.start (watcher : Watcher) : State where
  toWatcher := { path := watcher.path, rangeEnd := watcher.rangeEnd, enableProgressNotify := watcher.enableProgressNotify,
                 enablePrevKv := watcher.enablePrevKv, retryInterval := watcher.retryInterval,
                 requestTimeout := watcher.requestTimeout }
  now := 0
  creates := 0
  starts := 0
  store := ⟨1, []⟩
  connection := none
  log := []

end AtFrame.EtcdWatcher
