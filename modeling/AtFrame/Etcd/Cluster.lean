/-
`etcd_cluster` and its `etcd_keepalive` objects: the keys that a node publishes, the lease they hang on, and the requests
for both.

Requests are numbered in the order in which they are started and stay in `sent`; one is answered by `complete`, which calls
the callback that is still set for it. What the process cannot decide is in `EtcdEnv`: whether creating and starting a
request succeeds, and the random numbers. Watchers and statistics, which no function here reads, are left out.

`Cluster.acked` and `EtcdState.history` are no state of the program: they record the puts that were answered with success,
and the steps that later statements put conditions on, each with the state before it.
-/
import AtFrame.Etcd.KeyRange

namespace AtFrame.Etcd

/-! ## State -/

/-- what a request asks of etcd -/
inductive Ask where
  | memberList
  | authenticate
  | userGet
  | leaseGrant (id ttl : ℤ)
  | leaseKeepalive (id : ℤ)
  | leaseRevoke (id : ℤ)
  | get (range : KeyRange)
  | put (key value : Bytes) (lease : ℤ)
  | delete (range : KeyRange)
deriving DecidableEq, Repr

/-- whose callback is set for a request -/
inductive Target where
  | cluster
  | keepalive (k : ℕ)
  | deletor
deriving DecidableEq, Repr

/-- the path of an API call -/
def Ask.api : Ask → String
  | .memberList => "/v3/cluster/member/list"
  | .authenticate => "/v3/auth/authenticate"
  | .userGet => "/v3/auth/user/get"
  | .leaseGrant _ _ => "/v3/lease/grant"
  | .leaseKeepalive _ => "/v3/lease/keepalive"
  | .leaseRevoke _ => "/v3/kv/lease/revoke"
  | .get _ => "/v3/kv/range"
  | .put _ _ _ => "/v3/kv/put"
  | .delete _ => "/v3/kv/deleterange"

structure Sent where
  host : String
  ask : Ask
  target : Target
deriving DecidableEq, Repr

/-- `get_url` -/
def Sent.url (s : Sent) : String := s.host ++ s.ask.api

/-- what the callbacks look up in the body of an answer -/
structure Body where
  isObject : Bool
  /-- `code` -/
  code : ℤ
  /-- the text has "authenticat" in it -/
  saysAuthenticat : Bool
  /-- `count` and the values in `kvs` -/
  count : ℤ
  kvs : Option (List Bytes)
  /-- `result` is there, and in it (or in the body itself) `TTL` and `ID` -/
  hasResult : Bool
  hasTTL : Bool
  id : ℤ
  token : Option String
  /-- `members` with their `clientURLs` -/
  members : Option (List (Option (List String)))
deriving DecidableEq, Repr

structure Reply where
  errorCode : ℤ
  responseCode : ℤ
  body : Body
deriving DecidableEq, Repr

def Reply.success (r : Reply) : Bool := r.errorCode = 0 ∧ r.responseCode / 100 = 2

/-- `etcd_keepalive` -/
structure Keepalive where
  path : Bytes
  value : Bytes
  checker : Option (Bytes → Bool)
  isCheckRun : Bool
  isCheckPassed : Bool
  retryTimes : ℕ
  rpc : Option ℕ
  isActived : Bool
  isValueChanged : Bool
  hasData : Bool

/-- `etcd_keepalive::create` with the checker that is set on it -/
def Keepalive.fresh (path : Bytes) (checker : Option (Bytes → Bool)) : Keepalive where
  path := path
  value := []
  checker := checker
  isCheckRun := false
  isCheckPassed := false
  retryTimes := 0
  rpc := none
  isActived := false
  isValueChanged := true
  hasData := false

/-- `etcd_keepalive_deletor` -/
structure Deletor where
  path : Bytes
  retryTimes : ℕ
deriving DecidableEq, Repr

/-- the parts of `conf_t` that decide when requests are made; times in nanoseconds -/
structure EtcdConf where
  confHosts : List String := []
  hosts : List String := []
  authorization : String := ""
  authorizationHeader : String := ""
  authorizationNextUpdateTime : ℤ := 0
  authorizationRetryInterval : ℤ := 5000000000
  authUserGetNextUpdateTime : ℤ := 0
  authUserGetRetryInterval : ℤ := 120000000000
  pathNode : String := ""
  etcdMembersNextUpdateTime : ℤ := 0
  etcdMembersUpdateInterval : ℤ := 300000000000
  etcdMembersRetryInterval : ℤ := 60000000000
  lease : ℤ := 0
  keepaliveNextUpdateTime : ℤ := 0
  keepaliveTimeout : ℤ := 16000000000
  keepaliveInterval : ℤ := 5000000000
deriving DecidableEq, Repr

structure Cluster where
  closing : Bool
  running : Bool
  enableLease : Bool
  conf : EtcdConf
  now : ℤ
  /-- `curl_multi_` is set -/
  curlMulti : Bool
  rpcAuthenticate : Option ℕ
  rpcUpdateMembers : Option ℕ
  rpcKeepalive : Option ℕ
  keep : ℕ → Keepalive
  keepaliveActors : List ℕ
  keepaliveRetryActors : List ℕ
  /-- `keepalive_deletors_`, one for each path -/
  keepaliveDeletors : List Deletor
  /-- deletors with a request in flight -/
  deletorRpcs : List (ℕ × Deletor)
  /-- requests created, requests started and random numbers drawn so far, also without success -/
  creates : ℕ
  starts : ℕ
  randoms : ℕ
  sent : List Sent
  /-- the puts that were answered with success -/
  acked : List ℕ

/-- what is recorded -/
inductive EtcdStep where
  /-- one round of the loop over `keepalive_retry_actors_` -/
  | retry (k : ℕ)
  /-- `add_keepalive` -/
  | add (k : ℕ)
deriving DecidableEq, Repr

structure EtcdState extends Cluster where
  history : List (Cluster × EtcdStep)

structure EtcdEnv where
  /-- whether each `http_request::create` gives a request -/
  create : ℕ → Bool
  /-- the result of each `http_request::start` -/
  start : ℕ → ℤ
  /-- `random_between(0, n)` -/
  random : ℕ → ℕ → ℕ

/-- requests can always be created and started -/
def EtcdEnv.steady : EtcdEnv where
  create _ := true
  start _ := 0
  random _ _ := 0

def EtcdState.setKeep (k : ℕ) (x : Keepalive) (c : EtcdState) : EtcdState := { c with keep := Function.update c.keep k x }

def EtcdState.record (step : EtcdStep) (c : EtcdState) : EtcdState := { c with history := c.history ++ [(c.toCluster, step)] }

def EtcdState.setConf (conf : EtcdConf) (c : EtcdState) : EtcdState := { c with conf := conf }

variable (e : EtcdEnv)

/-! ## Requests -/

/-- the test that all `create_request_kv_*` start with -/
def Cluster.canRequest (c : Cluster) : Bool := c.curlMulti ∧ c.conf.pathNode ≠ "" ∧ ¬ c.closing

/-- `http_request::create` -/
def createHttp (c : EtcdState) : Bool × EtcdState := (e.create c.creates, { c with creates := c.creates + 1 })

/-- `start` of a request: its number, if it was started -/
def startHttp (s : Sent) (c : EtcdState) : Option ℕ × EtcdState :=
  if e.start c.starts = 0 then (some c.sent.length, { c with starts := c.starts + 1, sent := c.sent ++ [s] })
  else (none, { c with starts := c.starts + 1 })

/-- `create_request_kv_get`, `create_request_kv_del` -/
def createRequestKv (c : EtcdState) : Bool × EtcdState := if c.canRequest then createHttp e c else (false, c)

/-- `create_request_kv_set` with `assign_lease` -/
def createRequestKvSet (c : EtcdState) : Bool × EtcdState :=
  if c.canRequest ∧ c.conf.lease ≠ 0 then createHttp e c else (false, c)

/-- a request of the cluster itself: its number, if it could be created and started -/
def clusterRequest (host : String) (ask : Ask) (c : EtcdState) : Option ℕ × EtcdState :=
  let r := createHttp e c
  if r.1 then startHttp e ⟨host, ask, .cluster⟩ r.2 else (none, r.2)

/-- `std::chrono::seconds(1)` -/
def second : ℤ := 1000000000

/-- the time of the next lease request -/
def Cluster.nextKeepalive (c : Cluster) : ℤ := c.now + if c.conf.keepaliveInterval ≤ 0 then second else c.conf.keepaliveInterval

def createRequestLeaseGrant (c : EtcdState) : EtcdState :=
  if ¬ c.curlMulti ∨ c.conf.pathNode = "" then c
  else if c.closing ∨ ¬ c.enableLease then c
  else if c.rpcKeepalive.isSome then c
  else
    let c := c.setConf { c.conf with keepaliveNextUpdateTime := c.nextKeepalive }
    let r := clusterRequest e c.conf.pathNode (.leaseGrant c.conf.lease (c.conf.keepaliveTimeout / second)) c
    { r.2 with rpcKeepalive := r.1 }

def createRequestLeaseKeepalive (c : EtcdState) : EtcdState :=
  if ¬ c.curlMulti ∨ c.conf.lease = 0 ∨ c.conf.pathNode = "" then c
  else if c.closing ∨ ¬ c.enableLease then c
  else if c.rpcKeepalive.isSome then c
  else if c.now ≤ c.conf.keepaliveNextUpdateTime then c
  else
    let c := c.setConf { c.conf with keepaliveNextUpdateTime := c.nextKeepalive }
    let r := clusterRequest e c.conf.pathNode (.leaseKeepalive c.conf.lease) c
    { r.2 with rpcKeepalive := r.1 }

/-- `set_flag(ENABLE_LEASE, true)` -/
def enableLease (c : EtcdState) : EtcdState :=
  if c.enableLease then c else createRequestLeaseGrant e { c with enableLease := true }

/-! ## Keepalives -/

def addRetryKeepalive (k : ℕ) (c : EtcdState) : EtcdState :=
  if c.closing then c
  else if k ∈ c.keepaliveRetryActors then c
  else
    let c := enableLease e c
    { c with keepaliveRetryActors := c.keepaliveRetryActors ++ [k] }

/-- the keepalive once `process` has looked at its checker -/
def Keepalive.prepare (x : Keepalive) : Keepalive :=
  match x.checker with
  | none => { x with isActived := false, isCheckRun := true, isCheckPassed := true, retryTimes := x.retryTimes + 1 }
  | some _ => { x with isActived := false }

/-- start the request that `process` has created for a keepalive; without success the keepalive is retried -/
def startKeepalive (k : ℕ) (ask : Ask) (c : EtcdState) : EtcdState :=
  let r := startHttp e ⟨c.conf.pathNode, ask, .keepalive k⟩ c
  match r.1 with
  | none => addRetryKeepalive e k r.2
  | some id => r.2.setKeep k { r.2.keep k with rpc := some id }

/-- the part of `process` that creates a check request -/
def processCheck (k : ℕ) (c : EtcdState) : EtcdState :=
  let r := createRequestKv e c
  if r.1 then startKeepalive e k (.get (packKeyRange (r.2.keep k).path [])) r.2
  else addRetryKeepalive e k (r.2.setKeep k { r.2.keep k with retryTimes := (r.2.keep k).retryTimes + 1 })

/-- the part of `process` that creates a set request -/
def processSet (k : ℕ) (c : EtcdState) : EtcdState :=
  let r := createRequestKvSet e c
  if r.1 then
    let c := r.2.setKeep k { r.2.keep k with isValueChanged := false }
    startKeepalive e k (.put (c.keep k).path (c.keep k).value c.conf.lease) c
  else addRetryKeepalive e k r.2

/-- `etcd_keepalive::process` -/
def process (k : ℕ) (c : EtcdState) : EtcdState :=
  if (c.keep k).rpc.isSome then c
  else
    let c := c.setKeep k (c.keep k).prepare
    if ¬ (c.keep k).isCheckRun then processCheck e k c
    -- if check passed, set data
    else if (c.keep k).isCheckPassed ∧ (c.keep k).isValueChanged then processSet e k c
    else c

/-- `etcd_keepalive::active` -/
def active (k : ℕ) (c : EtcdState) : EtcdState := process e k (c.setKeep k { c.keep k with isActived := true })

/-- `etcd_keepalive::reset_value_changed` -/
def resetValueChanged (k : ℕ) (c : EtcdState) : EtcdState := c.setKeep k { c.keep k with isValueChanged := true }

/-- `etcd_keepalive::set_checker` -/
def setChecker (k : ℕ) (fn : Option (Bytes → Bool)) (c : EtcdState) : EtcdState := c.setKeep k { c.keep k with checker := fn }

/-- `etcd_keepalive::set_value` -/
def setValue (k : ℕ) (str : Bytes) (c : EtcdState) : EtcdState :=
  if (c.keep k).value = str then c
  else
    let c := c.setKeep k { c.keep k with value := str, isValueChanged := true }
    if c.running ∧ c.conf.lease ≠ 0 then active e k c else c

/-- `etcd_keepalive::close` -/
def Keepalive.close (x : Keepalive) (resetHasDataFlag : Bool) : Keepalive :=
  { x with rpc := none, isActived := false, isValueChanged := true, hasData := x.hasData && !resetHasDataFlag,
           isCheckRun := false, isCheckPassed := false, checker := none, retryTimes := 0 }

/-! ## Adding and removing -/

def addKeepalive (k : ℕ) (c : EtcdState) : EtcdState :=
  let c := c.record (.add k)
  if c.closing then c
  else if k ∈ c.keepaliveActors then c
  else
    let c := enableLease e c
    let c := { c with keepaliveActors := c.keepaliveActors ++ [k],
                      keepaliveDeletors := c.keepaliveDeletors.filter fun d => d.path ≠ (c.keep k).path }
    -- auto active if cluster is running
    if c.running ∧ c.conf.lease ≠ 0 then active e k c else c

/-- the retries of a delete request -/
def maxDeleteTimes : ℕ := 8

/-- `remove_keepalive_path`; a deletor of the same path that waits is replaced -/
def removeKeepalivePath (d : Deletor) (delayDelete : Bool) (c : EtcdState) : EtcdState :=
  let waiting := c.keepaliveDeletors.filter fun d' => d'.path ≠ d.path
  if delayDelete then { c with keepaliveDeletors := waiting ++ [d] }
  else
    let d := { d with retryTimes := d.retryTimes + 1 }
    let c := { c with keepaliveDeletors := waiting }
    if maxDeleteTimes < d.retryTimes then c
    else
      let r := createRequestKv e c
      if r.1 then
        let s := startHttp e ⟨r.2.conf.pathNode, .delete (packKeyRange d.path plusOne), .deletor⟩ r.2
        match s.1 with
        -- insert and retry later
        | none => { s.2 with keepaliveDeletors := waiting ++ [d] }
        | some id => { s.2 with deletorRpcs := s.2.deletorRpcs ++ [(id, d)] }
      else { r.2 with keepaliveDeletors := waiting ++ [d] }

/-- take an object out of a vector: the last one takes its place -/
def swapErase (k : ℕ) (l : List ℕ) : List ℕ :=
  match l.idxOf? k with
  | none => l
  | some i => (l.set i (l.getLast?.getD k)).dropLast

def removeKeepalive (k : ℕ) (c : EtcdState) : EtcdState :=
  if k ∈ c.keepaliveActors ∨ k ∈ c.keepaliveRetryActors then
    let c := { c with keepaliveActors := swapErase k c.keepaliveActors,
                      keepaliveRetryActors := swapErase k c.keepaliveRetryActors }
    if (c.keep k).hasData then
      let c := removeKeepalivePath e ⟨(c.keep k).path, 0⟩ false c
      c.setKeep k ((c.keep k).close true)
    else c.setKeep k ((c.keep k).close false)
  else c

/-! ## Retries and the lease -/

/-- one round of the loop over `keepalive_retry_actors_` -/
def retryKeepalive (c : EtcdState) (k : ℕ) : EtcdState := active e k (resetValueChanged k (c.record (.retry k)))

/-- the first part of `retry_pending_actions`; what a round adds to the list is in it already -/
def retryKeepalives (c : EtcdState) : EtcdState :=
  if c.conf.lease ≠ 0 then { c.keepaliveRetryActors.foldl (retryKeepalive e) c with keepaliveRetryActors := [] } else c

/-- the last part of `retry_pending_actions` -/
def retryDeletors (c : EtcdState) : EtcdState :=
  c.keepaliveDeletors.foldl (fun c d => removeKeepalivePath e d false c) { c with keepaliveDeletors := [] }

def retryPendingActions (c : EtcdState) : EtcdState := retryDeletors e (retryKeepalives e c)

/-- one round of the loop over `keepalive_actors_` in `set_lease` -/
def renewKeepalive (c : EtcdState) (k : ℕ) : EtcdState := active e k (resetValueChanged k c)

def setLease (v : ℤ) (forceActiveKeepalives : Bool) (c : EtcdState) : EtcdState :=
  let old := c.conf.lease
  let c := c.setConf { c.conf with lease := v }
  if old = v ∧ forceActiveKeepalives = false ∧ v ≠ 0 then retryPendingActions e c
  else if v ≠ 0 then
    let c := { c with keepaliveRetryActors := [] }
    retryPendingActions e (c.keepaliveActors.foldl (renewKeepalive e) c)
  else c

/-! ## Members and authorization -/

/-- the loop of `retry_request_member_update` over the hosts, from the `i`-th on -/
def dropHost (pathNode : String) : ℕ → ℕ → List String → List String
  | 0, _, hosts => hosts
  | n + 1, i, hosts =>
    match hosts[i]? with
    | none => hosts
    | some h =>
      if h ≠ pathNode then dropHost pathNode n (i + 1) hosts
      else dropHost pathNode n (i + 1) ((hosts.set i (hosts.getLast?.getD h)).dropLast)

/-- a host that is picked at random -/
def pickHost (hosts : List String) (c : EtcdState) : String × EtcdState :=
  (hosts.getD (e.random c.randoms hosts.length) "", { c with randoms := c.randoms + 1 })

def createRequestMemberUpdate (c : EtcdState) : EtcdState :=
  if ¬ c.curlMulti then c
  else if c.closing then c
  else if c.rpcUpdateMembers.isSome then c
  else if c.conf.confHosts = [] ∧ c.conf.hosts = [] then c
  else
    let interval := if c.conf.etcdMembersUpdateInterval ≤ 0 then second else c.conf.etcdMembersUpdateInterval
    let c := c.setConf { c.conf with etcdMembersNextUpdateTime := c.now + interval }
    let h := pickHost e (if c.conf.hosts ≠ [] then c.conf.hosts else c.conf.confHosts) c
    let r := clusterRequest e h.1 .memberList h.2
    { r.2 with rpcUpdateMembers := r.1 }

/-- the first block of `retry_request_member_update` -/
def leaveBadHost (badUrl : String) (c : EtcdState) : EtcdState :=
  if c.conf.pathNode ≠ "" ∧ c.conf.pathNode.toLower = (String.ofList (badUrl.toList.take c.conf.pathNode.length)).toLower then
    let hosts := dropHost c.conf.pathNode c.conf.hosts.length 0 c.conf.hosts
    if hosts = [] then c.setConf { c.conf with hosts := hosts, pathNode := "" }
    else
      let h := pickHost e hosts c
      h.2.setConf { h.2.conf with hosts := hosts, pathNode := h.1 }
  else c

def retryRequestMemberUpdate (badUrl : String) (c : EtcdState) : EtcdState :=
  let c := leaveBadHost e badUrl c
  if c.now + c.conf.etcdMembersRetryInterval < c.conf.etcdMembersNextUpdateTime then
    c.setConf { c.conf with etcdMembersNextUpdateTime := c.now + c.conf.etcdMembersRetryInterval }
  else if c.now ≤ c.conf.etcdMembersNextUpdateTime then c
  else createRequestMemberUpdate e c

def Cluster.checkAuthorization (c : Cluster) : Bool := c.conf.authorization = "" ∨ c.conf.authorizationHeader ≠ ""

def createRequestAuthAuthenticate (c : EtcdState) : EtcdState :=
  if ¬ c.curlMulti then c
  else if c.closing then c
  else if c.conf.pathNode = "" then c
  else if c.conf.authorization = "" then c.setConf { c.conf with authorizationHeader := "" }
  else if c.rpcAuthenticate.isSome then c
  else if c.now ≤ c.conf.authorizationNextUpdateTime then c
  else
    let c := c.setConf { c.conf with authorizationNextUpdateTime := c.now + max 0 c.conf.authorizationRetryInterval }
    let r := clusterRequest e c.conf.pathNode .authenticate c
    { r.2 with rpcAuthenticate := r.1 }

def createRequestAuthUserGet (c : EtcdState) : EtcdState :=
  if ¬ c.curlMulti then c
  else if c.closing then c
  else if c.conf.pathNode = "" then c
  else if c.conf.authorization = "" then c
  else if c.rpcAuthenticate.isSome then c
  else if c.now ≤ c.conf.authUserGetNextUpdateTime then c
  else
    let c := c.setConf { c.conf with authUserGetNextUpdateTime := c.now + max 0 c.conf.authUserGetRetryInterval }
    let r := clusterRequest e c.conf.pathNode .userGet c
    { r.2 with rpcAuthenticate := r.1 }

/-- the codes for "log in again" -/
def Reply.unauthenticated (r : Reply) : Bool :=
  r.responseCode = 401 ∨ r.body.isObject ∧ r.body.code = 16 ∨
    (r.responseCode = 400 ∨ r.responseCode = 412) ∧ r.body.saysAuthenticat

def checkAuthorizationExpired (r : Reply) (c : EtcdState) : EtcdState :=
  if r.unauthenticated then c.setConf { c.conf with authorizationHeader := "" } else c

/-- `tick` behind the authorization -/
def tickLease (c : EtcdState) : EtcdState :=
  if c.enableLease then
    -- run actions after lease granted
    if c.conf.lease = 0 then createRequestLeaseGrant e c
    else retryPendingActions e (if c.conf.keepaliveNextUpdateTime < c.now then createRequestLeaseKeepalive e c else c)
  else retryPendingActions e { c with running := true }

/-- `etcd_cluster::tick` -/
def tick (c : EtcdState) : EtcdState :=
  if ¬ c.curlMulti then c
  else if c.closing then c
  else
    let c := if c.conf.etcdMembersNextUpdateTime < c.now then createRequestMemberUpdate e c else c
    if c.conf.pathNode = "" then c
    else if ¬ c.checkAuthorization then
      if c.rpcAuthenticate.isNone then createRequestAuthAuthenticate e c else c
    else
      tickLease e (if c.conf.authorization ≠ "" ∧ c.rpcAuthenticate.isNone then createRequestAuthUserGet e c else c)

/-! ## Callbacks -/

/-- `libcurl_callback_on_get_data` up to the check: the value, or `none` where the answer has a count but no values -/
def Body.found (b : Body) : Option Bytes :=
  if b.isObject ∧ 0 < b.count then b.kvs.map fun vs => vs.head?.getD [] else some []

def onGetData (k : ℕ) (r : Reply) (c : EtcdState) : EtcdState :=
  let c := c.setKeep k { c.keep k with rpc := none, retryTimes := (c.keep k).retryTimes + 1 }
  if ¬ r.success then checkAuthorizationExpired r (addRetryKeepalive e k c)
  else
    match r.body.found with
    | none => addRetryKeepalive e k c
    | some value =>
      let passed := match (c.keep k).checker with
        | none => true
        | some fn => fn value
      active e k (c.setKeep k { c.keep k with isCheckRun := true, isCheckPassed := passed })

def onSetData (k id : ℕ) (r : Reply) (c : EtcdState) : EtcdState :=
  let c := c.setKeep k { c.keep k with rpc := none }
  if ¬ r.success then
    checkAuthorizationExpired r (addRetryKeepalive e k (c.setKeep k { c.keep k with isValueChanged := true }))
  else
    let c := { c with acked := c.acked ++ [id] }
    active e k (c.setKeep k { c.keep k with hasData := true })

/-- `libcurl_callback_on_remove_keepalive_path` -/
def onRemoveKeepalivePath (d : Deletor) (url : String) (r : Reply) (c : EtcdState) : EtcdState :=
  if r.errorCode ≠ 0 ∨ r.responseCode / 100 ≠ 2 ∧ r.responseCode ≠ 404 then
    let c := if r.errorCode ≠ 0 then retryRequestMemberUpdate e url c else c
    removeKeepalivePath e d true (checkAuthorizationExpired r c)
  else c

/-- what a failed request of the cluster itself leads to -/
def clusterFailed (url : String) (r : Reply) (c : EtcdState) : EtcdState :=
  checkAuthorizationExpired r (if r.errorCode ≠ 0 then retryRequestMemberUpdate e url c else c)

/-- `libcurl_callback_on_lease_keepalive` -/
def onLeaseKeepalive (url : String) (r : Reply) (c : EtcdState) : EtcdState :=
  let c := { c with rpcKeepalive := none }
  if ¬ r.success then clusterFailed e url r c
  else if ¬ r.body.isObject then c
  else
    let isGrant := !r.body.hasResult
    if ¬ r.body.hasTTL then
      -- the lease is gone, try to grant one
      if isGrant then c else createRequestLeaseGrant e (setLease e 0 isGrant c)
    else if r.body.id = 0 then c
    else setLease e r.body.id isGrant { c with running := true }

/-- `libcurl_callback_on_auth_authenticate` -/
def onAuthAuthenticate (url : String) (r : Reply) (c : EtcdState) : EtcdState :=
  let c := { c with rpcAuthenticate := none }
  if ¬ r.success then clusterFailed e url r c
  else if ¬ r.body.isObject then c
  else
    match r.body.token with
    | none => c
    | some token =>
      let c := retryPendingActions e (c.setConf { c.conf with authorizationHeader := "Authorization: " ++ token })
      c.setConf { c.conf with authUserGetNextUpdateTime := c.now + max 0 c.conf.authUserGetRetryInterval }

/-- `libcurl_callback_on_auth_user_get`; the roles it reads are used nowhere -/
def onAuthUserGet (url : String) (r : Reply) (c : EtcdState) : EtcdState :=
  let c := { c with rpcAuthenticate := none }
  if ¬ r.success then clusterFailed e url r c else c

/-- `libcurl_callback_on_member_update` -/
def onMemberUpdate (url : String) (r : Reply) (c : EtcdState) : EtcdState :=
  let c := { c with rpcUpdateMembers := none }
  if ¬ r.success then if r.errorCode ≠ 0 then retryRequestMemberUpdate e url c else c
  else if ¬ r.body.isObject then c
  else
    match r.body.members with
    | none => c
    | some members =>
      let hosts := (members.flatMap fun m => m.getD []).filter (· ≠ "")
      let c := c.setConf { c.conf with hosts := hosts }
      if hosts ≠ [] ∧ c.conf.pathNode ∉ hosts then
        let h := pickHost e hosts c
        tick e (h.2.setConf { h.2.conf with pathNode := h.1 })
      else tick e c

/-- an answer arrives for the request with this number -/
def complete (id : ℕ) (r : Reply) (c : EtcdState) : EtcdState :=
  match c.sent[id]? with
  | none => c
  | some s =>
    match s.target with
    | .keepalive k =>
      if (c.keep k).rpc = some id then
        match s.ask with
        | .put _ _ _ => onSetData e k id r c
        | _ => onGetData e k r c
      else c
    | .deletor =>
      match c.deletorRpcs.find? fun p => p.1 = id with
      | none => c
      | some p => onRemoveKeepalivePath e p.2 s.url r { c with deletorRpcs := c.deletorRpcs.filter fun p => p.1 ≠ id }
    | .cluster =>
      if c.rpcKeepalive = some id then onLeaseKeepalive e s.url r c
      else if c.rpcUpdateMembers = some id then onMemberUpdate e s.url r c
      else if c.rpcAuthenticate = some id then
        if s.ask = .userGet then onAuthUserGet e s.url r c else onAuthAuthenticate e s.url r c
      else c

/-- `etcd_cluster::close` -/
def closeCluster (c : EtcdState) : EtcdState :=
  let c := { c with closing := true, rpcKeepalive := none, rpcUpdateMembers := none, rpcAuthenticate := none,
                    keepaliveDeletors := [],
                    keep := fun k => if k ∈ c.keepaliveActors then (c.keep k).close false else c.keep k,
                    keepaliveActors := [], keepaliveRetryActors := [] }
  let c := if c.curlMulti ∧ c.conf.lease ≠ 0 ∧ c.conf.pathNode ≠ "" then
    (clusterRequest e c.conf.pathNode (.leaseRevoke c.conf.lease) c).2 else c
  if c.curlMulti then c.setConf { c.conf with lease := 0 } else c

/-! ## Runs -/

inductive EtcdEvent where
  | addKeepalive (k : ℕ)
  | removeKeepalive (k : ℕ)
  | setChecker (k : ℕ) (fn : Option (Bytes → Bool))
  | setValue (k : ℕ) (value : Bytes)
  | tick
  | clock (now : ℤ)
  | complete (id : ℕ) (reply : Reply)
  | close

def etcdEvent (c : EtcdState) : EtcdEvent → EtcdState
  | .addKeepalive k => addKeepalive e k c
  | .removeKeepalive k => removeKeepalive e k c
  | .setChecker k fn => setChecker k fn c
  | .setValue k value => setValue e k value c
  | .tick => tick e c
  | .clock now => { c with now := now }
  | .complete id reply => complete e id reply c
  | .close => closeCluster e c

def etcdRun (c : EtcdState) (events : List EtcdEvent) : EtcdState := events.foldl (etcdEvent e) c

/-- a cluster behind `init`, and its keepalive objects with their paths and checkers -/
def EtcdState.start (conf : EtcdConf) (path : ℕ → Bytes) (checker : ℕ → Option (Bytes → Bool)) : EtcdState where
  closing := false
  running := false
  enableLease := false
  conf := { conf with lease := 0 }
  now := 0
  curlMulti := true
  rpcAuthenticate := none
  rpcUpdateMembers := none
  rpcKeepalive := none
  keep := fun k => Keepalive.fresh (path k) (checker k)
  keepaliveActors := []
  keepaliveRetryActors := []
  keepaliveDeletors := []
  deletorRpcs := []
  creates := 0
  starts := 0
  randoms := 0
  sent := []
  acked := []
  history := []

end AtFrame.Etcd
