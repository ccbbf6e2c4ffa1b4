/-
`atproxy_manager`: the table of the other proxies, and the list of the proxies to look at later.

The world around the manager is the app with its clock, its flag for stopping and its bus node. A bus node has endpoints, which
come and go by events of their own. What nothing here can decide comes from outside: the results of `connect` (`BusEnv`), and
with each tick which addresses `is_remote_address_available` takes. `init`, which only adds the watcher, the unused `swap` and
the texts of the log are left out.

`Manager.connects` is no state of the program: it records the calls of `connect`, each with the addresses as they stood when
the proxy was looked at.

- `check_checked`: all that one round of `tick` can do;
- `tickRounds_ends`: the rounds end;
- `tick_induct`: what every round keeps holds behind a tick.
-/
import AtFrame.Etcd.NodeInfo
import AtFrame.Lib.Steps

namespace AtFrame.Proxy

open AtFrame.EtcdModule AtFrame.Lib

/-! ## State -/

/-- `app_id_t` -/
abbrev AppId := UInt64

/-- `atproxy_manager::node_info_t` -/
structure ProxyInfo where
  etcdNode : NodeInfo
  nextActionTime : ℤ
  isAvailable : Bool
deriving DecidableEq, Repr

/-- `check_info_t` -/
structure CheckInfo where
  timeoutSec : ℤ
  proxyId : AppId
deriving DecidableEq, Repr

structure BusNode where
  endpoints : List AppId
  /-- `get_conf().retry_interval` -/
  retryInterval : ℤ
  protocolVersion : UInt64
  protocolMinimalVersion : UInt64
deriving DecidableEq, Repr

structure App where
  id : AppId
  now : ℤ
  stopping : Bool
  busNode : Option BusNode
deriving DecidableEq, Repr

/-- a call of `connect` -/
structure Connect where
  proxyId : AppId
  listens : List String
  address : String
deriving DecidableEq, Repr

structure Manager where
  app : App
  checkList : List CheckInfo
  proxySet : AppId → Option ProxyInfo
  connects : List Connect

structure BusEnv where
  /-- the result of each `connect` -/
  connect : ℕ → ℤ
  /-- `ATBUS_PROTOCOL_VERSION` -/
  atbusProtocolVersion : UInt64
  /-- `ATBUS_PROTOCOL_MINIMAL_VERSION` -/
  atbusProtocolMinimalVersion : UInt64

def Manager.setProxy (id : AppId) (p : Option ProxyInfo) (m : Manager) : Manager :=
  { m with proxySet := Function.update m.proxySet id p }

/-- look at a proxy again at some time -/
def Manager.recheck (id : AppId) (p : ProxyInfo) (timeout : ℤ) (m : Manager) : Manager :=
  { m.setProxy id (some { p with nextActionTime := timeout }) with checkList := m.checkList ++ [⟨timeout, id⟩] }

variable (e : BusEnv)

/-! ## Table -/

def checkAvailable (app : App) (node : NodeInfo) : Bool :=
  let version := (app.busNode.map BusNode.protocolVersion).getD e.atbusProtocolVersion
  let minVersion := (app.busNode.map BusNode.protocolMinimalVersion).getD e.atbusProtocolMinimalVersion
  minVersion ≤ node.atbusProtocolVersion ∧ node.atbusProtocolMinVersion ≤ version

def set (node : NodeInfo) (m : Manager) : Manager :=
  let now := m.app.now
  match m.proxySet node.id with
  | some p =>
    -- already has pending action, just skipped
    if now ≤ p.nextActionTime then m
    else { m.setProxy node.id (some { p with nextActionTime := now, etcdNode := node }) with
           checkList := ⟨now, node.id⟩ :: m.checkList }
  | none =>
    { m.setProxy node.id (some ⟨node, now, checkAvailable e m.app node⟩) with checkList := ⟨now, node.id⟩ :: m.checkList }

def remove (id : AppId) (m : Manager) : Manager := m.setProxy id none

/-- one round of the loop of `reset` -/
def resetOne (m : Manager) (p : ProxyInfo) : Manager :=
  -- skip all empty
  if p.etcdNode.listens = [] then m
  else
    let p := { p with nextActionTime := m.app.now, isAvailable := checkAvailable e m.app p.etcdNode }
    { m.setProxy p.etcdNode.id (some p) with checkList := ⟨m.app.now, p.etcdNode.id⟩ :: m.checkList }

def reset (allProxys : List ProxyInfo) (m : Manager) : Manager :=
  allProxys.foldl (resetOne e) { m with proxySet := fun _ => none, checkList := [] }

def onWatcherNotify (node : NodeInfo) (m : Manager) : Manager :=
  if node.action = .delete then remove node.id m else set e node m

/-- when a proxy is looked at whose connection was lost -/
def App.lostTime (app : App) : ℤ :=
  if ¬ app.stopping then
    match app.busNode with
    | some bus => if 0 < bus.retryInterval then app.now + bus.retryInterval else app.now + 1
    | none => app.now + 1
  -- when stoping the bus node may be unavailable
  else app.now - 1

def onDisconnected (id : AppId) (m : Manager) : Manager :=
  match m.proxySet id with
  | none => m
  | some p => if p.nextActionTime < m.app.lostTime then m.recheck id p m.app.lostTime else m

/-! ## Tick -/

def nextListenAddress : List String → List String
  | [] => []
  | [a] => [a]
  | [a, b] => [b, a]
  | a :: rest => rest ++ [a]

/-- one round of the loop over the addresses -/
def passUnavailable (available : String → Bool) : List String → List String
  | [] => []
  | front :: rest => if available front then front :: rest else nextListenAddress (front :: rest)

/-- the loop over the addresses, as many rounds as there are -/
def selectListen (available : String → Bool) (listens : List String) : List String :=
  (passUnavailable available)^[listens.length] listens

/-- when a proxy is looked at again that a connect was tried for -/
def App.retryTime (app : App) (bus : BusNode) : ℤ :=
  if app.now + bus.retryInterval ≤ app.now then app.now + 1 else app.now + bus.retryInterval

/-- the connect to the address that is in front behind the loop -/
def connectTo (available : String → Bool) (id : AppId) (p : ProxyInfo) : Connect :=
  ⟨id, p.etcdNode.listens, (selectListen available p.etcdNode.listens).headD ""⟩

/-- the proxy behind the connect, the next address in front -/
def ProxyInfo.turned (available : String → Bool) (p : ProxyInfo) : ProxyInfo :=
  { p with etcdNode := { p.etcdNode with listens := nextListenAddress (selectListen available p.etcdNode.listens) } }

/-- the connect of `tick`, and what it adds to the result -/
def tryConnect (available : String → Bool) (id : AppId) (p : ProxyInfo) (bus : BusNode) (m : Manager) : ℕ × Manager :=
  (if 0 ≤ e.connect m.connects.length then 1 else 0,
    { m.recheck id (p.turned available) (m.app.retryTime bus) with
      connects := m.connects ++ [connectTo available id p] })

/-- a round of the loop of `tick` for an entry that was taken off the list -/
def check (available : String → String → Bool) (ci : CheckInfo) (m : Manager) : ℕ × Manager :=
  -- skip self
  if ci.proxyId = m.app.id then (0, m)
  else
    match m.proxySet ci.proxyId with
    -- already removed, skip
    | none => (0, m)
    | some p =>
      -- if has no listen addrs, skip
      if p.etcdNode.listens = [] then (0, m)
      -- has another pending check info
      else if ci.timeoutSec < p.nextActionTime then (0, m)
      else
        match m.app.busNode with
        | some bus =>
          let p := { p with nextActionTime := 0 }
          -- already connected, skip
          if ci.proxyId ∈ bus.endpoints then (0, m.setProxy ci.proxyId (some p))
          else if p.isAvailable = false then (0, m.setProxy ci.proxyId (some p))
          else tryConnect e (available p.etcdNode.hostname) ci.proxyId p bus m
        | none => (0, m.recheck ci.proxyId p (m.app.now + 1))

/-- the loop of `tick`, for so many rounds; `none` where they are not enough -/
def tickRounds (available : String → String → Bool) : ℕ → Manager → Option (ℕ × Manager)
  | 0, _ => none
  | n + 1, m =>
    match m.checkList with
    | [] => some (0, m)
    | ci :: rest =>
      if m.app.now ≤ ci.timeoutSec then some (0, m)
      else
        let r := check e available ci { m with checkList := rest }
        (tickRounds available n r.2).map fun last => (r.1 + last.1, last.2)

/-- `atproxy_manager::tick`: how many connects were begun, and the manager -/
def tick (available : String → String → Bool) (m : Manager) : ℕ × Manager :=
  (tickRounds e available (m.checkList.length + 1) m).getD (0, m)

/-! ## Runs -/

inductive Event where
  | set (node : NodeInfo)
  | remove (id : AppId)
  | reset (allProxys : List ProxyInfo)
  | notify (node : NodeInfo)
  | tick (available : String → String → Bool)
  /-- the bus node has a new endpoint, and `on_connected` is called -/
  | connected (id : AppId)
  /-- the bus node has lost an endpoint, and `on_disconnected` is called -/
  | disconnected (id : AppId)
  | clock (now : ℤ)

def App.setEndpoints (f : List AppId → List AppId) (app : App) : App :=
  { app with busNode := app.busNode.map fun bus => { bus with endpoints := f bus.endpoints } }

def step (m : Manager) : Event → Manager
  | .set node => set e node m
  | .remove id => remove id m
  | .reset allProxys => reset e allProxys m
  | .notify node => onWatcherNotify e node m
  | .tick available => (tick e available m).2
  | .connected id => { m with app := m.app.setEndpoints fun ids => id :: ids }
  | .disconnected id => onDisconnected id { m with app := m.app.setEndpoints fun ids => ids.filter (· ≠ id) }
  | .clock now => { m with app := { m.app with now := now } }

def run (m : Manager) (events : List Event) : Manager := events.foldl (step e) m

/-- the clock does not go back -/
def Event.Onward (m : Manager) : Event → Prop
  | .clock now => m.app.now ≤ now
  | _ => True

instance (m : Manager) : DecidablePred (Event.Onward m) := by
  rintro (_ | _) <;> dsimp only [Event.Onward] <;> infer_instance

/-- a manager behind its constructor -/
def Manager.start (app : App) : Manager where
  app := app
  checkList := []
  proxySet _ := none
  connects := []

variable {e} {m : Manager} {ci : CheckInfo} {available : String → String → Bool}

@[simp] theorem setProxy_app (id : AppId) (p : Option ProxyInfo) (m : Manager) : (m.setProxy id p).app = m.app := rfl

@[simp] theorem setProxy_checkList (id : AppId) (p : Option ProxyInfo) (m : Manager) :
    (m.setProxy id p).checkList = m.checkList := rfl

@[simp] theorem setProxy_connects (id : AppId) (p : Option ProxyInfo) (m : Manager) :
    (m.setProxy id p).connects = m.connects := rfl

@[simp] theorem setProxy_self (id : AppId) (p : Option ProxyInfo) (m : Manager) : (m.setProxy id p).proxySet id = p := by
  simp only [Manager.setProxy, Function.update_self]

theorem setProxy_ne {id other : AppId} (h : other ≠ id) (p : Option ProxyInfo) (m : Manager) :
    (m.setProxy id p).proxySet other = m.proxySet other := by
  simp only [Manager.setProxy, Function.update_of_ne h]

/-- what each proxy of the list keeps `reset` establishes -/
theorem reset_induct (I : Manager → Prop) {allProxys : List ProxyInfo}
    (hempty : I { m with proxySet := fun _ => none, checkList := [] }) (hone : ∀ m p, I m → I (resetOne e m p)) :
    I (reset e allProxys m) :=
  List.foldlRecOn allProxys (resetOne e) hempty fun m hm p _ => hone m p hm

/-! ## Rounds -/

/-- an entry whose proxy is looked at -/
structure Manager.Due (ci : CheckInfo) (p : ProxyInfo) (m : Manager) : Prop where
  found : m.proxySet ci.proxyId = some p
  other : ci.proxyId ≠ m.app.id
  listens : p.etcdNode.listens ≠ []
  latest : p.nextActionTime ≤ ci.timeoutSec

/-- all that a round can do with its entry -/
inductive Checked (e : BusEnv) (available : String → String → Bool) (ci : CheckInfo) (m : Manager) : ℕ × Manager → Prop
  | skip (h : ∀ p, ¬ m.Due ci p) : Checked e available ci m (0, m)
  | settle {p : ProxyInfo} {bus : BusNode} (hdue : m.Due ci p) (hbus : m.app.busNode = some bus)
      (h : ci.proxyId ∈ bus.endpoints ∨ p.isAvailable = false) :
      Checked e available ci m (0, m.setProxy ci.proxyId (some { p with nextActionTime := 0 }))
  | wait {p : ProxyInfo} (hdue : m.Due ci p) (hbus : m.app.busNode = none) :
      Checked e available ci m (0, m.recheck ci.proxyId p (m.app.now + 1))
  | connect {p : ProxyInfo} {bus : BusNode} (hdue : m.Due ci p) (hbus : m.app.busNode = some bus)
      (hlost : ci.proxyId ∉ bus.endpoints) (havailable : p.isAvailable = true) :
      Checked e available ci m
        (tryConnect e (available p.etcdNode.hostname) ci.proxyId { p with nextActionTime := 0 } bus m)

theorem check_checked (e : BusEnv) (available : String → String → Bool) (ci : CheckInfo) (m : Manager) :
    Checked e available ci m (check e available ci m) := by
  unfold check
  split_ifs with hself
  · exact .skip fun p h => h.other hself
  · split
    · next hnone => exact .skip fun p h => nomatch hnone.symm.trans h.found
    · next p hp =>
      split_ifs with hlistens hlater
      · refine .skip fun q h => h.listens ?_
        cases hp.symm.trans h.found
        exact hlistens
      · refine .skip fun q h => not_lt.2 h.latest ?_
        cases hp.symm.trans h.found
        exact hlater
      · have hdue : m.Due ci p := ⟨hp, hself, hlistens, not_lt.1 hlater⟩
        split
        · next bus hbus =>
          simp only
          split_ifs with hconnected havailable
          · exact .settle hdue hbus (.inl hconnected)
          · exact .settle hdue hbus (.inr havailable)
          · exact .connect hdue hbus hconnected (Bool.eq_true_of_not_eq_false havailable)
        · next hbus => exact .wait hdue hbus

theorem now_lt_retryTime (app : App) (bus : BusNode) : app.now < app.retryTime bus := by
  unfold App.retryTime
  split_ifs with h
  · exact lt_add_one app.now
  · exact not_le.1 h

theorem now_lt_lostTime {app : App} (hrunning : app.stopping = false) : app.now < app.lostTime := by
  unfold App.lostTime
  rw [if_pos (by rw [hrunning]; exact Bool.false_ne_true)]
  split
  · split_ifs with hpos
    · exact lt_add_of_pos_right _ hpos
    · exact lt_add_one _
  · exact lt_add_one _

theorem Checked.app {r : ℕ × Manager} (h : Checked e available ci m r) : r.2.app = m.app := by
  cases h <;> rfl

/-- an entry that is put on the list again is not due before the next second -/
theorem Checked.checkList {r : ℕ × Manager} (h : Checked e available ci m r) :
    r.2.checkList = m.checkList ∨ ∃ t, m.app.now < t ∧ r.2.checkList = m.checkList ++ [⟨t, ci.proxyId⟩] := by
  cases h with
  | skip => exact .inl rfl
  | settle => exact .inl rfl
  | wait => exact .inr ⟨_, lt_add_one _, rfl⟩
  | connect hdue hbus => exact .inr ⟨_, now_lt_retryTime _ _, rfl⟩

/-- the entries that are due -/
def Manager.overdue (m : Manager) : ℕ := m.checkList.countP fun ci => ci.timeoutSec < m.app.now

theorem overdue_check {rest : List CheckInfo} (hlist : m.checkList = ci :: rest) (hdue : ci.timeoutSec < m.app.now) :
    (check e available ci { m with checkList := rest }).2.overdue + 1 = m.overdue := by
  have hchecked := check_checked e available ci { m with checkList := rest }
  have hcons : m.overdue = rest.countP (fun ci => ci.timeoutSec < m.app.now) + 1 := by
    unfold Manager.overdue
    rw [hlist, List.countP_cons_of_pos (by simpa only [decide_eq_true_eq] using hdue)]
  rw [hcons]
  unfold Manager.overdue
  rw [hchecked.app]
  rcases hchecked.checkList with hsame | ⟨t, ht, hadded⟩
  · rw [hsame]
  · have hlater : ¬ t < m.app.now := not_lt.2 ht.le
    rw [hadded, List.countP_append]
    simp only [List.countP_singleton, hlater, decide_false, Bool.false_eq_true, if_false, add_zero]

/-- **The rounds end** within one for each entry that is due. -/
theorem tickRounds_ends (available : String → String → Bool) {n : ℕ} {m : Manager} (hn : m.overdue < n) :
    ∃ r, tickRounds e available n m = some r := by
  induction n generalizing m with
  | zero => exact absurd hn (Nat.not_lt_zero _)
  | succ n ih =>
    unfold tickRounds
    split
    · exact ⟨_, rfl⟩
    · next ci rest hlist =>
      split_ifs with hlater
      · exact ⟨_, rfl⟩
      · have hone : (check e available ci { m with checkList := rest }).2.overdue + 1 = m.overdue :=
          overdue_check hlist (not_le.1 hlater)
        have hfewer : (check e available ci { m with checkList := rest }).2.overdue < n := by omega
        obtain ⟨r, hr⟩ := ih hfewer
        exact ⟨_, congrArg (Option.map _) hr⟩

theorem tickRounds_tick (available : String → String → Bool) (m : Manager) :
    tickRounds e available (m.checkList.length + 1) m = some (tick e available m) := by
  have hlen : m.overdue < m.checkList.length + 1 := Nat.lt_succ_of_le List.countP_le_length
  obtain ⟨r, hr⟩ : ∃ r, tickRounds e available (m.checkList.length + 1) m = some r := tickRounds_ends available hlen
  rw [tick, hr, Option.getD_some]

/-- **What each round keeps** a tick keeps. -/
theorem tick_induct (I : Manager → Prop) (hround : ∀ {m : Manager} {ci rest}, m.checkList = ci :: rest →
      ci.timeoutSec < m.app.now → I m → I (check e available ci { m with checkList := rest }).2) (hm : I m) :
    I (tick e available m).2 := by
  have hrounds : ∀ {n : ℕ} {m : Manager} {r : ℕ × Manager}, tickRounds e available n m = some r → I m → I r.2 := by
    intro n
    induction n with
    | zero => exact fun h => nomatch h
    | succ n ih =>
      intro m r h hm
      unfold tickRounds at h
      split at h
      · cases h
        exact hm
      · next ci rest hlist =>
        split_ifs at h with hlater
        · cases h
          exact hm
        · obtain ⟨last, hlast, hr⟩ := Option.map_eq_some_iff.1 h
          have hkept := ih hlast (hround hlist (not_le.1 hlater) hm)
          rwa [← hr]
  exact hrounds (tickRounds_tick available m) hm

/-! ## A peer -/

/-- another proxy -/
def peer : NodeInfo where
  id := 7
  name := "atproxy-7"
  listens := ["ipv4://10.0.0.7:21437", "ipv4://10.0.1.7:21437", "unix:///tmp/atproxy-7.sock"]
  version := "1.1.0.0"
  atbusProtocolVersion := 2
  atbusProtocolMinVersion := 2
  action := .put

/-- a proxy of id 1 that looks at a lost connection again behind five seconds -/
def proxyApp : App where
  id := 1
  now := 100
  stopping := false
  busNode := some ⟨[], 5, 2, 2⟩

def proxyBus : BusEnv := ⟨fun _ => 0, 2, 2⟩

/-- the socket of the peer is not available on another machine -/
def remote (_ address : String) : Bool := address ≠ "unix:///tmp/atproxy-7.sock"

end AtFrame.Proxy
