/-
The schedule for connecting to the other proxies: no proxy that could be connected to is forgotten.

An entry of the list may be an old one of a proxy that was removed and added again, or of one that has a later entry. It is
passed over where `next_action_time` is behind its time, and then the later entry is still there. `next_action_time` goes back
to 0 only where the proxy is connected or not available, and a connection that is lost is put on the list then.

- `Inv`: a proxy has an entry that will not be passed over, or `next_action_time` is 0 and the proxy is connected;
- `check_inv`, `tick_inv`, `step_inv`: every call keeps this;
- `reachable_scheduled`: no proxy is forgotten, and `tick` ends.

Premises: the clock is positive and does not go back (`Event.Onward`), and the application is not stopping. Watcher, bus node and
timer call in any order, with any answers of the connects. Witness `reachable_scheduled_comesBack`: a proxy that is removed and
added again while its old entry is still on the list.
-/
import AtFrame.Proxy.Manager

namespace AtFrame.Proxy

open AtFrame.EtcdModule AtFrame.Lib

variable {e : BusEnv} {m m' : Manager} {id : AppId} {p : ProxyInfo} {ci : CheckInfo} {rest : List CheckInfo}

/-! ## Invariant -/

/-- a proxy of the table that is to be connected to -/
structure Manager.Wanted (m : Manager) (id : AppId) (p : ProxyInfo) : Prop where
  found : m.proxySet id = some p
  other : id ≠ m.app.id
  listens : p.etcdNode.listens ≠ []
  available : p.isAvailable = true

/-- an entry of the proxy is not passed over -/
def Manager.Pending (m : Manager) (id : AppId) (p : ProxyInfo) : Prop :=
  ∃ ci ∈ m.checkList, ci.proxyId = id ∧ p.nextActionTime ≤ ci.timeoutSec

/-- the bus node has the proxy as an endpoint -/
def Manager.Connected (m : Manager) (id : AppId) : Prop := ∃ bus ∈ m.app.busNode, id ∈ bus.endpoints

/-- every proxy that is to be connected to, and is not connected, will be looked at -/
def Manager.Scheduled (m : Manager) : Prop := ∀ id p, m.Wanted id p → ¬ m.Connected id → m.Pending id p

structure Inv (m : Manager) : Prop where
  now : 0 < m.app.now
  running : m.app.stopping = false
  watched : ∀ id p, m.Wanted id p → m.Pending id p ∨ p.nextActionTime = 0 ∧ m.Connected id

theorem Inv.scheduled (h : Inv m) : m.Scheduled := by
  intro id p hwanted hlost
  rcases h.watched id p hwanted with hpending | ⟨-, hconnected⟩
  · exact hpending
  · exact absurd hconnected hlost

theorem inv_start {app : App} (hnow : 0 < app.now) (hrunning : app.stopping = false) : Inv (.start app) :=
  ⟨hnow, hrunning, fun _ _ h => nomatch h.found⟩

theorem Manager.Pending.mono (h : m.Pending id p) (hlist : m.checkList ⊆ m'.checkList) : m'.Pending id p := by
  obtain ⟨ci, hci, hid, hlater⟩ := h
  exact ⟨ci, hlist hci, hid, hlater⟩

/-- one proxy is changed, and the entries of the others stay -/
theorem Inv.touch (h : Inv m) (happ : m'.app = m.app) (touched : AppId)
    (hothers : ∀ id ≠ touched, m'.proxySet id = m.proxySet id ∧ ∀ p, m.Pending id p → m'.Pending id p)
    (htouched : ∀ p, m'.Wanted touched p → m'.Pending touched p ∨ p.nextActionTime = 0 ∧ m'.Connected touched) : Inv m' := by
  refine ⟨happ ▸ h.now, happ ▸ h.running, fun id p hwanted => ?_⟩
  by_cases hid : id = touched
  · subst hid
    exact htouched p hwanted
  · obtain ⟨hfound, hpending⟩ := hothers id hid
    have hold : m.Wanted id p := ⟨hfound ▸ hwanted.found, happ ▸ hwanted.other, hwanted.listens, hwanted.available⟩
    refine (h.watched id p hold).imp (hpending p) fun hidle => ⟨hidle.1, ?_⟩
    unfold Manager.Connected
    rw [happ]
    exact hidle.2

/-- a proxy is written together with an entry that is due when its `next_action_time` says -/
theorem Inv.schedule (h : Inv m) (p : ProxyInfo) {id : AppId} (happ : m'.app = m.app)
    (hset : m'.proxySet = (m.setProxy id (some p)).proxySet) (hlist : m.checkList ⊆ m'.checkList)
    (hentry : ⟨p.nextActionTime, id⟩ ∈ m'.checkList) : Inv m' := by
  refine h.touch happ id (fun other hother => ⟨?_, fun q hq => hq.mono hlist⟩) fun q hwanted => .inl ?_
  · rw [hset, setProxy_ne hother]
  · have hq := hwanted.found
    rw [hset, setProxy_self] at hq
    cases hq
    exact ⟨_, hentry, rfl, le_rfl⟩

theorem Inv.recheck (h : Inv m) (id : AppId) (p : ProxyInfo) (timeout : ℤ) : Inv (m.recheck id p timeout) :=
  h.schedule { p with nextActionTime := timeout } rfl rfl (List.subset_append_left _ _)
    (List.mem_append_right _ (List.mem_singleton_self _))

/-! ## Table -/

theorem set_inv (h : Inv m) (node : NodeInfo) : Inv (set e node m) := by
  unfold set
  simp only
  split
  · split_ifs
    · exact h
    · exact h.schedule _ rfl rfl (List.subset_cons_self _ _) List.mem_cons_self
  · exact h.schedule _ rfl rfl (List.subset_cons_self _ _) List.mem_cons_self

theorem remove_inv (h : Inv m) (id : AppId) : Inv (remove id m) := by
  refine h.touch rfl id (fun other hother => ⟨setProxy_ne hother _ _, fun q hq => hq⟩) fun q hwanted => ?_
  have hq := hwanted.found
  rw [remove, setProxy_self] at hq
  exact nomatch hq

theorem resetOne_inv (h : Inv m) (p : ProxyInfo) : Inv (resetOne e m p) := by
  unfold resetOne
  simp only
  split_ifs
  · exact h
  · exact h.schedule _ rfl rfl (List.subset_cons_self _ _) List.mem_cons_self

theorem reset_inv (h : Inv m) (allProxys : List ProxyInfo) : Inv (reset e allProxys m) :=
  reset_induct Inv ⟨h.now, h.running, fun _ _ hq => nomatch hq.found⟩ fun _ p hm => resetOne_inv hm p

theorem onWatcherNotify_inv (h : Inv m) (node : NodeInfo) : Inv (onWatcherNotify e node m) := by
  unfold onWatcherNotify
  split_ifs
  · exact remove_inv h node.id
  · exact set_inv h node

/-! ## Endpoints -/

theorem connected_setEndpoints {f : List AppId → List AppId} {id : AppId} (hf : ∀ ids, id ∈ ids → id ∈ f ids)
    (h : m.Connected id) : Manager.Connected { m with app := m.app.setEndpoints f } id := by
  obtain ⟨bus, hbus, hid⟩ := h
  refine ⟨{ bus with endpoints := f bus.endpoints }, ?_, hf _ hid⟩
  rw [Option.mem_def] at hbus
  simp only [App.setEndpoints, hbus, Option.map_some, Option.mem_some_iff]

theorem connected_inv (h : Inv m) (id : AppId) : Inv { m with app := m.app.setEndpoints fun ids => id :: ids } := by
  refine ⟨h.now, h.running, fun other p hwanted => ?_⟩
  refine (h.watched other p ⟨hwanted.found, hwanted.other, hwanted.listens, hwanted.available⟩).imp_right fun hidle => ?_
  exact ⟨hidle.1, connected_setEndpoints (fun _ => List.mem_cons_of_mem id) hidle.2⟩

/-- a lost connection: the proxy is put on the list unless an entry is there that is due no earlier -/
theorem disconnected_inv (h : Inv m) (id : AppId) :
    Inv (onDisconnected id { m with app := m.app.setEndpoints fun ids => ids.filter (· ≠ id) }) := by
  set lost : Manager := { m with app := m.app.setEndpoints fun ids => ids.filter (· ≠ id) } with hlost
  have hothers : ∀ other q, other ≠ id → lost.Wanted other q →
      lost.Pending other q ∨ q.nextActionTime = 0 ∧ lost.Connected other := by
    intro other q hother hwanted
    refine (h.watched other q ⟨hwanted.found, hwanted.other, hwanted.listens, hwanted.available⟩).imp_right fun hidle => ?_
    refine ⟨hidle.1, connected_setEndpoints (fun ids hmem => ?_) hidle.2⟩
    exact List.mem_filter.2 ⟨hmem, decide_eq_true hother⟩
  unfold onDisconnected
  split
  · next hnone =>
    refine ⟨h.now, h.running, fun other q hwanted => hothers other q ?_ hwanted⟩
    rintro rfl
    exact nomatch hnone.symm.trans hwanted.found
  · next p hp =>
    have htime : 0 < lost.app.lostTime := h.now.trans (@now_lt_lostTime lost.app h.running)
    split_ifs with hearlier
    · refine ⟨h.now, h.running, fun other q hwanted => ?_⟩
      by_cases hother : other = id
      · subst hother
        have hq := hwanted.found
        simp only [Manager.recheck, setProxy_self, Option.some.injEq] at hq
        subst hq
        exact .inl ⟨_, List.mem_append_right _ (List.mem_singleton_self _), rfl, le_rfl⟩
      · have hfound : lost.proxySet other = some q := by
          rw [← setProxy_ne hother (some { p with nextActionTime := lost.app.lostTime }) lost]
          exact hwanted.found
        have hold := hothers other q hother ⟨hfound, hwanted.other, hwanted.listens, hwanted.available⟩
        exact hold.imp_left fun hpending => hpending.mono (List.subset_append_left _ _)
    · refine ⟨h.now, h.running, fun other q hwanted => ?_⟩
      by_cases hother : other = id
      · subst hother
        cases hp.symm.trans hwanted.found
        -- `next_action_time` is not 0, so there was an entry before the connection was lost
        refine .inl ((h.watched other p ⟨hp, hwanted.other, hwanted.listens, hwanted.available⟩).resolve_right fun hidle => ?_)
        rw [hidle.1] at hearlier
        exact hearlier htime
      · exact hothers other q hother hwanted

/-! ## Tick -/

/-- behind an entry that was taken off the list, unless it was one that is not passed over -/
theorem Manager.Pending.pop (h : m.Pending id p) (hlist : m.checkList = ci :: rest)
    (hearlier : id = ci.proxyId → ci.timeoutSec < p.nextActionTime) :
    Manager.Pending { m with checkList := rest } id p := by
  obtain ⟨entry, hentry, hid, hlater⟩ := h
  rw [hlist] at hentry
  rcases List.mem_cons.1 hentry with rfl | hentry
  · exact absurd (hearlier hid.symm) (not_lt.2 hlater)
  · exact ⟨entry, hentry, hid, hlater⟩

theorem check_inv {available : String → String → Bool} (h : Inv m) (hlist : m.checkList = ci :: rest) :
    Inv (check e available ci { m with checkList := rest }).2 := by
  set popped : Manager := { m with checkList := rest } with hpopped
  have hothers : ∀ id ≠ ci.proxyId, ∀ p, m.Pending id p → popped.Pending id p :=
    fun id hid p hp => hp.pop hlist fun hsame => absurd hsame hid
  have hchecked := check_checked e available ci popped
  -- an entry that is put on the list again is the one that is not passed over
  have hagain : ∀ (p : ProxyInfo) (timeout : ℤ) {m' : Manager}, m'.app = m.app →
      m'.proxySet = (popped.recheck ci.proxyId p timeout).proxySet →
      m'.checkList = (popped.recheck ci.proxyId p timeout).checkList → Inv m' := by
    intro p timeout m' happ hset hentries
    refine h.touch happ ci.proxyId (fun other hother => ⟨?_, fun q hq => (hothers other hother q hq).mono ?_⟩)
      fun q hwanted => .inl ?_
    · rw [hset]
      exact setProxy_ne hother _ popped
    · rw [hentries]
      exact List.subset_append_left _ _
    · have hq := hwanted.found
      rw [hset] at hq
      simp only [Manager.recheck, setProxy_self, Option.some.injEq] at hq
      subst hq
      refine ⟨⟨timeout, ci.proxyId⟩, ?_, rfl, le_rfl⟩
      rw [hentries]
      exact List.mem_append_right _ (List.mem_singleton_self _)
  generalize check e available ci popped = r at hchecked
  cases hchecked with
  | skip hskip =>
    refine h.touch rfl ci.proxyId (fun other hother => ⟨rfl, hothers other hother⟩) fun p hwanted => ?_
    have hearlier : ci.timeoutSec < p.nextActionTime := by
      by_contra hlater
      exact hskip p ⟨hwanted.found, hwanted.other, hwanted.listens, not_lt.1 hlater⟩
    refine (h.watched ci.proxyId p ⟨hwanted.found, hwanted.other, hwanted.listens, hwanted.available⟩).imp_left ?_
    exact fun hpending => hpending.pop hlist fun _ => hearlier
  | @settle p bus hdue hbus hsettled =>
    refine h.touch rfl ci.proxyId (fun other hother => ⟨setProxy_ne hother _ _, hothers other hother⟩) fun q hwanted => ?_
    have hq := hwanted.found
    rw [setProxy_self] at hq
    cases hq
    refine .inr ⟨rfl, bus, hbus, hsettled.resolve_right fun hunavailable => ?_⟩
    exact absurd (hunavailable.symm.trans hwanted.available) Bool.false_ne_true
  | wait hdue hbus => exact hagain _ _ rfl rfl rfl
  | connect hdue hbus hlost havailable => exact hagain _ _ rfl rfl rfl

theorem tick_inv (h : Inv m) (available : String → String → Bool) : Inv (tick e available m).2 :=
  tick_induct Inv (fun hlist _ hm => check_inv hm hlist) h

/-! ## Runs -/

theorem step_inv (h : Inv m) {ev : Event} (hev : ev.Onward m) : Inv (step e m ev) := by
  cases ev with
  | set node => exact set_inv h node
  | remove id => exact remove_inv h id
  | reset allProxys => exact reset_inv h allProxys
  | notify node => exact onWatcherNotify_inv h node
  | tick available => exact tick_inv h available
  | connected id => exact connected_inv h id
  | disconnected id => exact disconnected_inv h id
  | clock now =>
    have hclock : 0 < now := h.now.trans_le hev
    exact ⟨hclock, h.running, fun id p hwanted =>
      h.watched id p ⟨hwanted.found, hwanted.other, hwanted.listens, hwanted.available⟩⟩

/-- **No proxy is forgotten.** Whatever calls have been made, each proxy of the table other than the own one that has
addresses, is available and is not connected has an entry that is not passed over, and the next tick ends. -/
theorem reachable_scheduled {app : App} (hnow : 0 < app.now) (hrunning : app.stopping = false) {events : List Event}
    (honward : Meets (step e) Event.Onward (.start app) events) :
    (run e (.start app) events).Scheduled ∧
      ∀ available, ∃ n, tickRounds e available n (run e (.start app) events) =
        some (tick e available (run e (.start app) events)) :=
  ⟨(honward.invariant (fun _ _ h hev => step_inv h hev) (inv_start hnow hrunning)).scheduled, fun available =>
    ⟨_, tickRounds_tick available _⟩⟩

/-- the peer is connected, lost, removed and back again -/
def peerComesBack : List Event :=
  [.notify peer, .clock 101, .tick remote, .connected 7, .clock 110, .tick remote, .disconnected 7,
    .notify { peer with action := .delete }, .notify peer, .clock 111, .tick remote]

theorem reachable_scheduled_comesBack :
    (run proxyBus (.start proxyApp) peerComesBack).Scheduled ∧
      ∀ available, ∃ n, tickRounds proxyBus available n (run proxyBus (.start proxyApp) peerComesBack) =
        some (tick proxyBus available (run proxyBus (.start proxyApp) peerComesBack)) :=
  reachable_scheduled (by decide) rfl (by decide +kernel)

end AtFrame.Proxy
