/-
The table of the proxies compared with what the watcher has told.

`set` drops what it is told while an action of the proxy is pending, and it looks at the protocol versions of a proxy only
when the proxy is new.

- `step_tableHolds`: what one event does where it does not meet a put like that;
- `table_holds_iff`: the table holds the latest information behind every notification exactly if there is none;
- `update_dropped`: what is put while a connect is being tried again is lost.

Premise: nobody but the watcher writes the table (`Event.Watched`). The condition is on each put, in the state in which it comes.
Witness `table_holds_updateInTime`: an update that comes while no action is pending.
-/
import AtFrame.Proxy.Rotation

namespace AtFrame.Proxy

open AtFrame.EtcdModule AtFrame.Lib

variable {e : BusEnv} {m m' : Manager} {id : AppId} {p q : ProxyInfo} {ci : CheckInfo} {node : NodeInfo} {ticked : Bool}

/-! ## Notifications -/

/-- of each proxy that was put and not removed since: what was put last, and whether there was a tick since -/
abbrev Known := AppId → Option (NodeInfo × Bool)

def tell (known : Known) : Event → Known
  | .notify node => Function.update known node.id (if node.action = .delete then none else some (node, false))
  | .tick _ => fun id => (known id).map fun k => (k.1, true)
  | _ => known

/-- the last notifications of a run -/
def told (events : List Event) : Known := events.foldl tell fun _ => none

variable {known : Known}

/-- an entry for what was put last: ticks may have turned the addresses -/
structure Shows (e : BusEnv) (app : App) (node : NodeInfo) (ticked : Bool) (p : ProxyInfo) : Prop where
  rotated : ∃ k, p.etcdNode = { node with listens := node.listens.rotate k }
  fresh : ticked = false → p.etcdNode = node
  available : p.isAvailable = checkAvailable e app node

/-- there is an entry for each proxy whose last notification is a put, and for no other -/
structure TableHolds (e : BusEnv) (m : Manager) (known : Known) : Prop where
  absent : ∀ id, known id = none → m.proxySet id = none
  present : ∀ id node ticked, known id = some (node, ticked) → ∃ p, m.proxySet id = some p ∧ Shows e m.app node ticked p

/-- what the watcher and the bus node call, and the clock -/
def Event.Watched : Event → Prop
  | .set _ | .remove _ | .reset _ => False
  | _ => True

instance : DecidablePred Event.Watched := by
  rintro (_ | _) <;> dsimp only [Event.Watched] <;> infer_instance

/-- a put for a proxy of the table comes while no action is pending, or tells what is in the table, and its versions are
available exactly if those the proxy came with were -/
def Event.Fits (e : BusEnv) (m : Manager) : Event → Prop
  | .notify node => node.action ≠ .delete → ∀ p, m.proxySet node.id = some p →
      (p.nextActionTime < m.app.now ∨ p.etcdNode = node) ∧ p.isAvailable = checkAvailable e m.app node
  | _ => True

instance (e : BusEnv) (m : Manager) : DecidablePred (Event.Fits e m) := fun ev => by
  cases ev with
  | notify node => exact inferInstanceAs (Decidable (node.action ≠ .delete → ∀ p ∈ m.proxySet node.id,
      (p.nextActionTime < m.app.now ∨ p.etcdNode = node) ∧ p.isAvailable = checkAvailable e m.app node))
  | _ => exact .isTrue trivial

theorem Shows.of_eq (hnode : p.etcdNode = node) (havailable : p.isAvailable = checkAvailable e m.app node) (ticked : Bool) :
    Shows e m.app node ticked p :=
  ⟨⟨0, by rw [hnode, List.rotate_zero]⟩, fun _ => hnode, havailable⟩

theorem checkAvailable_setEndpoints (f : List AppId → List AppId) (app : App) (node : NodeInfo) :
    checkAvailable e (app.setEndpoints f) node = checkAvailable e app node := by
  unfold checkAvailable App.setEndpoints
  cases app.busNode <;> rfl

theorem Shows.turned (h : Shows e m.app node ticked p) (available : String → Bool) :
    Shows e m.app node true (p.turned available) := by
  obtain ⟨k, hk⟩ := h.rotated
  obtain ⟨j, hj⟩ := next_selectListen_rotate available p.etcdNode.listens
  refine ⟨⟨k + j, ?_⟩, (fun hfresh => nomatch hfresh), h.available⟩
  rw [ProxyInfo.turned, hj, hk, List.rotate_rotate]

/-! ## One event -/

/-- the entries show the same -/
theorem TableHolds.same (h : TableHolds e m known) (hcheck : ∀ node, checkAvailable e m'.app node = checkAvailable e m.app node)
    (hnone : ∀ id, m.proxySet id = none → m'.proxySet id = none)
    (hsome : ∀ id p, m.proxySet id = some p →
      ∃ p', m'.proxySet id = some p' ∧ p'.etcdNode = p.etcdNode ∧ p'.isAvailable = p.isAvailable) : TableHolds e m' known := by
  refine ⟨fun id hid => hnone id (h.absent id hid), fun id node ticked hid => ?_⟩
  obtain ⟨p, hp, hshows⟩ := h.present id node ticked hid
  obtain ⟨p', hp', hnode, havailable⟩ := hsome id p hp
  refine ⟨p', hp', hnode ▸ hshows.rotated, fun hfresh => hnode.trans (hshows.fresh hfresh), ?_⟩
  rw [havailable, hcheck]
  exact hshows.available

/-- one entry is written -/
theorem TableHolds.setProxy (h : TableHolds e m known) (hp : m.proxySet id = some p) (happ : m'.app = m.app)
    (hset : m'.proxySet = (m.setProxy id (some q)).proxySet)
    (hq : ∀ node ticked, known id = some (node, ticked) → Shows e m.app node ticked p → Shows e m.app node ticked q) :
    TableHolds e m' known := by
  refine ⟨fun other hother => ?_, fun other node ticked hother => ?_⟩
  · have hnone := h.absent other hother
    have hne : other ≠ id := by
      rintro rfl
      exact nomatch hnone.symm.trans hp
    rw [hset, setProxy_ne hne, hnone]
  · obtain ⟨r, hr, hshows⟩ := h.present other node ticked hother
    rw [hset, happ]
    by_cases hne : other = id
    · subst hne
      cases hp.symm.trans hr
      exact ⟨q, setProxy_self _ _ _, hq node ticked hother hshows⟩
    · exact ⟨r, (setProxy_ne hne _ _).trans hr, hshows⟩

theorem Shows.of_same (h : Shows e m.app node ticked p) (hnode : q.etcdNode = p.etcdNode)
    (havailable : q.isAvailable = p.isAvailable) : Shows e m.app node ticked q :=
  ⟨hnode ▸ h.rotated, fun hfresh => hnode.trans (h.fresh hfresh), havailable.trans h.available⟩

theorem check_tableHolds {available : String → String → Bool} (h : TableHolds e m known)
    (hticked : ∀ id node ticked, known id = some (node, ticked) → ticked = true) :
    TableHolds e (check e available ci m).2 known := by
  have hchecked := check_checked e available ci m
  generalize check e available ci m = r at hchecked
  cases hchecked with
  | skip => exact h
  | settle hdue => exact h.setProxy hdue.found rfl rfl fun _ _ _ hshows => hshows.of_same rfl rfl
  | wait hdue => exact h.setProxy hdue.found rfl rfl fun _ _ _ hshows => hshows.of_same rfl rfl
  | @connect p bus hdue =>
    refine h.setProxy hdue.found rfl rfl fun node ticked hknown hshows => ?_
    obtain rfl := hticked _ node ticked hknown
    exact (hshows.turned (available p.etcdNode.hostname)).of_same rfl rfl

theorem tick_tableHolds (h : TableHolds e m known) (available : String → String → Bool) :
    TableHolds e (tick e available m).2 (tell known (.tick available)) := by
  have hstart : TableHolds e m (tell known (.tick available)) := by
    refine ⟨fun id hid => h.absent id (Option.map_eq_none_iff.1 hid), fun id node ticked hid => ?_⟩
    obtain ⟨⟨old, before⟩, hold, heq⟩ := Option.map_eq_some_iff.1 hid
    cases heq
    obtain ⟨p, hp, hshows⟩ := h.present id old before hold
    exact ⟨p, hp, hshows.rotated, (fun hfresh => nomatch hfresh), hshows.available⟩
  have hticked : ∀ id node ticked, tell known (.tick available) id = some (node, ticked) → ticked = true := by
    intro id node ticked hid
    obtain ⟨k, -, heq⟩ := Option.map_eq_some_iff.1 hid
    cases heq
    rfl
  refine tick_induct (fun m' => TableHolds e m' _) (fun _ _ hm => check_tableHolds ?_ hticked) hstart
  exact hm.same (fun _ => rfl) (fun _ h => h) fun _ p hp => ⟨p, hp, rfl, rfl⟩

theorem remove_tableHolds (h : TableHolds e m known) (id : AppId) :
    TableHolds e (remove id m) (Function.update known id none) := by
  refine ⟨fun other hother => ?_, fun other node ticked hother => ?_⟩
  · by_cases hne : other = id
    · subst hne
      exact setProxy_self _ _ _
    · rw [Function.update_of_ne hne] at hother
      exact (setProxy_ne hne _ _).trans (h.absent other hother)
  · by_cases hne : other = id
    · subst hne
      rw [Function.update_self] at hother
      exact nomatch hother
    · rw [Function.update_of_ne hne] at hother
      obtain ⟨p, hp, hshows⟩ := h.present other node ticked hother
      exact ⟨p, (setProxy_ne hne _ _).trans hp, hshows⟩

/-- behind a put the entry is the one that `set` finds or writes -/
theorem set_proxySet (node : NodeInfo) (m : Manager) : ∃ p, (set e node m).proxySet = (m.setProxy node.id (some p)).proxySet ∧
    (m.proxySet node.id = none → p = ⟨node, m.app.now, checkAvailable e m.app node⟩) ∧
    ∀ q, m.proxySet node.id = some q → p.isAvailable = q.isAvailable ∧
      p.etcdNode = if m.app.now ≤ q.nextActionTime then q.etcdNode else node := by
  unfold set
  simp only
  split
  · next q hq =>
    split_ifs with hpending
    · refine ⟨q, ?_, (fun hnone => nomatch hnone.symm.trans hq), fun r hr => ?_⟩
      · simp only [Manager.setProxy, ← hq, Function.update_eq_self]
      · cases hq.symm.trans hr
        exact ⟨rfl, (if_pos hpending).symm⟩
    · refine ⟨_, rfl, (fun hnone => nomatch hnone.symm.trans hq), fun r hr => ?_⟩
      cases hq.symm.trans hr
      exact ⟨rfl, (if_neg hpending).symm⟩
  · next hnone => exact ⟨_, rfl, fun _ => rfl, fun q hq => nomatch hnone.symm.trans hq⟩

theorem set_app (node : NodeInfo) (m : Manager) : (set e node m).app = m.app := by
  unfold set
  simp only
  split
  · split_ifs <;> rfl
  · rfl

theorem set_tableHolds (h : TableHolds e m known) (hfits : ∀ p, m.proxySet node.id = some p →
      (p.nextActionTime < m.app.now ∨ p.etcdNode = node) ∧ p.isAvailable = checkAvailable e m.app node) :
    TableHolds e (set e node m) (Function.update known node.id (some (node, false))) := by
  obtain ⟨p, hset, hnew, hknown⟩ := @set_proxySet e node m
  have hshows : Shows e m.app node false p := by
    cases hfound : m.proxySet node.id with
    | none =>
      have hp := hnew hfound
      exact .of_eq (by rw [hp]) (by rw [hp]) false
    | some q =>
      obtain ⟨htime, havailable⟩ := hfits q hfound
      obtain ⟨hsame, hnode⟩ := hknown q hfound
      refine .of_eq ?_ (hsame.trans havailable) false
      rw [hnode]
      split_ifs with hpending
      · exact htime.resolve_left (not_lt.2 hpending)
      · rfl
  refine ⟨fun other hother => ?_, fun other node' ticked hother => ?_⟩
  · have hne : other ≠ node.id := by
      rintro rfl
      rw [Function.update_self] at hother
      exact nomatch hother
    rw [Function.update_of_ne hne] at hother
    rw [hset, setProxy_ne hne, h.absent other hother]
  · rw [hset, set_app]
    by_cases hne : other = node.id
    · subst hne
      rw [Function.update_self] at hother
      cases hother
      exact ⟨p, setProxy_self _ _ _, hshows⟩
    · rw [Function.update_of_ne hne] at hother
      obtain ⟨q, hq, hold⟩ := h.present other node' ticked hother
      exact ⟨q, (setProxy_ne hne _ _).trans hq, hold⟩

theorem onDisconnected_tableHolds (h : TableHolds e m known) (id : AppId) : TableHolds e (onDisconnected id m) known := by
  unfold onDisconnected
  split
  · exact h
  · next p hp =>
    split_ifs
    · exact h.setProxy hp rfl rfl fun _ _ _ hshows => hshows.of_same rfl rfl
    · exact h

/-- **One event** that fits keeps the table. -/
theorem step_tableHolds (h : TableHolds e m known) {ev : Event} (hwatched : ev.Watched) (hfits : ev.Fits e m) :
    TableHolds e (step e m ev) (tell known ev) := by
  have hendpoints : ∀ f, TableHolds e { m with app := m.app.setEndpoints f } known := fun f =>
    h.same (fun node => checkAvailable_setEndpoints f m.app node) (fun _ h => h) fun _ p hp => ⟨p, hp, rfl, rfl⟩
  cases ev with
  | set | remove | reset => exact hwatched.elim
  | notify node =>
    simp only [step, onWatcherNotify, tell]
    split_ifs with hdelete
    · exact remove_tableHolds h node.id
    · exact set_tableHolds h (hfits hdelete)
  | tick available => exact tick_tableHolds h available
  | connected id => exact hendpoints _
  | disconnected id => exact onDisconnected_tableHolds (hendpoints _) id
  | clock now => exact h.same (fun _ => rfl) (fun _ h => h) fun _ p hp => ⟨p, hp, rfl, rfl⟩

/-! ## Runs -/

theorem tableHolds_start (e : BusEnv) (app : App) : TableHolds e (.start app) (told []) :=
  ⟨fun _ _ => rfl, fun _ _ _ h => nomatch h⟩

theorem run_tableHolds (h : TableHolds e m known) {events : List Event} (hwatched : ∀ ev ∈ events, ev.Watched)
    (hfits : Meets (step e) (Event.Fits e) m events) : TableHolds e (run e m events) (events.foldl tell known) := by
  induction events generalizing m known with
  | nil => exact h
  | cons ev events ih =>
    have hone := step_tableHolds h (hwatched ev List.mem_cons_self) hfits.1
    exact ih hone (fun ev' hev' => hwatched ev' (List.mem_cons_of_mem ev hev')) hfits.2

/-- a put behind which the table holds fits -/
theorem fits_of_tableHolds (hput : node.action ≠ .delete)
    (h : TableHolds e (step e m (.notify node)) (tell known (.notify node))) : Event.Fits e m (.notify node) := by
  intro _ q hq
  obtain ⟨p, hset, -, hknown⟩ := @set_proxySet e node m
  obtain ⟨hsame, hnode⟩ := hknown q hq
  have htold : tell known (.notify node) node.id = some (node, false) := by
    simp only [tell, if_neg hput, Function.update_self]
  obtain ⟨r, hr, hshows⟩ := h.present node.id node false htold
  simp only [step, onWatcherNotify, if_neg hput, hset, setProxy_self, Option.some.injEq] at hr hshows
  subst hr
  rw [set_app] at hshows
  refine ⟨?_, hsame.symm.trans hshows.available⟩
  rw [hshows.fresh rfl] at hnode
  split_ifs at hnode with hpending
  · exact .inr hnode.symm
  · exact .inl (not_le.1 hpending)

/-- **The table holds the latest information** behind every notification exactly if no put for a proxy of the table comes
while an action of the proxy is pending and tells something new, or would be available otherwise than the proxy is. -/
theorem table_holds_iff {app : App} {events : List Event} (hwatched : ∀ ev ∈ events, ev.Watched) :
    (∀ before node after, events = before ++ .notify node :: after →
      TableHolds e (run e (.start app) (before ++ [.notify node])) (told (before ++ [.notify node]))) ↔
      Meets (step e) (Event.Fits e) (.start app) events := by
  constructor
  · intro h
    suffices hrest : ∀ rest before, events = before ++ rest → Meets (step e) (Event.Fits e) (.start app) before →
        Meets (step e) (Event.Fits e) (run e (.start app) before) rest from hrest events [] rfl trivial
    intro rest
    induction rest with
    | nil => exact fun _ _ _ => trivial
    | cons ev rest ih =>
      intro before hsplit hbefore
      have hfits : ev.Fits e (run e (.start app) before) := by
        cases ev with
        | notify node =>
          by_cases hput : node.action = .delete
          · exact fun hnot => absurd hput hnot
          · have hbehind := h before node rest hsplit
            simp only [run, told, List.foldl_append, List.foldl_cons, List.foldl_nil] at hbehind
            exact fits_of_tableHolds hput hbehind
        | set | remove | reset | tick | connected | disconnected | clock => exact trivial
      refine ⟨hfits, ?_⟩
      have hnext := ih (before ++ [ev]) (by rw [hsplit, List.append_assoc, List.singleton_append])
        ((meets_append _ _ _).2 ⟨hbefore, hfits, trivial⟩)
      simpa only [run, List.foldl_append, List.foldl_cons, List.foldl_nil] using hnext
  · rintro hfits before node after rfl
    rw [← List.singleton_append, ← List.append_assoc] at hfits hwatched
    exact run_tableHolds (tableHolds_start e app) (fun ev hev => hwatched ev (List.mem_append_left after hev))
      ((meets_append _ _ _).1 hfits).1

/-- the peer behind an update -/
def peerUpdated : NodeInfo := { peer with listens := ["ipv4://10.0.2.7:21437"], version := "1.2.0.0" }

/-- the peer is updated before the first look at it -/
def updateInTime : List Event := [.notify peer, .clock 101, .notify peerUpdated, .clock 102, .tick remote]

theorem table_holds_updateInTime :
    (∀ before node after, updateInTime = before ++ .notify node :: after →
      TableHolds proxyBus (run proxyBus (.start proxyApp) (before ++ [.notify node])) (told (before ++ [.notify node]))) ↔
      Meets (step proxyBus) (Event.Fits proxyBus) (.start proxyApp) updateInTime :=
  table_holds_iff (by decide)

/-- the peer is updated while a connect to it is to be tried again -/
def updateInRetry : List Event := [.notify peer, .clock 101, .tick remote, .clock 102, .notify peerUpdated]

theorem update_dropped :
    (∀ ev ∈ updateInRetry, ev.Watched) ∧ Meets (step proxyBus) Event.Onward (.start proxyApp) updateInRetry ∧
      ¬ ∀ before node after, updateInRetry = before ++ .notify node :: after →
        TableHolds proxyBus (run proxyBus (.start proxyApp) (before ++ [.notify node])) (told (before ++ [.notify node])) := by
  refine ⟨by decide, by decide +kernel, fun h => ?_⟩
  have hlast := h [.notify peer, .clock 101, .tick remote, .clock 102] peerUpdated [] rfl
  obtain ⟨p, hp, hshows⟩ := hlast.present 7 peerUpdated false rfl
  have hold : ((run proxyBus (.start proxyApp) updateInRetry).proxySet 7).map (fun p => p.etcdNode.version) =
      some "1.1.0.0" := by decide +kernel
  rw [show (run proxyBus (.start proxyApp) updateInRetry).proxySet 7 = some p from hp, Option.map_some,
    hshows.fresh rfl] at hold
  exact absurd hold (by decide)

end AtFrame.Proxy
