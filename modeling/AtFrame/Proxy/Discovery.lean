/-
How the proxies find each other: the watcher by type name that `atproxy_manager::init` adds, with the manager behind it.

A node is published under the path of its type with its own id. What etcd sends of it comes in byte by byte, is cut into
documents, read, told to `on_watcher_notify`, and kept in `proxy_set_`. `Discovery.step` is the watcher's event with the calls
that it leads to.

- `Mirrors`: the notifications so far and the table of what was told;
- `Discovery.Inv.step`: every event keeps the invariant;
- `table_converges`: once all has come in, the table of the proxies is the content of the store.

Premises (`Discovery.Expects`): those of `Etcd.Replay` for the watcher; the keys of the watched range are those of plain nodes of
the type; a previous value, where etcd sends one, was put under the key before; and each put meets a table that takes it
(`Event.Fits`, the condition of `Proxy.Table`).
Witness `table_converges_peerPublished`: a peer publishes itself and is connected to. The watch is cut, the peer is lost,
connected to once more, and the next watch goes on behind what was told.
-/
import AtFrame.Etcd.NodeEvents
import AtFrame.Etcd.Publication
import AtFrame.Etcd.Replay
import AtFrame.Proxy.Table

namespace AtFrame.Proxy

open AtFrame.Etcd AtFrame.EtcdModule AtFrame.EtcdWatcher AtFrame.Lib

/-! ## Model -/

structure Discovery where
  watcher : EtcdWatcher.State
  manager : Manager

inductive DiscoveryEvent where
  | watcher (ev : WatcherEvent)
  | manager (ev : Proxy.Event)

/-- the events that `evt_handle_` gets with a notice -/
def noticeEvents : Notice → List EtcdWatcher.Event
  | .snapshot _ r | .response _ r => r.events
  | .watch _ => []

/-- the calls of `on_watcher_notify` that some notices lead to -/
def notifications (C : NodeCodec) (notices : List Notice) : List Proxy.Event :=
  ((Wrapper.one (some ())).calls C (notices.flatMap noticeEvents)).map fun call => .notify call.node

variable (C : NodeCodec) (e : EtcdEnv) (b : BusEnv)

/-- the notices of an event -/
def newNotices (w : EtcdWatcher.State) (ev : WatcherEvent) : List Notice :=
  (watcherEvent C.toCodec e w ev).log.drop w.log.length

def Discovery.step (d : Discovery) : DiscoveryEvent → Discovery
  | .watcher ev => ⟨watcherEvent C.toCodec e d.watcher ev, run b d.manager (notifications C (newNotices C e d.watcher ev))⟩
  | .manager ev => ⟨d.watcher, Proxy.step b d.manager ev⟩

def Discovery.run (d : Discovery) (events : List DiscoveryEvent) : Discovery := events.foldl (Discovery.step C e b) d

/-- behind `init` -/
def Discovery.start (conf : Conf) (typeName : Bytes) (app : App) : Discovery :=
  ⟨.start (conf.addWatcherByTypeName typeName), .start app⟩

/-! ## Statement -/

/-- `get_by_type_name_path` of a node of the type -/
def nodePath (conf : Conf) (typeName : Bytes) (id : UInt64) : Bytes := conf.byTypeNameWatcherPath typeName ++ slash ++ decimal id

/-- a change below the watched path: a node publishes itself, or is gone -/
inductive NodeChange (conf : Conf) (typeName : Bytes) : Change → Prop
  | put {src : NodeInfo} {kv : KeyValue} (hid : src.id ≠ 0) (hplain : src.Plain) (hkey : kv.key = nodePath conf typeName src.id)
      (hvalue : kv.value = C.pack src) : NodeChange conf typeName ⟨.put, kv⟩
  | delete {id : UInt64} {kv : KeyValue} (hid : id ≠ 0) (hkey : kv.key = nodePath conf typeName id) (hvalue : kv.value = []) :
      NodeChange conf typeName ⟨.delete, kv⟩

/-- what is required of an event: the keys of the range are those of nodes of the type, a previous value was put under the key
before, and what the table is told fits -/
def Discovery.Expects (conf : Conf) (typeName : Bytes) (d : Discovery) : DiscoveryEvent → Prop
  | .watcher ev =>
    Faithful C.toCodec d.watcher ev ∧
    (∀ changes, ev = .write changes → ∀ ch ∈ changes, d.watcher.range.Covers ch.kv.key → NodeChange C conf typeName ch) ∧
    (∀ gap object, ev = .push gap object → ∀ answer ∈ C.watchResponse object, ∀ event ∈ answer.2.events, ∀ kv ∈ event.prevKv,
      ∃ ch ∈ d.watcher.store.history, ch.evtType = .put ∧ ch.kv.key = event.key ∧ ch.kv.value = kv.value) ∧
    Meets (Proxy.step b) (Event.Fits b) d.manager (notifications C (newNotices C e d.watcher ev))
  | .manager ev => ev.Watched ∧ ∀ node, ev ≠ .notify node

/-! ## Events of nodes -/

variable {C e b} {conf : Conf} {typeName : Bytes} {ch : Change} {event : EtcdWatcher.Event} {known : Known}

/-- the node that a put tells of -/
def nodeOf (C : NodeCodec) (kv : KeyValue) : NodeInfo := { (C.unpack {} kv.key kv.value true).2 with action := .put }

theorem keyId_nodePath (hN : C.ReadsNumbers) (id : UInt64) : C.keyId (nodePath conf typeName id) = id := by
  unfold NodeCodec.keyId nodePath
  rw [lastPart_decimal, if_neg (decimal_ne_nil id), cString_decimal, hN.str2id_decimal]

theorem nodePath_inj (hN : C.ReadsNumbers) {id id' : UInt64} (h : nodePath conf typeName id = nodePath conf typeName id') :
    id = id' := by
  rw [← keyId_nodePath hN id, h, keyId_nodePath hN]

/-- an event tells of a change -/
structure Describes (C : NodeCodec) (conf : Conf) (typeName : Bytes) (event : EtcdWatcher.Event) (ch : Change) : Prop where
  change : event.change = some ch
  node : NodeChange C conf typeName ch
  prev : ∀ kv ∈ event.prevKv, ∃ src : NodeInfo, nodePath conf typeName src.id = ch.kv.key ∧ kv.value = C.pack src

theorem change_eq_some (h : event.change = some ch) : event.evtType = some ch.evtType ∧ event.kv = some ch.kv := by
  unfold EtcdWatcher.Event.change at h
  split at h
  · next hevt hkv =>
    cases h
    exact ⟨hevt, hkv⟩
  · exact nomatch h

theorem nodeOf_pack (hC : C.Inverse) {src : NodeInfo} (hplain : src.Plain) {kv : KeyValue} (hvalue : kv.value = C.pack src) :
    nodeOf C kv = { src with action := .put } := by
  rw [nodeOf, hvalue, publication_survives hC hplain]

/-- **The wrapper** hands on the node of the change. -/
theorem Describes.eventNode (hC : C.Inverse) (hN : C.ReadsNumbers) (h : Describes C conf typeName event ch) :
    ∃ node, C.eventNode event = some node ∧ node.id ≠ 0 ∧ nodePath conf typeName node.id = ch.kv.key ∧
      (ch.evtType = .put → node = nodeOf C ch.kv) ∧ (node.action = .delete ↔ ch.evtType = .delete) := by
  obtain ⟨hevt, hkv⟩ := change_eq_some h.change
  have hkey : event.key = ch.kv.key := by rw [EtcdWatcher.Event.key, hkv]; rfl
  have hvalue : event.value = ch.kv.value := by rw [EtcdWatcher.Event.value, hkv]; rfl
  have hid : ∃ id, id ≠ 0 ∧ C.eventId event = id ∧ nodePath conf typeName id = ch.kv.key := by
    unfold NodeCodec.eventId
    cases h.node with
    | @put src kv hid hplain hpath hpack =>
      have hround := roundTrips_of_inverse hC src
      refine ⟨src.id, hid, ?_, hpath.symm⟩
      rw [hvalue, show kv.value = C.pack src from hpack, if_pos hround.1, shownId_pack hround]
    | @delete id kv hid hpath hempty =>
      refine ⟨id, hid, ?_, hpath.symm⟩
      rw [hvalue, show kv.value = [] from hempty, if_neg (not_not.2 rfl)]
      cases hprev : event.prevKv with
      | none =>
        have hnone : event.prevValue = [] := by rw [EtcdWatcher.Event.prevValue, hprev]; rfl
        rw [if_neg (not_not.2 hnone), hkey, show kv.key = _ from hpath, keyId_nodePath hN]
      | some prev =>
        obtain ⟨src, hsrc, hpack⟩ := h.prev prev hprev
        have hround := roundTrips_of_inverse hC src
        have hsome : event.prevValue = C.pack src := by rw [EtcdWatcher.Event.prevValue, hprev, ← hpack]; rfl
        rw [hsome, if_pos hround.1, shownId_pack hround]
        exact nodePath_inj hN (hsrc.trans hpath)
  obtain ⟨id, hne, hshown, hpath⟩ := hid
  rcases eventNode_cases C event with ⟨hzero, -⟩ | ⟨-, node, hsome, hnode, haction⟩
  · exact absurd (hshown.symm.trans hzero) hne
  · have heq : node.id = id := hnode.trans hshown
    refine ⟨node, hsome, heq ▸ hne, heq ▸ hpath, fun hput => ?_, ?_⟩
    · have hfull : ch.kv.value ≠ [] := by
        cases h.node with
        | put _ _ _ hpack => exact hpack ▸ (roundTrips_of_inverse hC _).1
        | delete => exact EventType.noConfusion hput
      have hnot : event.evtType ≠ some .delete := fun hdel =>
        EventType.noConfusion (hput.symm.trans (Option.some.inj (hevt.symm.trans hdel)))
      unfold NodeCodec.eventNode at hsome
      simp only [hvalue, hkey, if_neg hfull, if_neg hnot] at hsome
      split_ifs at hsome
      exact (Option.some.inj hsome).symm
    · rw [haction, hevt]
      cases ch.evtType <;> decide

/-! ## The table -/

/-- of each node what was put last is what the table of keys holds -/
structure Mirrors (C : NodeCodec) (conf : Conf) (typeName : Bytes) (known : Known) (shown : Bytes → Option KeyValue) : Prop where
  zero : known 0 = none
  node : ∀ id, id ≠ 0 → (known id).map Prod.fst = (shown (nodePath conf typeName id)).map (nodeOf C)

theorem Mirrors.notify (hC : C.Inverse) (hN : C.ReadsNumbers) {shown : Bytes → Option KeyValue}
    (h : Mirrors C conf typeName known shown) (hevent : Describes C conf typeName event ch) {node : NodeInfo}
    (hnode : C.eventNode event = some node) :
    Mirrors C conf typeName (tell known (.notify node)) (Function.update shown ch.kv.key ch.stored) := by
  obtain ⟨node', hsome, hid, hpath, hput, hdelete⟩ := hevent.eventNode hC hN
  obtain rfl := Option.some.inj (hnode.symm.trans hsome)
  have hstored : (if node.action = .delete then none else some (node, false)).map Prod.fst = ch.stored.map (nodeOf C) := by
    unfold Change.stored
    cases hevt : ch.evtType with
    | put =>
      have hnot : node.action ≠ .delete := fun hdel => nomatch hevt.symm.trans (hdelete.1 hdel)
      rw [if_neg hnot, if_pos rfl, hput hevt]
      rfl
    | delete =>
      rw [if_pos (hdelete.2 hevt), if_neg (by decide)]
      rfl
  refine ⟨?_, fun id hne => ?_⟩
  · exact (Function.update_of_ne hid.symm _ _).trans h.zero
  · by_cases heq : id = node.id
    · subst heq
      rw [hpath, Function.update_self, ← hstored]
      exact congrArg (Option.map Prod.fst) (Function.update_self ..)
    · have hkey : nodePath conf typeName id ≠ ch.kv.key := fun hsame => heq (nodePath_inj hN (hsame.trans hpath.symm))
      rw [Function.update_of_ne hkey, ← h.node id hne]
      exact congrArg (Option.map Prod.fst) (Function.update_of_ne heq ..)

theorem toldChanges_eq (notices : List Notice) :
    toldChanges notices = (notices.flatMap noticeEvents).filterMap EtcdWatcher.Event.change := by
  rw [List.filterMap_flatMap]
  refine congrArg (List.flatMap · notices) (funext fun n => ?_)
  cases n <;> rfl

/-- **The notifications** of some notices and the changes that they tell of. -/
theorem Mirrors.notifications (hC : C.Inverse) (hN : C.ReadsNumbers) {notices : List Notice}
    (hevents : ∀ event ∈ notices.flatMap noticeEvents, ∃ ch, Describes C conf typeName event ch) {log : List Notice}
    (h : Mirrors C conf typeName known (content (toldChanges log))) :
    Mirrors C conf typeName ((notifications C notices).foldl tell known) (content (toldChanges (log ++ notices))) := by
  have hall : ∀ events : List EtcdWatcher.Event, (∀ event ∈ events, ∃ ch, Describes C conf typeName event ch) →
      Mirrors C conf typeName ((((Wrapper.one (some ())).calls C events).map fun call => .notify call.node).foldl tell known)
        (content (toldChanges log ++ events.filterMap EtcdWatcher.Event.change)) := by
    intro events
    induction events using List.reverseRecOn with
    | nil =>
      intro _
      rw [List.filterMap_nil, List.append_nil]
      exact h
    | append_singleton events event ih =>
      intro hevents
      obtain ⟨ch, hch⟩ := hevents event (List.mem_append_right _ (List.mem_singleton_self event))
      obtain ⟨node, hnode, -⟩ := hch.eventNode hC hN
      have hpast := (ih fun event hevent => hevents event (List.mem_append_left _ hevent)).notify hC hN hch hnode
      have hsingle : [event].filterMap EtcdWatcher.Event.change = [ch] := by
        rw [List.filterMap_cons, hch.change, List.filterMap_nil]
      rw [calls_append, calls_some _ hnode, List.map_append, List.foldl_append, List.filterMap_append, hsingle,
        ← List.append_assoc]
      refine Eq.mp (congrArg _ ?_) hpast
      exact (overlay_concat ..).symm
  rw [toldChanges_append, toldChanges_eq notices]
  exact hall _ hevents

/-! ## Runs -/

structure Discovery.Inv (C : NodeCodec) (b : BusEnv) (conf : Conf) (typeName : Bytes) (d : Discovery) : Prop where
  carries : EtcdWatcher.Inv C.toCodec d.watcher
  follows : Follows d.watcher
  range : d.watcher.range = (conf.addWatcherByTypeName typeName).range
  nodes : ∀ ch ∈ d.watcher.store.history, d.watcher.range.Covers ch.kv.key → NodeChange C conf typeName ch
  /-- the responses on their way tell of nodes -/
  pieces : ∀ c ∈ d.watcher.connection, ∀ p ∈ c.pieces, ∀ answer ∈ C.watchResponse p.object, ∀ event ∈ answer.2.events,
    ∃ ch, Describes C conf typeName event ch
  table : ∃ known, TableHolds b d.manager known ∧ Mirrors C conf typeName known (content (toldChanges d.watcher.log))

/-- a response that etcd sends tells of changes in the store -/
theorem describes_sent {w : EtcdWatcher.State} {c : Connection} {gap object : Bytes}
    {header : Option ResponseHeader} {r : Response}
    (hnodes : ∀ ch ∈ w.store.history, w.range.Covers ch.kv.key → NodeChange C conf typeName ch)
    (hsends : w.Sends c gap object header r)
    (hprev : ∀ event ∈ r.events, ∀ kv ∈ event.prevKv, ∃ ch ∈ w.store.history, ch.evtType = .put ∧ ch.kv.key = event.key ∧
      ch.kv.value = kv.value) (hevent : event ∈ r.events) : ∃ ch, Describes C conf typeName event ch := by
  obtain ⟨-, -, -, hchanges⟩ := hsends
  have hmem : event.change ∈ r.changes := List.mem_map_of_mem hevent
  rw [hchanges] at hmem
  obtain ⟨ch, hch, hchange⟩ := List.mem_map.1 hmem
  have hdue := mem_due.1 (List.mem_of_mem_drop (List.mem_of_mem_take hch))
  have hkey : event.key = ch.kv.key := by rw [EtcdWatcher.Event.key, (change_eq_some hchange.symm).2]; rfl
  refine ⟨ch, hchange.symm, hnodes ch hdue.1 hdue.2.1, fun kv hkv => ?_⟩
  obtain ⟨old, hold, hput, hsame, hvalue⟩ := hprev event hevent kv hkv
  rw [hkey] at hsame
  have hnode := hnodes old hold (hsame ▸ hdue.2.1)
  cases hnode with
  | @put src _ _ _ hpath hpack => exact ⟨src, hpath.symm.trans hsame, hvalue.symm.trans hpack⟩
  | delete => exact nomatch hput

/-- so does a snapshot -/
theorem describes_snapshot {w : EtcdWatcher.State} {text : Bytes} {header : ResponseHeader} {r : Response}
    (hnodes : ∀ ch ∈ w.store.history, w.range.Covers ch.kv.key → NodeChange C conf typeName ch)
    (hr : C.rangeResponse text = some (some header, r)) (hsnapshot : w.Snapshot header r) (hevent : event ∈ r.events) :
    ∃ ch, Describes C conf typeName event ch := by
  obtain ⟨doc, -, heq⟩ := Option.map_eq_some_iff.1 hr
  have hsome : ∃ kv, event = ⟨some .put, some kv, none⟩ := by
    obtain ⟨-, rfl⟩ := Prod.ext_iff.1 heq
    obtain ⟨kv, -, rfl⟩ := List.mem_map.1 hevent
    exact ⟨_, rfl⟩
  obtain ⟨kv, rfl⟩ := hsome
  have hmem : (⟨.put, kv⟩ : Change) ∈ r.events.filterMap EtcdWatcher.Event.change := List.mem_filterMap.2 ⟨_, hevent, rfl⟩
  have hfound := mem_earlier.1 (content_mem (hsnapshot.found _ hmem)).1
  exact ⟨⟨.put, kv⟩, rfl, hnodes _ hfound.1 hfound.2.1, fun _ hprev => nomatch hprev⟩

theorem told_watched {notices : List Notice} : ∀ ev ∈ notifications C notices, ev.Watched := by
  intro ev hev
  obtain ⟨call, -, rfl⟩ := List.mem_map.1 hev
  exact trivial

theorem Mirrors.beside (h : Mirrors C conf typeName known shown) {ev : Proxy.Event} (hev : ∀ node, ev ≠ .notify node) :
    Mirrors C conf typeName (tell known ev) shown := by
  cases ev with
  | notify node => exact absurd rfl (hev node)
  | tick available =>
    refine ⟨?_, fun id hid => ?_⟩
    · simp only [tell, h.zero, Option.map_none]
    · rw [← h.node id hid]
      simp only [tell, Option.map_map]
      rfl
  | set | remove | reset | connected | disconnected | clock => exact h

theorem Discovery.Inv.step (hC : C.Inverse) (hN : C.ReadsNumbers) {d : Discovery} (h : d.Inv C b conf typeName)
    (ev : DiscoveryEvent) (hev : d.Expects C e b conf typeName ev) : (d.step C e b ev).Inv C b conf typeName := by
  obtain ⟨known, htable, hmirrors⟩ := h.table
  cases ev with
  | manager ev =>
    obtain ⟨hwatched, hnot⟩ := hev
    refine { h with table := ⟨tell known ev, step_tableHolds htable hwatched ?_, hmirrors.beside hnot⟩ }
    cases ev with
    | notify node => exact absurd rfl (hnot node)
    | set | remove | reset | tick | connected | disconnected | clock => exact trivial
  | watcher ev =>
    obtain ⟨hfaithful, hwrites, hprevs, hfits⟩ := hev
    have hadds := event_adds (e := e) h.carries ev
    obtain ⟨new, hlog, hnew⟩ := hadds.log
    have hnotices : newNotices C e d.watcher ev = new := by rw [newNotices, hlog, List.drop_left]
    have hevents : ∀ event ∈ new.flatMap noticeEvents, ∃ ch, Describes C conf typeName event ch := by
      intro event hevent
      obtain ⟨n, hn, hevent⟩ := List.mem_flatMap.1 hevent
      have hadded := hnew n hn
      cases n with
      | watch => exact absurd hevent List.not_mem_nil
      | snapshot header r =>
        obtain ⟨reply, rfl, hretry, hr⟩ := hadded
        exact describes_snapshot h.nodes hr (hfaithful hretry _ hr header rfl) hevent
      | response header r =>
        obtain ⟨c, hc, p, hp, hr⟩ := hadded
        exact h.pieces c hc p hp _ hr event hevent
    rw [hnotices] at hfits
    refine ⟨h.carries.event ev (stepOk_of_faithful hfaithful), h.follows.event h.carries ev hfaithful, hadds.range.trans h.range,
      fun ch hch hcov => ?_, fun c hc p hp answer hanswer event hevent => ?_, ?_⟩
    · rw [show (d.step C e b (.watcher ev)).watcher.range = _ from hadds.range] at hcov
      rcases hadds.store with hsame | ⟨changes, rfl, hmore⟩
      · exact h.nodes ch (hsame ▸ hch) hcov
      · rcases List.mem_append.1 (hmore ▸ hch) with hold | hnow
        · exact h.nodes ch hold hcov
        · exact hwrites changes rfl ch hnow hcov
    · rcases hadds.pieces c hc p hp with ⟨c', hc', hp⟩ | ⟨gap, rfl, c', hc', r, hr, hsends⟩
      · exact h.pieces c' hc' p hp answer hanswer event hevent
      · obtain rfl := Option.some.inj (hr.symm.trans hanswer)
        exact describes_sent h.nodes hsends (hprevs gap _ rfl _ hr) hevent
    · refine ⟨(notifications C new).foldl tell known, ?_, ?_⟩
      · rw [Discovery.step, hnotices]
        exact run_tableHolds htable told_watched hfits
      · rw [show (d.step C e b (.watcher ev)).watcher.log = _ from hlog]
        exact hmirrors.notifications hC hN hevents

theorem Discovery.inv_start (C : NodeCodec) (b : BusEnv) (conf : Conf) (typeName : Bytes) (app : App) :
    (Discovery.start conf typeName app).Inv C b conf typeName where
  carries := EtcdWatcher.inv_start C.toCodec _
  follows := follows_start _
  range := rfl
  nodes _ hch := absurd hch List.not_mem_nil
  pieces _ hc := nomatch hc
  table := ⟨fun _ => none, tableHolds_start b app, rfl, fun _ _ => rfl⟩

theorem covers_nodePath (conf : Conf) (typeName : Bytes) (id : UInt64) :
    (conf.addWatcherByTypeName typeName).range.Covers (nodePath conf typeName id) := by
  have hslash : ∃ c ∈ conf.byTypeNameWatcherPath typeName, c ≠ 255 :=
    ⟨47, List.mem_append_left typeName (List.mem_append_right _ (List.mem_singleton_self 47)), by decide⟩
  refine (covers_plusOne_iff hslash _).2 ?_
  rw [nodePath, List.append_assoc]
  exact List.prefix_append _ _

/-- behind all that is due, the table of the proxies is the content of the store -/
theorem Discovery.Inv.converged (hC : C.Inverse) (hN : C.ReadsNumbers) {d : Discovery} (hi : d.Inv C b conf typeName)
    (hdrained : d.watcher.Drained) {id : UInt64} (hid : id ≠ 0) :
    (content d.watcher.store.history (nodePath conf typeName id) = none → d.manager.proxySet id = none) ∧
      ∀ kv, content d.watcher.store.history (nodePath conf typeName id) = some kv →
        ∃ src : NodeInfo, src.id = id ∧ kv.value = C.pack src ∧ ∃ p k, d.manager.proxySet id = some p ∧
          p.etcdNode = { src with action := .put, listens := src.listens.rotate k } ∧
          p.isAvailable = checkAvailable b d.manager.app src := by
  obtain ⟨known, htable, hmirrors⟩ := hi.table
  have hcov : d.watcher.range.Covers (nodePath conf typeName id) := hi.range ▸ covers_nodePath conf typeName id
  have hsame := hmirrors.node id hid
  rw [hi.follows.drained hi.carries hdrained hcov] at hsame
  refine ⟨fun hnone => htable.absent id ?_, fun kv hkv => ?_⟩
  · rw [hnone, Option.map_none] at hsame
    exact Option.map_eq_none_iff.1 hsame
  · rw [hkv, Option.map_some] at hsame
    obtain ⟨⟨node, ticked⟩, hknown, rfl⟩ := Option.map_eq_some_iff.1 hsame
    obtain ⟨p, hp, hshows⟩ := htable.present id _ ticked hknown
    obtain ⟨hmem, hkey⟩ := content_mem hkv
    have hnode := hi.nodes _ hmem (hkey ▸ hcov)
    cases hnode with
    | @put src _ _ hplain hpath hpack =>
      rw [nodeOf_pack hC hplain hpack] at hshows
      obtain ⟨k, hk⟩ := hshows.rotated
      exact ⟨src, nodePath_inj hN (hpath.symm.trans hkey), hpack, p, k, hp, hk, hshows.available⟩

/-- **The proxies find each other.** Once all that etcd has to send has come in, `proxy_set_` has an entry for each node that is
published, with what it published last, and no entry for any other. -/
theorem table_converges (hC : C.Inverse) (hN : C.ReadsNumbers) (e : EtcdEnv) (b : BusEnv) (conf : Conf) (typeName : Bytes)
    (app : App) (events : List DiscoveryEvent)
    (h : Meets (Discovery.step C e b) (Discovery.Expects C e b conf typeName) (.start conf typeName app) events)
    (hdrained : (Discovery.run C e b (.start conf typeName app) events).watcher.Drained) (id : UInt64) (hid : id ≠ 0) :
    let d := Discovery.run C e b (.start conf typeName app) events
    (content d.watcher.store.history (nodePath conf typeName id) = none → d.manager.proxySet id = none) ∧
      ∀ kv, content d.watcher.store.history (nodePath conf typeName id) = some kv →
        ∃ src : NodeInfo, src.id = id ∧ kv.value = C.pack src ∧ ∃ p k, d.manager.proxySet id = some p ∧
          p.etcdNode = { src with action := .put, listens := src.listens.rotate k } ∧
          p.isAvailable = checkAvailable b d.manager.app src := by
  intro d
  have hi : d.Inv C b conf typeName :=
    h.invariant (fun _ ev hd hev => hd.step hC hN ev hev) (Discovery.inv_start C b conf typeName app)
  exact hi.converged hC hN hdrained hid

/-! ### Events that are checked by computation -/

/-- a write tells the table nothing -/
theorem Discovery.expects_write {d : Discovery} {changes : List Change}
    (h : ∀ ch ∈ changes, d.watcher.range.Covers ch.kv.key → NodeChange C conf typeName ch) :
    d.Expects C e b conf typeName (.watcher (.write changes)) := by
  have hlog : (watcherEvent C.toCodec e d.watcher (.write changes)).log = d.watcher.log := by
    simp only [watcherEvent]
    split_ifs <;> rfl
  have hnone : newNotices C e d.watcher (.write changes) = [] := by rw [newNotices, hlog, List.drop_length]
  refine ⟨trivial, fun _ heq => ?_, fun _ _ heq => WatcherEvent.noConfusion heq, ?_⟩
  · cases heq
    exact h
  · rw [hnone]
    exact trivial

/-- any other event that tells of no previous value, and tells the table what fits -/
def Discovery.Forward (C : NodeCodec) (e : EtcdEnv) (b : BusEnv) (d : Discovery) : DiscoveryEvent → Prop
  | .watcher (.write _) | .manager (.notify _) => False
  | .watcher (.push gap object) =>
    (∀ answer ∈ C.watchResponse object, ∀ event ∈ answer.2.events, event.prevKv = none) ∧
      Meets (Proxy.step b) (Event.Fits b) d.manager (notifications C (newNotices C e d.watcher (.push gap object)))
  | .watcher ev => Faithful C.toCodec d.watcher ev ∧
      Meets (Proxy.step b) (Event.Fits b) d.manager (notifications C (newNotices C e d.watcher ev))
  | .manager ev => ev.Watched

instance (d : Discovery) (ev : DiscoveryEvent) : Decidable (d.Forward C e b ev) := by
  rcases ev with (_ | _) | (_ | _) <;> dsimp only [Discovery.Forward] <;> infer_instance

theorem Discovery.Forward.expects {d : Discovery} {ev : DiscoveryEvent} (h : d.Forward C e b ev) :
    d.Expects C e b conf typeName ev := by
  cases ev with
  | manager ev =>
    cases ev with
    | notify node => exact h.elim
    | _ => exact ⟨h, fun _ heq => Event.noConfusion heq⟩
  | watcher ev =>
    cases ev with
    | write changes => exact h.elim
    | push gap object =>
      refine ⟨trivial, fun _ heq => WatcherEvent.noConfusion heq, fun _ _ heq answer hanswer event hevent kv hkv => ?_, h.2⟩
      cases heq
      rw [h.1 answer hanswer event hevent] at hkv
      exact absurd hkv (Option.not_mem_none kv)
    | _ => exact ⟨h.1, fun _ heq => WatcherEvent.noConfusion heq, fun _ _ heq => WatcherEvent.noConfusion heq, h.2⟩

/-! ### Routines that read and write -/

/-- a digit of base64 -/
def digitOf (n : ℕ) : UInt8 :=
  if n < 26 then (65 + n).toUInt8
  else if n < 52 then (71 + n).toUInt8
  else if n < 62 then (n - 4).toUInt8
  else if n = 62 then 43
  else 47

/-- the value of a digit -/
def valueOf (c : UInt8) : ℕ :=
  if c.toNat = 43 then 62
  else if c.toNat = 47 then 63
  else if c.toNat < 58 then c.toNat + 4
  else if c.toNat < 91 then c.toNat - 65
  else c.toNat - 71

def toBase64 : Bytes → Bytes
  | x :: y :: z :: rest =>
    digitOf (x.toNat / 4) :: digitOf (x.toNat % 4 * 16 + y.toNat / 16) :: digitOf (y.toNat % 16 * 4 + z.toNat / 64) ::
      digitOf (z.toNat % 64) :: toBase64 rest
  | [x, y] => [digitOf (x.toNat / 4), digitOf (x.toNat % 4 * 16 + y.toNat / 16), digitOf (y.toNat % 16 * 4), 61]
  | [x] => [digitOf (x.toNat / 4), digitOf (x.toNat % 4 * 16), 61, 61]
  | [] => []

def ofBase64 : Bytes → Option Bytes
  | [a, b, 61, 61] => some [(valueOf a * 4 + valueOf b / 16).toUInt8]
  | [a, b, c, 61] => some [(valueOf a * 4 + valueOf b / 16).toUInt8, (valueOf b % 16 * 16 + valueOf c / 4).toUInt8]
  | a :: b :: c :: d :: rest => do
    let bytes ← ofBase64 rest
    return (valueOf a * 4 + valueOf b / 16).toUInt8 :: (valueOf b % 16 * 16 + valueOf c / 4).toUInt8 ::
      (valueOf c % 4 * 64 + valueOf d).toUInt8 :: bytes
  | [] => some []
  | _ => none

def proxyCodec : NodeCodec :=
  { jsonCodec with str2id := readNumber, base64Decode := fun s => ofBase64 s.toByteArray.data.toList }

theorem inverse_proxyCodec : proxyCodec.Inverse := ⟨inverse_jsonCodec.parse_write, inverse_jsonCodec.parse_nil⟩

theorem readsNumbers_proxyCodec : proxyCodec.ReadsNumbers :=
  ⟨(readsNumbers_oneDocument [] .null).str2id_decimal, (readsNumbers_oneDocument [] .null).str2id_other⟩

/-! ### A proxy that publishes itself -/

def proxyConf : Conf := { pathPrefix := ascii "/atapp/" }

def atproxy : Bytes := ascii "atproxy"

def plainPeer : NodeInfo where
  id := 7
  listens := ["unix:///tmp/atproxy-7.sock", "ipv4://10.0.0.7:21437"]
  atbusProtocolVersion := 2
  atbusProtocolMinVersion := 2

theorem plainPeer_plain : plainPeer.Plain := by
  unfold NodeInfo.Plain
  decide

def peerKv : KeyValue := ⟨nodePath proxyConf atproxy 7, 0, 2, 0, proxyCodec.pack plainPeer, 0⟩

/-- nothing is there at revision 1 -/
def nothingText : Bytes := ascii "\x7b\"header\":\x7b\"revision\":1\x7d\x7d"

/-- the peer is put at revision 2 -/
def peerText : Bytes :=
  ascii "\x7b\"header\":\x7b\"revision\":2\x7d,\"events\":[\x7b\"kv\":\x7b\"key\":\"" ++ toBase64 peerKv.key ++
    ascii "\",\"mod_revision\":2,\"value\":\"" ++ toBase64 peerKv.value ++ ascii "\"\x7d\x7d]\x7d"

/-- nothing is there, the peer publishes itself, and etcd tells of it -/
def peerPublishes : List DiscoveryEvent :=
  [.watcher .active, .watcher (.rangeCompleted ⟨0, 200, nothingText⟩), .watcher (.write [⟨.put, peerKv⟩]),
    .watcher (.push [10] peerText), .watcher (.receive (peerText.length + 1))]

/-- the proxy connects to the peer, loses the watch and then the peer, connects to it again, and watches again; what a retry is
answered is not read -/
def peerReconnects : List DiscoveryEvent :=
  [.manager (.clock 101), .manager (.tick remote), .manager (.connected 7), .watcher (.watchCompleted 56 0), .manager (.clock 107),
    .manager (.disconnected 7), .manager (.clock 113), .manager (.tick remote), .watcher (.clock 15000000000), .watcher .active,
    .watcher (.rangeCompleted ⟨0, 200, nothingText⟩)]

theorem peerPublishes_expects :
    Meets (Discovery.step proxyCodec .steady proxyBus) (Discovery.Expects proxyCodec .steady proxyBus proxyConf atproxy)
      (.start proxyConf atproxy proxyApp) (peerPublishes ++ peerReconnects) := by
  have hread : Meets (Discovery.step proxyCodec .steady proxyBus) (Discovery.Forward proxyCodec .steady proxyBus)
      (.start proxyConf atproxy proxyApp) (peerPublishes.take 2) := by decide +kernel
  have htold : Meets (Discovery.step proxyCodec .steady proxyBus) (Discovery.Forward proxyCodec .steady proxyBus)
      ((peerPublishes.take 3).foldl (Discovery.step proxyCodec .steady proxyBus) (.start proxyConf atproxy proxyApp))
      (peerPublishes.drop 3 ++ peerReconnects) := by decide +kernel
  refine (meets_append _ (peerPublishes.take 2) _).2 ⟨hread.mono fun _ _ h => h.expects, Discovery.expects_write fun ch hch _ => ?_,
    htold.mono fun _ _ h => h.expects⟩
  rw [List.mem_singleton.1 hch]
  exact .put (by decide : plainPeer.id ≠ 0) plainPeer_plain rfl rfl

/-- behind that run -/
def peerPublished : Discovery :=
  Discovery.run proxyCodec .steady proxyBus (.start proxyConf atproxy proxyApp) (peerPublishes ++ peerReconnects)

section sample

-- the run is too large to be compared by unfolding
attribute [local irreducible] Discovery.run

theorem peerPublished_drained : peerPublished.watcher.Drained ∧ peerPublished.watcher.store = ⟨2, [⟨.put, peerKv⟩]⟩ ∧
    peerPublished.manager.connects.map Connect.address = ["ipv4://10.0.0.7:21437", "ipv4://10.0.0.7:21437"] := by
  decide +kernel

theorem table_converges_peerPublished :
    peerPublished.manager.connects.map Connect.address = ["ipv4://10.0.0.7:21437", "ipv4://10.0.0.7:21437"] ∧
      ∃ src : NodeInfo, src.id = 7 ∧ peerKv.value = proxyCodec.pack src ∧
        ∃ p k, peerPublished.manager.proxySet 7 = some p ∧
          p.etcdNode = { src with action := .put, listens := src.listens.rotate k } ∧
          p.isAvailable = checkAvailable proxyBus peerPublished.manager.app src := by
  have hcontent : content peerPublished.watcher.store.history (nodePath proxyConf atproxy 7) = some peerKv := by
    rw [peerPublished_drained.2.1]
    rfl
  refine ⟨peerPublished_drained.2.2, ?_⟩
  rw [peerPublished]
  exact (table_converges inverse_proxyCodec readsNumbers_proxyCodec .steady proxyBus proxyConf atproxy proxyApp _
    peerPublishes_expects peerPublished_drained.1 7 (by decide)).2 peerKv hcontent

end sample

end AtFrame.Proxy
