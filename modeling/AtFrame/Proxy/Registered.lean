/-
From the registration of a node, and its removal, to the tables of the proxies.

The clusters of `Etcd.Network` register their nodes in a store, and the watcher of `Proxy.Discovery` is told of what this store
writes into its log. The two models are put side by side: an event of the clusters comes with the changes that it leads to.

- `Logged`: the log and the store have the same values;
- `System.Inv.step`: every event keeps the invariant;
- `registered_found`: what a keepalive has put is in the table of the proxies, once all has come in;
- `removed_forgotten`: the node of a keepalive that was removed is not.

Premises: what the store does is in its log, and nothing else is (`System.Logs`); those of `Etcd.Readded` for the one that is
registered, of `Etcd.Removed` for the one that is removed, and of `Proxy.Discovery` for the proxy that watches.
Witnesses: `registered_found_peer`, where the proxy finds the peer, loses the watch and the connection, and has both again; and
`removed_forgotten_peer`, where the same proxy is told that the peer has left.
-/
import AtFrame.Etcd.Readded
import AtFrame.Proxy.Discovery

namespace AtFrame.Proxy

open AtFrame.Etcd AtFrame.EtcdModule AtFrame.EtcdWatcher AtFrame.Lib

variable {ι : Type} [DecidableEq ι]

/-! ## Model -/

structure System (ι : Type) where
  net : Net ι
  discovery : Discovery

inductive SystemEvent (ι : Type) where
  /-- an event of the clusters, and the changes that the store writes into its log -/
  | net (ev : NetEvent ι) (written : Option (List Change))
  | discovery (ev : DiscoveryEvent)

def SystemEvent.asked : SystemEvent ι → List (NetEvent ι)
  | .net ev _ => [ev]
  | .discovery _ => []

def SystemEvent.told : SystemEvent ι → List DiscoveryEvent
  | .net _ written => written.toList.map fun changes => .watcher (.write changes)
  | .discovery ev => [ev]

variable (C : NodeCodec) (E : ι → EtcdEnv) (e : EtcdEnv) (b : BusEnv)

def System.step (s : System ι) (ev : SystemEvent ι) : System ι :=
  ⟨netRun E s.net ev.asked, Discovery.run C e b s.discovery ev.told⟩

def System.run (s : System ι) (events : List (SystemEvent ι)) : System ι := events.foldl (System.step C E e b) s

/-- clusters behind `init`, and a proxy behind `init` -/
def System.start (conf : ι → EtcdConf) (path : ι → ℕ → Bytes) (checker : ι → ℕ → Option (Bytes → Bool)) (conf' : Conf)
    (typeName : Bytes) (app : App) : System ι :=
  ⟨.start conf path checker, .start conf' typeName app⟩

/-! ## Statement -/

omit [DecidableEq ι] in
/-- the log leads to the values in the store -/
def System.Logged (s : System ι) : Prop :=
  ∀ key, s.net.value key = (content s.discovery.watcher.store.history key).map KeyValue.value

/-- what the store does is in its log, and nothing else is -/
def System.Logs (s : System ι) : SystemEvent ι → Prop
  | .net ev written => (s.step C E e b (.net ev written)).Logged
  | .discovery ev => ∀ changes, ev ≠ .watcher (.write changes)

/-! ## The two parts of a run -/

variable {C E e b} {s : System ι} {conf : Conf} {typeName : Bytes}

theorem run_net (s : System ι) (events : List (SystemEvent ι)) :
    (s.run C E e b events).net = netRun E s.net (events.flatMap SystemEvent.asked) := by
  induction events generalizing s with
  | nil => rfl
  | cons ev events ih =>
    rw [List.flatMap_cons, netRun_append]
    exact ih (s.step C E e b ev)

theorem Discovery.run_append_cons (d : Discovery) (before : List DiscoveryEvent) (ev : DiscoveryEvent) (behind : List DiscoveryEvent) :
    d.run C e b (before ++ ev :: behind) = ((d.run C e b before).step C e b ev).run C e b behind :=
  List.foldl_append

theorem run_discovery (s : System ι) (events : List (SystemEvent ι)) :
    (s.run C E e b events).discovery = Discovery.run C e b s.discovery (events.flatMap SystemEvent.told) := by
  induction events generalizing s with
  | nil => rfl
  | cons ev events ih =>
    rw [List.flatMap_cons, Discovery.run, List.foldl_append]
    exact ih (s.step C E e b ev)

/-- what is required of the proxy's events is required of those that each event leads to -/
theorem meets_told {P : Discovery → DiscoveryEvent → Prop} {events : List (SystemEvent ι)}
    (h : Meets (Discovery.step C e b) P s.discovery (events.flatMap SystemEvent.told)) :
    Meets (System.step C E e b) (fun s ev => Meets (Discovery.step C e b) P s.discovery ev.told) s events := by
  induction events generalizing s with
  | nil => exact trivial
  | cons ev events ih =>
    rw [List.flatMap_cons] at h
    obtain ⟨hev, hrest⟩ := (meets_append _ _ _).1 h
    exact ⟨hev, ih (s := s.step C E e b ev) hrest⟩

omit [DecidableEq ι] in
theorem told_discovery (events : List DiscoveryEvent) :
    (events.map (SystemEvent.discovery (ι := ι))).flatMap SystemEvent.told = events := by
  rw [List.flatMap_map]
  exact List.flatMap_singleton' events

/-- events of the proxy alone that write nothing -/
theorem logs_discovery {events : List DiscoveryEvent} (h : ∀ ev ∈ events, ∀ changes, ev ≠ .watcher (.write changes)) :
    Meets (System.step C E e b) (System.Logs C E e b) s (events.map .discovery) := by
  induction events generalizing s with
  | nil => exact trivial
  | cons ev events ih => exact ⟨h ev List.mem_cons_self, ih fun ev hev => h ev (List.mem_cons_of_mem _ hev)⟩

/-! ## The log -/

theorem step_net (s : System ι) (ev : NetEvent ι) (written : Option (List Change)) :
    (s.step C E e b (.net ev written)).net = netEvent E s.net ev := rfl

theorem step_silent (s : System ι) (ev : NetEvent ι) : (s.step C E e b (.net ev none)).discovery = s.discovery := rfl

theorem System.Logged.beside (C : NodeCodec) (E : ι → EtcdEnv) (e : EtcdEnv) (b : BusEnv) (h : s.Logged) (ev : DiscoveryEvent)
    (hstore : (s.discovery.step C e b ev).watcher.store = s.discovery.watcher.store) :
    (s.step C E e b (.discovery ev)).Logged := by
  intro key
  rw [show (s.step C E e b (.discovery ev)).discovery.watcher.store = _ from hstore]
  exact h key

/-- what does not change the store is not in its log -/
theorem System.Logged.quiet (C : NodeCodec) (E : ι → EtcdEnv) (e : EtcdEnv) (b : BusEnv) (h : s.Logged) (ev : NetEvent ι)
    (hstore : (netEvent E s.net ev).store = s.net.store) :
    (s.step C E e b (.net ev none)).Logged := by
  intro key
  refine Eq.trans ?_ (h key)
  rw [Net.value, Net.value, show (s.step C E e b (.net ev none)).net.store = _ from hstore]

/-- what is written under one key is one change -/
theorem System.Logged.write (C : NodeCodec) (E : ι → EtcdEnv) (e : EtcdEnv) (b : BusEnv) (h : s.Logged) (ev : NetEvent ι)
    (ch : Change) (v : Option (Bytes × ℤ)) (hstore : (netEvent E s.net ev).store = Function.update s.net.store ch.kv.key v)
    (hvalue : v.map (fun v => v.1) = ch.stored.map KeyValue.value)
    (hrevision : ch.kv.modRevision = s.discovery.watcher.store.revision + 1) :
    (s.step C E e b (.net ev (some [ch]))).Logged := by
  set s' := s.step C E e b (.net ev (some [ch]))
  have hlog : s'.discovery.watcher.store.history = s.discovery.watcher.store.history ++ [ch] := by
    have hnext : ∀ ch' ∈ [ch], ch'.kv.modRevision = s.discovery.watcher.store.revision + 1 := fun ch' hch' =>
      List.mem_singleton.1 hch' ▸ hrevision
    exact congrArg (fun w : EtcdWatcher.State => w.store.history) (if_pos hnext)
  have hlast : overlay (fun ch => ch.kv.key) Change.stored (content s.discovery.watcher.store.history) [ch] =
      Function.update (content s.discovery.watcher.store.history) ch.kv.key ch.stored := rfl
  intro key
  have hnet : s'.net.value key = (Function.update s.net.store ch.kv.key v key).map fun v : Bytes × ℤ => v.1 :=
    congrArg (Option.map fun v : Bytes × ℤ => v.1) (congrFun hstore key)
  rw [hnet, hlog, content_append, hlast]
  by_cases hkey : key = ch.kv.key
  · rw [hkey, Function.update_self, Function.update_self]
    exact hvalue
  · rw [Function.update_of_ne hkey, Function.update_of_ne hkey]
    exact h key

theorem System.Logged.put (C : NodeCodec) (E : ι → EtcdEnv) (e : EtcdEnv) (b : BusEnv) (h : s.Logged) (i : ι) (id : ℕ)
    (granted : ℤ) (kv : KeyValue) (lease : ℤ) (hask : s.net.ask i id = some (.put kv.key kv.value lease))
    (hnew : s.net.outcome i id = none) (halive : s.net.alive lease = true)
    (hrevision : kv.modRevision = s.discovery.watcher.store.revision + 1) :
    (s.step C E e b (.net (.execute i id granted) (some [⟨.put, kv⟩]))).Logged := by
  refine h.write C E e b _ ⟨.put, kv⟩ (some (kv.value, lease)) ?_ rfl hrevision
  rw [store_execute hask hnew, Net.perform, if_pos halive]

/-- a delete of a range is one change where no other key of the range was ever there -/
theorem System.Logged.delete (C : NodeCodec) (E : ι → EtcdEnv) (e : EtcdEnv) (b : BusEnv) (h : s.Logged) (i : ι) (id : ℕ)
    (granted : ℤ) (kv : KeyValue) (range : KeyRange) (hask : s.net.ask i id = some (.delete range))
    (hnew : s.net.outcome i id = none) (hrange : range.Covers kv.key)
    (hothers : ∀ ch ∈ s.discovery.watcher.store.history, range.Covers ch.kv.key → ch.kv.key = kv.key)
    (hrevision : kv.modRevision = s.discovery.watcher.store.revision + 1) :
    (s.step C E e b (.net (.execute i id granted) (some [⟨.delete, kv⟩]))).Logged := by
  refine h.write C E e b _ ⟨.delete, kv⟩ none ?_ rfl hrevision
  rw [store_execute hask hnew]
  funext key
  by_cases hkey : key = kv.key
  · rw [hkey, Function.update_self]
    exact if_pos hrange
  rw [Function.update_of_ne hkey]
  by_cases hcov : range.Covers key
  · have hnever : content s.discovery.watcher.store.history key = none :=
      overlay_other fun ch hch heq => hkey (heq ▸ hothers ch hch (heq ▸ hcov))
    have hvalue : s.net.value key = none := (h key).trans (congrArg (Option.map KeyValue.value) hnever)
    exact (if_pos hcov).trans (Option.map_eq_none_iff.1 hvalue).symm
  · exact if_neg hcov

/-! ## The invariant -/

structure System.Inv (C : NodeCodec) (b : BusEnv) (conf : Conf) (typeName : Bytes) (s : System ι) : Prop where
  discovery : s.discovery.Inv C b conf typeName
  logged : s.Logged

theorem System.Inv.step (hC : C.Inverse) (hN : C.ReadsNumbers) (h : s.Inv C b conf typeName) (ev : SystemEvent ι)
    (hlogs : s.Logs C E e b ev)
    (hev : Meets (Discovery.step C e b) (Discovery.Expects C e b conf typeName) s.discovery ev.told) :
    (s.step C E e b ev).Inv C b conf typeName := by
  refine ⟨hev.invariant (fun _ ev hd hev => hd.step hC hN ev hev) h.discovery, ?_⟩
  cases ev with
  | net ev written => exact hlogs
  | discovery ev =>
    refine h.logged.beside C E e b ev ?_
    cases ev with
    | manager ev => rfl
    | watcher ev =>
      rcases (event_adds (e := e) h.discovery.carries ev).store with hsame | ⟨changes, rfl, -⟩
      · exact hsame
      · exact absurd rfl (hlogs changes)

omit [DecidableEq ι] in
theorem System.inv_start (conf : ι → EtcdConf) (path : ι → ℕ → Bytes) (checker : ι → ℕ → Option (Bytes → Bool)) (conf' : Conf)
    (typeName : Bytes) (app : App) : (System.start conf path checker conf' typeName app).Inv C b conf' typeName :=
  ⟨Discovery.inv_start C b conf' typeName app, fun _ => rfl⟩

theorem System.Inv.run (hC : C.Inverse) (hN : C.ReadsNumbers) (h : s.Inv C b conf typeName) {events : List (SystemEvent ι)}
    (hlogs : Meets (System.step C E e b) (System.Logs C E e b) s events)
    (hwatch : Meets (Discovery.step C e b) (Discovery.Expects C e b conf typeName) s.discovery
      (events.flatMap SystemEvent.told)) : (s.run C E e b events).Inv C b conf typeName :=
  (hlogs.and (meets_told (E := E) hwatch)).invariant (fun _ ev h hev => h.step hC hN ev hev.1 hev.2) h

omit [DecidableEq ι] in
/-- **Behind all that is due** the table of the proxies has the nodes that are in the store. -/
theorem System.Inv.converged (hC : C.Inverse) (hN : C.ReadsNumbers) (h : s.Inv C b conf typeName)
    (hdrained : s.discovery.watcher.Drained) {id : UInt64} (hid : id ≠ 0) {value : Bytes} {lease : ℤ}
    (hstore : s.net.store (nodePath conf typeName id) = some (value, lease)) :
    ∃ src : NodeInfo, src.id = id ∧ value = C.pack src ∧ ∃ p k, s.discovery.manager.proxySet id = some p ∧
      p.etcdNode = { src with action := .put, listens := src.listens.rotate k } ∧
      p.isAvailable = checkAvailable b s.discovery.manager.app src := by
  have hvalue : (content s.discovery.watcher.store.history (nodePath conf typeName id)).map KeyValue.value = some value := by
    rw [← h.logged, Net.value, hstore]
    rfl
  obtain ⟨kv, hkv, rfl⟩ := Option.map_eq_some_iff.1 hvalue
  exact (h.discovery.converged hC hN hdrained hid).2 kv hkv

omit [DecidableEq ι] in
/-- and no others -/
theorem System.Inv.cleared (hC : C.Inverse) (hN : C.ReadsNumbers) (h : s.Inv C b conf typeName)
    (hdrained : s.discovery.watcher.Drained) {id : UInt64} (hid : id ≠ 0)
    (hstore : s.net.store (nodePath conf typeName id) = none) : s.discovery.manager.proxySet id = none := by
  have hvalue : (content s.discovery.watcher.store.history (nodePath conf typeName id)).map KeyValue.value = none := by
    rw [← h.logged, Net.value, hstore]
    rfl
  exact (h.discovery.converged hC hN hdrained hid).1 (Option.map_eq_none_iff.1 hvalue)

/-- **Who is registered is found.** A keepalive is added and stays on the list, no other is served under its path, and the requests
for the path are executed in order. Where its last put was answered, the proxies have the node with what was put, once all that is
due has come in. -/
theorem registered_found (hC : C.Inverse) (hN : C.ReadsNumbers) (E : ι → EtcdEnv) (e : EtcdEnv) (b : BusEnv)
    (conf : ι → EtcdConf) (path : ι → ℕ → Bytes) (checker : ι → ℕ → Option (Bytes → Bool)) (conf' : Conf) (typeName : Bytes)
    (app : App) (events : List (SystemEvent ι))
    (hlogs : Meets (System.step C E e b) (System.Logs C E e b) (.start conf path checker conf' typeName app) events)
    (hwatch : Meets (Discovery.step C e b) (Discovery.Expects C e b conf' typeName) (.start conf' typeName app)
      (events.flatMap SystemEvent.told))
    (i : ι) (k : ℕ) (hpath : ∀ j l, path j l = path i k → j = i) (before behind : List (NetEvent ι))
    (hasked : events.flatMap SystemEvent.asked = before ++ .client i (.addKeepalive k) :: behind)
    (hadded : let c := (netRun E (.start conf path checker) before).cluster i
      c.closing = false ∧ k ∉ c.keepaliveActors)
    (halone : (netRun E (.start conf path checker) before).Alone i k (path i k))
    (hholds : Meets (netEvent E) (Holds i k (path i k))
      (netRun E (.start conf path checker) (before ++ [.client i (.addKeepalive k)])) behind)
    (horder : Meets (netEvent E) (InOrder i k (path i k))
      (netRun E (.start conf path checker) (before ++ [.client i (.addKeepalive k)])) behind)
    (node : UInt64) (hnode : node ≠ 0) (hkey : path i k = nodePath conf' typeName node) (value : Bytes) (lease : ℤ) :
    let s := System.run C E e b (.start conf path checker conf' typeName app) events
    s.discovery.watcher.Drained →
    (∃ id ∈ (s.net.cluster i).acked, ((netRun E (.start conf path checker) before).cluster i).sent.length ≤ id ∧
      LastPut (s.net.cluster i).toCluster k id value lease) →
    ∃ src : NodeInfo, src.id = node ∧ value = C.pack src ∧ ∃ p j, s.discovery.manager.proxySet node = some p ∧
      p.etcdNode = { src with action := .put, listens := src.listens.rotate j } ∧
      p.isAvailable = checkAvailable b s.discovery.manager.app src := by
  rintro s hdrained ⟨id, hacked, hid, hlast⟩
  have hs : s.Inv C b conf' typeName := (System.inv_start conf path checker conf' typeName app).run hC hN hlogs hwatch
  have hnet : s.net = netRun E (.start conf path checker) (before ++ .client i (.addKeepalive k) :: behind) := by
    rw [← hasked]
    exact run_net _ events
  have hheld : HeldPath i k path ((netRun E (.start conf path checker) before).cluster i).sent.length s.net :=
    hnet ▸ heldPath_behind hpath hadded halone hholds horder
  have hstore : s.net.store (nodePath conf' typeName node) = some (value, lease) := hkey ▸ hheld.kept hid hlast hacked
  exact hs.converged hC hN hdrained hnode hstore

/-! ### A proxy that registers itself -/

def peerPath (_ : Unit) (k : ℕ) : Bytes := if k = 0 then nodePath proxyConf atproxy 7 else []

def peerStart : System Unit :=
  .start (fun _ => { pathNode := "http://etcd" }) peerPath (fun _ _ => none) proxyConf atproxy proxyApp

/-- the peer publishes itself, and is found by a proxy that watches and connects to it -/
def peerRegisters : List (SystemEvent Unit) :=
  [.discovery (.watcher .active), .discovery (.watcher (.rangeCompleted ⟨0, 200, nothingText⟩)),
    .net (.client () (.setValue 0 (proxyCodec.pack plainPeer))) none, .net (.client () (.addKeepalive 0)) none,
    .net (.execute () 0 7) none, .net (.client () (.complete 0 (.lease 7))) none,
    .net (.execute () 1 7) (some [⟨.put, peerKv⟩]), .net (.client () (.complete 1 (.plain 200))) none,
    .discovery (.watcher (.push [10] peerText)), .discovery (.watcher (.receive (peerText.length + 1)))] ++
  peerReconnects.map .discovery

/-- what its cluster does -/
def peerAsks : List (NetEvent Unit) :=
  [.client () (.setValue 0 (proxyCodec.pack plainPeer)), .client () (.addKeepalive 0), .execute () 0 7,
    .client () (.complete 0 (.lease 7)), .execute () 1 7, .client () (.complete 1 (.plain 200))]

theorem told_peerRegisters : peerRegisters.flatMap SystemEvent.told = peerPublishes ++ peerReconnects := by
  rw [peerRegisters, List.flatMap_append, told_discovery]
  rfl

theorem peerRegisters_logs : Meets (System.step proxyCodec steadyEnv .steady proxyBus)
    (System.Logs proxyCodec steadyEnv .steady proxyBus) peerStart peerRegisters := by
  have hstart : peerStart.Logged := fun _ => rfl
  have hactive := hstart.beside proxyCodec steadyEnv .steady proxyBus (.watcher .active) (by decide +kernel)
  have hread := hactive.beside proxyCodec steadyEnv .steady proxyBus (.watcher (.rangeCompleted ⟨0, 200, nothingText⟩))
    (by decide +kernel)
  have hvalued := hread.quiet proxyCodec steadyEnv .steady proxyBus (.client () (.setValue 0 (proxyCodec.pack plainPeer)))
    (store_client ..)
  have hadded := hvalued.quiet proxyCodec steadyEnv .steady proxyBus (.client () (.addKeepalive 0)) (store_client ..)
  have hgranted := hadded.quiet proxyCodec steadyEnv .steady proxyBus (.execute () 0 7)
    (store_execute (a := .leaseGrant 0 16) (by decide +kernel) (by decide +kernel) 7)
  have hleased := hgranted.quiet proxyCodec steadyEnv .steady proxyBus (.client () (.complete 0 (.lease 7))) (store_client ..)
  have hput := hleased.put proxyCodec steadyEnv .steady proxyBus () 1 7 peerKv 7 (by decide +kernel) (by decide +kernel)
    (by decide +kernel) (by decide +kernel)
  have hanswered := hput.quiet proxyCodec steadyEnv .steady proxyBus (.client () (.complete 1 (.plain 200))) (store_client ..)
  refine (meets_append _ _ _).2 ⟨⟨(fun _ h => nomatch h), (fun _ h => nomatch h), hvalued, hadded, hgranted, hleased, hput, hanswered,
    (fun _ h => nomatch h), (fun _ h => nomatch h), trivial⟩, logs_discovery fun ev hev changes heq => ?_⟩
  rw [heq] at hev
  simp [peerReconnects] at hev

/-- behind that run -/
def peerRegistered : System Unit := System.run proxyCodec steadyEnv .steady proxyBus peerStart peerRegisters

theorem peerRegistered_net : peerRegistered.net = netRun steadyEnv peerStart.net peerAsks := run_net peerStart peerRegisters

theorem peerRegistered_discovery : peerRegistered.discovery = peerPublished :=
  (run_discovery peerStart peerRegisters).trans (congrArg (Discovery.run proxyCodec .steady proxyBus _) told_peerRegisters)

section sample

-- the run is too large to be compared by unfolding
attribute [local irreducible] System.run Discovery.run

theorem registered_found_peer : ∃ src : NodeInfo, src.id = 7 ∧ proxyCodec.pack plainPeer = proxyCodec.pack src ∧
    ∃ p j, peerRegistered.discovery.manager.proxySet 7 = some p ∧
      p.etcdNode = { src with action := .put, listens := src.listens.rotate j } ∧
      p.isAvailable = checkAvailable proxyBus peerRegistered.discovery.manager.app src := by
  have hsent : (peerRegistered.net.cluster ()).sent.length = 2 := by
    rw [peerRegistered_net]
    decide +kernel
  rw [peerRegistered, peerStart]
  refine registered_found inverse_proxyCodec readsNumbers_proxyCodec steadyEnv .steady proxyBus
    (fun _ => { pathNode := "http://etcd" }) peerPath (fun _ _ => none) proxyConf atproxy proxyApp peerRegisters
    peerRegisters_logs (told_peerRegisters ▸ peerPublishes_expects) () 0 (fun _ _ _ => rfl)
    [.client () (.setValue 0 (proxyCodec.pack plainPeer))]
    [.execute () 0 7, .client () (.complete 0 (.lease 7)), .execute () 1 7, .client () (.complete 1 (.plain 200))] rfl
    (by decide +kernel) (fun l hl hpath => ?_) (by decide +kernel) (by decide +kernel) 7 (by decide) rfl
    (proxyCodec.pack plainPeer) 7 (peerRegistered_discovery ▸ peerPublished_drained.1)
    ⟨1, by decide +kernel, by decide +kernel, ⟨"http://etcd", by decide +kernel⟩, fun j s hj hs => ?_⟩
  · rw [(((sound_start _ peerPath _).run _).base ()).paths, peerPath, peerPath, if_neg hl, if_pos rfl] at hpath
    exact absurd hpath (by decide +kernel)
  · exact absurd ((List.getElem?_eq_some_iff.1 hs).1.trans_eq hsent) (Nat.not_lt.2 hj)

end sample

/-! ## Removal -/

/-- **Who is removed is forgotten.** The removal of a keepalive sends a delete or finds its path covered, the keepalive is not made
to put again, and no put is executed behind a delete that was sent later. Where no request for the path is left, the proxies have
no entry for the node, once all that is due has come in. -/
theorem removed_forgotten (hC : C.Inverse) (hN : C.ReadsNumbers) (E : ι → EtcdEnv) (e : EtcdEnv) (b : BusEnv)
    (conf : ι → EtcdConf) (path : ι → ℕ → Bytes) (checker : ι → ℕ → Option (Bytes → Bool)) (conf' : Conf) (typeName : Bytes)
    (app : App) (events : List (SystemEvent ι))
    (hlogs : Meets (System.step C E e b) (System.Logs C E e b) (.start conf path checker conf' typeName app) events)
    (hwatch : Meets (Discovery.step C e b) (Discovery.Expects C e b conf' typeName) (.start conf' typeName app)
      (events.flatMap SystemEvent.told))
    (i : ι) (k : ℕ) (hpath : ∀ j l, path j l = path i k → j = i ∧ l = k) (before behind : List (NetEvent ι))
    (hasked : events.flatMap SystemEvent.asked = before ++ .client i (.removeKeepalive k) :: behind)
    (hremovable : (netRun E (.start conf path checker) before).Removable i k)
    (hdismissed : Meets (netEvent E) (Dismissed i k (path i k))
      (netRun E (.start conf path checker) (before ++ [.client i (.removeKeepalive k)])) behind)
    (horderly : Meets (netEvent E) (Orderly i k (path i k))
      (netRun E (.start conf path checker) (before ++ [.client i (.removeKeepalive k)])) behind)
    (node : UInt64) (hnode : node ≠ 0) (hkey : path i k = nodePath conf' typeName node) :
    let s := System.run C E e b (.start conf path checker conf' typeName app) events
    s.discovery.watcher.Drained → s.net.Quiet i (path i k) → s.discovery.manager.proxySet node = none := by
  intro s hdrained hquiet
  have hs : s.Inv C b conf' typeName := (System.inv_start conf path checker conf' typeName app).run hC hN hlogs hwatch
  have hnet : s.net = netRun E (.start conf path checker) (before ++ .client i (.removeKeepalive k) :: behind) := by
    rw [← hasked]
    exact run_net _ events
  have hgone : Gone i k path s.net := hnet ▸ gone_behind hpath hremovable hdismissed horderly
  exact hs.cleared hC hN hdrained hnode (hkey ▸ hgone.cleared hquiet)

/-! ### A proxy that leaves -/

def goneKv : KeyValue := ⟨nodePath proxyConf atproxy 7, 0, 3, 0, [], 0⟩

/-- the peer is deleted at revision 3 -/
def goneText : Bytes :=
  ascii "\x7b\"header\":\x7b\"revision\":3\x7d,\"events\":[\x7b\"type\":\"DELETE\",\"kv\":\x7b\"key\":\"" ++ toBase64 goneKv.key ++
    ascii "\",\"mod_revision\":3\x7d\x7d]\x7d"

/-- etcd tells the proxy that the peer is gone -/
def goneTold : List DiscoveryEvent := [.watcher (.push [10] goneText), .watcher (.receive (goneText.length + 1))]

/-- the peer that was found leaves -/
def peerLeaves : List (SystemEvent Unit) :=
  peerRegisters ++ [.net (.client () (.removeKeepalive 0)) none, .net (.execute () 2 7) (some [⟨.delete, goneKv⟩])] ++
    goneTold.map .discovery

theorem told_peerLeaves : peerLeaves.flatMap SystemEvent.told =
    (peerPublishes ++ peerReconnects) ++ .watcher (.write [⟨.delete, goneKv⟩]) :: goneTold := by
  rw [peerLeaves, List.flatMap_append, List.flatMap_append, told_peerRegisters, told_discovery, List.append_assoc]
  rfl

theorem peerLeaves_logs : Meets (System.step proxyCodec steadyEnv .steady proxyBus)
    (System.Logs proxyCodec steadyEnv .steady proxyBus) peerStart peerLeaves := by
  have hfound : peerRegistered.Logged := ((System.inv_start _ _ _ _ _ _).run inverse_proxyCodec readsNumbers_proxyCodec
    peerRegisters_logs (told_peerRegisters ▸ peerPublishes_expects)).logged
  have hremoved := hfound.quiet proxyCodec steadyEnv .steady proxyBus (.client () (.removeKeepalive 0)) (store_client ..)
  have hnet : (peerRegistered.step proxyCodec steadyEnv .steady proxyBus (.net (.client () (.removeKeepalive 0)) none)).net =
      netRun steadyEnv peerStart.net (peerAsks ++ [.client () (.removeKeepalive 0)]) := by
    rw [step_net, peerRegistered_net, netRun_append]
    rfl
  have hstore : (peerRegistered.step proxyCodec steadyEnv .steady proxyBus
      (.net (.client () (.removeKeepalive 0)) none)).discovery.watcher.store = ⟨2, [⟨.put, peerKv⟩]⟩ := by
    rw [step_silent, peerRegistered_discovery]
    exact peerPublished_drained.2.1
  have hdeleted := hremoved.delete proxyCodec steadyEnv .steady proxyBus () 2 7 goneKv
    (packKeyRange (peerPath () 0) plusOne) (by rw [hnet]; decide +kernel) (by rw [hnet]; decide +kernel) (by decide +kernel)
    (by rw [hstore]; decide +kernel) (by rw [hstore]; rfl)
  refine (meets_append _ _ _).2 ⟨(meets_append _ _ _).2 ⟨peerRegisters_logs, hremoved, hdeleted, trivial⟩,
    logs_discovery fun ev hev changes heq => ?_⟩
  rw [heq] at hev
  simp [goneTold] at hev

theorem peerLeaves_drained :
    let d := peerPublished.step proxyCodec .steady proxyBus (.watcher (.write [⟨.delete, goneKv⟩]))
    Meets (Discovery.step proxyCodec .steady proxyBus) (Discovery.Forward proxyCodec .steady proxyBus) d goneTold ∧
      (Discovery.run proxyCodec .steady proxyBus d goneTold).watcher.Drained := by
  decide +kernel

theorem peerLeaves_expects :
    Meets (Discovery.step proxyCodec .steady proxyBus) (Discovery.Expects proxyCodec .steady proxyBus proxyConf atproxy)
      (.start proxyConf atproxy proxyApp) (peerLeaves.flatMap SystemEvent.told) := by
  rw [told_peerLeaves]
  refine (meets_append _ _ _).2 ⟨peerPublishes_expects, Discovery.expects_write fun ch hch _ => ?_,
    peerLeaves_drained.1.mono fun _ _ h => h.expects⟩
  rw [List.mem_singleton.1 hch]
  exact .delete (by decide : (7 : UInt64) ≠ 0) rfl rfl

/-- behind that run -/
def peerLeft : System Unit := System.run proxyCodec steadyEnv .steady proxyBus peerStart peerLeaves

section sample

attribute [local irreducible] System.run Discovery.run

theorem removed_forgotten_peer : peerLeft.discovery.manager.proxySet 7 = none := by
  rw [peerLeft, peerStart]
  refine removed_forgotten inverse_proxyCodec readsNumbers_proxyCodec steadyEnv .steady proxyBus
    (fun _ => { pathNode := "http://etcd" }) peerPath (fun _ _ => none) proxyConf atproxy proxyApp peerLeaves peerLeaves_logs
    peerLeaves_expects () 0 (fun j l hpath => ⟨rfl, ?_⟩)
    peerAsks [.execute () 2 7] rfl (.inl ⟨.inl (by decide +kernel), by decide +kernel⟩) (by decide +kernel) (by decide +kernel)
    7 (by decide) rfl ?_ ?_
  · by_contra hl
    rw [peerPath, peerPath, if_neg hl, if_pos rfl] at hpath
    exact absurd hpath (by decide +kernel)
  · rw [run_discovery, told_peerLeaves, Discovery.run_append_cons]
    exact peerLeaves_drained.2
  · rw [run_net]
    decide +kernel

end sample

end AtFrame.Proxy
