/-
The addresses of a proxy, and the connects that `tick` makes to them.

The loop over the addresses does not stop at the first that is available, but does not move it either. Behind the connect the
address goes to the end, and so the available addresses take turns, whatever stands between them.

- `selectListen_split`: the loop brings the first available address to the front;
- `check_rotating`, `step_rotating`: one round and one call;
- `connects_rotate`: the connects for a proxy, over any number of ticks, as long as nothing but ticks writes its entry.
The condition is needed: `set` writes the addresses as they were published over the list that the ticks have turned.
- `connects_repeat_put`: the same information is put again between two connects, and both go to one address.

Witness `connects_rotate_peer`: of three addresses two are available, and the socket takes no turn.
-/
import AtFrame.Proxy.Manager
import AtFrame.Lib.RoundRobin

namespace AtFrame.Proxy

open AtFrame.EtcdModule AtFrame.Lib

variable {e : BusEnv} {m : Manager} {id : AppId} {p : ProxyInfo} {ci : CheckInfo} {rest : List CheckInfo}

/-! ## Addresses -/

/-- the special cases for short lists make no difference -/
theorem nextListenAddress_eq (listens : List String) : nextListenAddress listens = listens.rotate 1 := by
  match listens with
  | [] => rfl
  | [a] => exact (List.rotate_singleton a 1).symm
  | [a, b] => rfl
  | a :: b :: c :: rest => exact (rotate_one a (b :: c :: rest)).symm

theorem passUnavailable_eq (available : String → Bool) : passUnavailable available = turn available := by
  funext listens
  cases listens with
  | nil => rfl
  | cons a rest => simp only [passUnavailable, turn, nextListenAddress_eq]

/-- the list behind a connect is a rotation of the list before it, whatever is available -/
theorem next_selectListen_rotate (available : String → Bool) (listens : List String) :
    ∃ k, nextListenAddress (selectListen available listens) = listens.rotate k := by
  obtain ⟨k, hk⟩ := turn_iterate_rotate available listens.length listens
  refine ⟨k + 1, ?_⟩
  rw [nextListenAddress_eq, selectListen, passUnavailable_eq, hk, List.rotate_rotate]

theorem selectListen_split {available : String → Bool} {pre post : List String} {a : String}
    (hpre : ∀ b ∈ pre, available b = false) (ha : available a = true) :
    selectListen available (pre ++ a :: post) = a :: (post ++ pre) := by
  rw [selectListen, passUnavailable_eq]
  exact turn_iterate hpre ha (by rw [List.length_append]; exact Nat.le_add_right _ _)

/-! ## Connects -/

/-- the connects made for a proxy since its addresses were `listens`, and the addresses as they stand behind them -/
structure Turned (listens : List String) (available : String → Bool) (made : List Connect) (stand : List String) : Prop where
  rotated : stand ~r listens
  first : ∀ c ∈ made, c.listens ~r listens ∧ c.listens.find? available = some c.address
  served : made.map Connect.address = turns made.length (listens.filter available)
  next : stand.filter available = (listens.filter available).rotate made.length

variable {listens stand : List String} {available : String → Bool} {made : List Connect}

theorem turned_nil (listens : List String) (available : String → Bool) : Turned listens available [] listens :=
  ⟨.refl listens, fun _ h => absurd h List.not_mem_nil, rfl, (List.rotate_zero _).symm⟩

/-- **One connect** goes to the first address that is available, and it is the turn of this address. -/
theorem Turned.connect (h : Turned listens available made stand) (hsome : ∃ a ∈ listens, available a = true)
    {remote : String → Bool} (hremote : ∀ a ∈ listens, remote a = available a) (id : AppId) :
    Turned listens available (made ++ [⟨id, stand, (selectListen remote stand).headD ""⟩])
      (nextListenAddress (selectListen remote stand)) := by
  obtain ⟨b, hb, hbAvailable⟩ := hsome
  obtain ⟨a, hfind⟩ := Option.isSome_iff_exists.1 (List.find?_isSome.2 ⟨b, h.rotated.mem_iff.2 hb, hbAvailable⟩)
  obtain ⟨ha, pre, post, hsplit, hpre⟩ := List.find?_eq_some_iff_append.1 hfind
  have hunavailable : ∀ c ∈ pre, available c = false := fun c hc => by simpa using hpre c hc
  have hmem : ∀ c ∈ stand, remote c = available c := fun c hc => hremote c (h.rotated.mem_iff.1 hc)
  have hselect : selectListen remote stand = a :: (post ++ pre) := by
    rw [hsplit]
    refine selectListen_split (fun c hc => ?_) ?_
    · rw [hmem c (by rw [hsplit]; exact List.mem_append_left _ hc), hunavailable c hc]
    · rw [hmem a (by rw [hsplit]; exact List.mem_append_right _ List.mem_cons_self), ha]
  have hnone : pre.filter available = [] := List.filter_eq_nil_iff.2 fun c hc => Bool.eq_false_iff.1 (hunavailable c hc)
  have hturn : (listens.filter available).rotate made.length = a :: post.filter available := by
    rw [← h.next, hsplit, List.filter_append, hnone, List.nil_append, List.filter_cons_of_pos ha]
  refine ⟨?_, fun c hc => ?_, ?_, ?_⟩
  · obtain ⟨k, hk⟩ := next_selectListen_rotate remote stand
    rw [hk]
    exact (List.IsRotated.forall stand k).trans h.rotated
  · rcases List.mem_append.1 hc with hc | hc
    · exact h.first c hc
    · rw [List.mem_singleton.1 hc, hselect]
      exact ⟨h.rotated, hfind⟩
  · rw [List.map_append, h.served, List.length_append, List.length_singleton, turns_add, hturn, hselect]
    rfl
  · rw [hselect, nextListenAddress_eq, rotate_one, List.filter_append, List.filter_append, hnone, List.append_nil,
      List.filter_cons_of_pos ha, List.filter_nil, List.length_append, List.length_singleton, ← List.rotate_rotate, hturn,
      rotate_one]

/-- what is said of the connects that were made for a proxy -/
structure FairConnects (listens : List String) (available : String → Bool) (made : List Connect) : Prop where
  /-- each uses the first available address in cyclic order from the front as it was -/
  first : ∀ c ∈ made, c.listens ~r listens ∧ c.listens.find? available = some c.address
  /-- and so many as there are available addresses use each once -/
  once : ∀ before window after, made = before ++ window ++ after → window.length = (listens.filter available).length →
    ∀ a ∈ listens, available a = true → (window.map Connect.address).count a = 1

theorem Turned.fair (h : Turned listens available made stand) (hdistinct : listens.Nodup) :
    FairConnects listens available made := by
  refine ⟨h.first, fun before window after hmade hlen a ha havailable => ?_⟩
  have hserved := h.served
  rw [hmade, List.map_append, List.map_append, ← hmade] at hserved
  exact count_window (hdistinct.filter available) hserved.symm (by rw [List.length_map, hlen])
    (List.mem_filter.2 ⟨ha, havailable⟩)

/-! ## Runs -/

/-- a tick to which the same addresses of a proxy are available, or an event that leaves the entry of the proxy as it stands; a put
that repeats the published information does not, it writes the addresses back in their first order -/
def Event.Keeps (e : BusEnv) (id : AppId) (node : NodeInfo) (available : String → Bool) (m : Manager) : Event → Prop
  | .tick remote => ∀ a ∈ node.listens, remote node.hostname a = available a
  | ev => ((step e m ev).proxySet id).map ProxyInfo.etcdNode = (m.proxySet id).map ProxyInfo.etcdNode

instance (e : BusEnv) (id : AppId) (node : NodeInfo) (available : String → Bool) (m : Manager) :
    DecidablePred (Event.Keeps e id node available m) := by
  rintro (_ | _) <;> dsimp only [Event.Keeps] <;> infer_instance

/-- the published information of the proxy is `node` all the time, and the same addresses are available -/
def Event.Unchanged (id : AppId) (node : NodeInfo) (available : String → Bool) : Event → Prop
  | .tick remote => ∀ a ∈ node.listens, remote node.hostname a = available a
  | .set other | .notify other => other.id = id → other = node
  | .remove other => other ≠ id
  | .reset allProxys => (∃ p ∈ allProxys, p.etcdNode.id = id) ∧ ∀ p ∈ allProxys, p.etcdNode.id = id → p.etcdNode = node
  | .connected _ | .disconnected _ | .clock _ => True

instance (id : AppId) (node : NodeInfo) (available : String → Bool) : DecidablePred (Event.Unchanged id node available) :=
  by rintro (_ | _) <;> dsimp only [Event.Unchanged] <;> infer_instance

/-- the proxy with its addresses turned, and the connects made for it behind those of `before` -/
def Rotating (id : AppId) (node : NodeInfo) (available : String → Bool) (before : List Connect) (m : Manager) : Prop :=
  ∃ p new, m.proxySet id = some p ∧ p.etcdNode = { node with listens := p.etcdNode.listens } ∧ m.connects = before ++ new ∧
    Turned node.listens available (new.filter fun c => c.proxyId = id) p.etcdNode.listens

variable {node : NodeInfo} {before : List Connect} {m' : Manager}

/-- the entry may be written with another time -/
theorem Rotating.same (h : Rotating id node available before m) (hconnects : m'.connects = m.connects)
    (hsame : ∀ p, m.proxySet id = some p → ∃ p', m'.proxySet id = some p' ∧ p'.etcdNode = p.etcdNode) :
    Rotating id node available before m' := by
  obtain ⟨p, new, hp, hnode, hnew, hturned⟩ := h
  obtain ⟨p', hp', hetcd⟩ := hsame p hp
  refine ⟨p', new, hp', ?_, hconnects.trans hnew, ?_⟩
  · rw [hetcd]
    exact hnode
  · rw [hetcd]
    exact hturned

theorem Rotating.setProxy (h : Rotating id node available before m) {other : AppId} {q : ProxyInfo}
    (hq : other = id → ∀ p, m.proxySet id = some p → q.etcdNode = p.etcdNode) (hconnects : m'.connects = m.connects)
    (hset : m'.proxySet = (m.setProxy other (some q)).proxySet) : Rotating id node available before m' := by
  refine h.same hconnects fun p hp => ?_
  rw [hset]
  by_cases hother : other = id
  · subst hother
    exact ⟨q, setProxy_self other _ m, hq rfl p hp⟩
  · exact ⟨p, (setProxy_ne (Ne.symm hother) _ m).trans hp, rfl⟩

theorem check_rotating {remote : String → String → Bool} (h : Rotating id node available before m)
    (hsome : ∃ a ∈ node.listens, available a = true) (hremote : ∀ a ∈ node.listens, remote node.hostname a = available a) :
    Rotating id node available before (check e remote ci m).2 := by
  have hchecked := check_checked e remote ci m
  generalize check e remote ci m = r at hchecked
  have hfound : ∀ {q : ProxyInfo}, m.Due ci q → ci.proxyId = id → ∀ p, m.proxySet id = some p → q = p := by
    rintro q hdue rfl p hp
    exact Option.some.inj (hdue.found.symm.trans hp)
  cases hchecked with
  | skip => exact h
  | settle hdue => exact h.setProxy (fun hid p hp => by rw [hfound hdue hid p hp]) rfl rfl
  | wait hdue => exact h.setProxy (fun hid p hp => by rw [hfound hdue hid p hp]) rfl rfl
  | @connect q bus hdue hbus hlost havailable =>
    obtain ⟨p, new, hp, hnode, hnew, hturned⟩ := h
    set made := connectTo (remote q.etcdNode.hostname) ci.proxyId { q with nextActionTime := 0 } with hmade
    have hconnects : m.connects ++ [made] = before ++ (new ++ [made]) := by rw [hnew, List.append_assoc]
    by_cases hid : ci.proxyId = id
    · cases hfound hdue hid p hp
      have hhost : q.etcdNode.hostname = node.hostname := by rw [hnode]
      refine ⟨{ q.turned (remote q.etcdNode.hostname) with nextActionTime := m.app.retryTime bus }, new ++ [made], ?_, ?_,
        hconnects, ?_⟩
      · rw [← hid]
        exact setProxy_self ci.proxyId _ m
      · simp only [ProxyInfo.turned]
        rw [hnode]
      · have hmine : ([made].filter fun c => c.proxyId = id) = [made] := List.filter_cons_of_pos (decide_eq_true hid)
        rw [List.filter_append, hmine, hmade, hhost]
        exact hturned.connect hsome hremote ci.proxyId
    · refine ⟨p, new ++ [made], (setProxy_ne (Ne.symm hid) _ m).trans hp, hnode, hconnects, ?_⟩
      have hother : ([made].filter fun c => c.proxyId = id) = [] := List.filter_cons_of_neg fun h => hid (of_decide_eq_true h)
      rw [List.filter_append, hother, List.append_nil]
      exact hturned

/-! Connects are made by ticks only. -/

theorem set_connects (node : NodeInfo) (m : Manager) : (set e node m).connects = m.connects := by
  unfold set
  simp only
  split
  · split_ifs <;> rfl
  · rfl

theorem reset_connects (allProxys : List ProxyInfo) (m : Manager) : (reset e allProxys m).connects = m.connects := by
  refine reset_induct (fun m' => m'.connects = m.connects) rfl fun m' p hm' => ?_
  unfold resetOne
  split_ifs
  · exact hm'
  · exact hm'

theorem onDisconnected_connects (id : AppId) (m : Manager) : (onDisconnected id m).connects = m.connects := by
  unfold onDisconnected
  split
  · rfl
  · split_ifs <;> rfl

theorem step_connects {ev : Event} (hev : ∀ remote, ev ≠ .tick remote) : (step e m ev).connects = m.connects := by
  cases ev with
  | tick remote => exact absurd rfl (hev remote)
  | set node => exact set_connects node m
  | remove id => rfl
  | reset allProxys => exact reset_connects allProxys m
  | notify node =>
    simp only [step, onWatcherNotify]
    split_ifs
    · rfl
    · exact set_connects node m
  | connected id => rfl
  | disconnected id => exact onDisconnected_connects id _
  | clock now => rfl

theorem Rotating.keeps (h : Rotating id node available before m) {ev : Event} (hev : ∀ remote, ev ≠ .tick remote)
    (hsame : ((step e m ev).proxySet id).map ProxyInfo.etcdNode = (m.proxySet id).map ProxyInfo.etcdNode) :
    Rotating id node available before (step e m ev) := by
  refine h.same (step_connects hev) fun p hp => ?_
  rw [hp, Option.map_some] at hsame
  exact Option.map_eq_some_iff.1 hsame

theorem step_rotating (h : Rotating id node available before m) (hsome : ∃ a ∈ node.listens, available a = true) {ev : Event}
    (hev : ev.Keeps e id node available m) : Rotating id node available before (step e m ev) := by
  cases ev with
  | tick remote => exact tick_induct _ (fun _ _ hm => check_rotating (hm.same rfl fun p hp => ⟨p, hp, rfl⟩) hsome hev) h
  | set | remove | reset | notify | connected | disconnected | clock => exact h.keeps (fun _ heq => nomatch heq) hev

/-- **Turns.** As long as nothing but ticks writes the entry of a proxy and the availability of its addresses does not change, its
list stays a rotation of what it was, each connect goes to the first available address from the front on, and as many connects in a row as
there are available addresses use each of them once. -/
theorem connects_rotate (hp : m.proxySet id = some p) (hdistinct : p.etcdNode.listens.Nodup)
    (hsome : ∃ a ∈ p.etcdNode.listens, available a = true) {events : List Event}
    (hkeeps : Meets (step e) (Event.Keeps e id p.etcdNode available) m events) :
    ∃ p' new, (run e m events).proxySet id = some p' ∧ p'.etcdNode.listens ~r p.etcdNode.listens ∧
      (run e m events).connects = m.connects ++ new ∧
      FairConnects p.etcdNode.listens available (new.filter fun c => c.proxyId = id) := by
  have hstart : Rotating id p.etcdNode available m.connects m :=
    ⟨p, [], hp, rfl, (List.append_nil _).symm, turned_nil _ available⟩
  obtain ⟨p', new, hp', -, hnew, hturned⟩ := hkeeps.invariant (fun _ _ h hev => step_rotating h hsome hev) hstart
  exact ⟨p', new, hp', hturned.rotated, hnew, hturned.fair hdistinct⟩

def peerTicks : List Event :=
  [.clock 101, .tick remote, .clock 107, .tick remote, .disconnected 7, .clock 113, .tick remote]

theorem connects_rotate_peer :
    ∃ p' new, (run proxyBus (run proxyBus (.start proxyApp) [.notify peer]) peerTicks).proxySet 7 = some p' ∧
      p'.etcdNode.listens ~r peer.listens ∧
      (run proxyBus (run proxyBus (.start proxyApp) [.notify peer]) peerTicks).connects = [] ++ new ∧
      FairConnects peer.listens (remote "") (new.filter fun c => c.proxyId = 7) :=
  have hfound : (run proxyBus (.start proxyApp) [.notify peer]).proxySet 7 = some ⟨peer, 100, true⟩ := by decide +kernel
  have hdistinct : peer.listens.Nodup := by decide
  have hsome : ∃ a ∈ peer.listens, remote "" a = true := ⟨"ipv4://10.0.0.7:21437", by decide, by decide⟩
  connects_rotate hfound hdistinct hsome (by decide +kernel)

/-- the peer is connected, puts the same information again, and is lost -/
def putAgain : List Event :=
  [.clock 101, .tick remote, .connected 7, .clock 107, .tick remote, .notify peer, .disconnected 7, .clock 113, .tick remote]

/-- **The same address twice** in a row, of two that are available, though the published information never changes. -/
theorem connects_repeat_put : ¬ ∀ (e : BusEnv) (m : Manager) (id : AppId) (p : ProxyInfo) (available : String → Bool)
    (events : List Event), m.proxySet id = some p → p.etcdNode.listens.Nodup → (∃ a ∈ p.etcdNode.listens, available a = true) →
    (∀ ev ∈ events, ev.Unchanged id p.etcdNode available) →
    ∃ p' new, (run e m events).proxySet id = some p' ∧ p'.etcdNode.listens ~r p.etcdNode.listens ∧
      (run e m events).connects = m.connects ++ new ∧
      FairConnects p.etcdNode.listens available (new.filter fun c => c.proxyId = id) := by
  intro h
  have hfound : (run proxyBus (.start proxyApp) [.notify peer]).proxySet 7 = some ⟨peer, 100, true⟩ := by decide +kernel
  have hsome : ∃ a ∈ peer.listens, remote "" a = true := ⟨"ipv4://10.0.0.7:21437", by decide, by decide⟩
  obtain ⟨p', new, -, -, hnew, hfair⟩ := h proxyBus _ 7 _ (remote "") putAgain hfound (by decide) hsome (by decide +kernel)
  set twice : List Connect := List.replicate 2 ⟨7, peer.listens, "ipv4://10.0.0.7:21437"⟩ with htwice
  have hmade : (run proxyBus (run proxyBus (.start proxyApp) [.notify peer]) putAgain).connects = twice := by decide +kernel
  obtain rfl : twice = new := hmade.symm.trans hnew
  have hcount := hfair.once [] twice [] (by decide) (by decide) "ipv4://10.0.0.7:21437" (by decide) (by decide)
  exact absurd hcount (by decide)

end AtFrame.Proxy
