/-
What a removed keepalive leaves behind.

`remove_keepalive` sends a delete only for a keepalive whose put has been answered (`has_data`), and the requests that are out
are not recalled. So the key stays where the put is executed but not answered, or is executed behind the delete, and where
`set_value` makes the removed keepalive put again. Otherwise the path is covered from the removal on: the key is gone, or a
delete behind every put is in flight, or a deletor waits.

- `gone_removed`, `Gone.event`: the path is covered behind the removal, and stays covered;
- `removed_leaves_no_key`: the statement over runs;
- `removed_leaves_key`: a put that was not answered when its keepalive was removed.

Premises: the path belongs to this keepalive alone. At the removal it is listed with `has_data`, or its path is covered already
(`Removable`). Behind it the keepalive is not added again, and no deletor of its path is at its last try (`Dismissed`); no new
value makes it put again, and no put of the path is executed behind a delete that was sent later (`Orderly`). Requests may be
lost, answered late, or fail. What is said holds where no request for the path is left (`Quiet`).
Witness `removed_leaves_no_key_answered`: the put was answered, and so the removal deletes.
-/
import AtFrame.Etcd.Idle
import AtFrame.Etcd.Network
import AtFrame.Lib.Steps

namespace AtFrame.Etcd

open AtFrame.Lib

variable {ι : Type} [DecidableEq ι] {E : ι → EtcdEnv} {n : Net ι} {i : ι} {k : ℕ} {p : Bytes} {path : ι → ℕ → Bytes}

/-! ## Statement -/

/-- a put of the path -/
def Ask.Puts (p : Bytes) (ask : Ask) : Prop := ∃ value lease, ask = .put p value lease

instance (p : Bytes) : ∀ ask : Ask, Decidable (ask.Puts p)
  | .put key value lease => decidable_of_iff (key = p)
      ⟨fun h => ⟨value, lease, by rw [h]⟩, fun ⟨_, _, h⟩ => (Ask.put.inj h).1⟩
  | .memberList | .authenticate | .userGet | .leaseGrant _ _ | .leaseKeepalive _ | .leaseRevoke _ | .get _ | .delete _ =>
    .isFalse fun ⟨_, _, h⟩ => Ask.noConfusion h

def Ask.Writes (p : Bytes) (ask : Ask) : Prop := ask.Puts p ∨ ask.Deletes p

instance (p : Bytes) : DecidablePred (Ask.Writes p) := fun ask => inferInstanceAs (Decidable (ask.Puts p ∨ ask.Deletes p))

/-- nothing that writes the path is in flight, and no deletor of it waits -/
def Net.Quiet (n : Net ι) (i : ι) (p : Bytes) : Prop :=
  (∀ id, n.Sends i (Ask.Writes p) id → n.outcome i id ≠ none) ∧ ¬ Waits (n.cluster i).toCluster p

instance (n : Net ι) (i : ι) (p : Bytes) : Decidable (n.Quiet i p) := inferInstanceAs (Decidable (_ ∧ _))

/-- The path is covered: the key is gone, and what could put it again has been overtaken by a delete; or a delete that was sent
behind every put is in flight; or a deletor waits. -/
def Net.Covered (n : Net ι) (i : ι) (p : Bytes) : Prop :=
  n.store p = none ∧ (∀ id, n.Sends i (Ask.Puts p) id → n.outcome i id = none →
      ∃ id', n.Sends i (Ask.Deletes p) id' ∧ id < id' ∧ n.outcome i id' ≠ none) ∨
    (∃ id, n.Sends i (Ask.Deletes p) id ∧ n.outcome i id = none ∧ ∀ id', n.Sends i (Ask.Puts p) id' → id' < id) ∨
    Waits (n.cluster i).toCluster p

/-- The removal sends a delete, or the path is covered without one and nothing runs for the keepalive. -/
def Net.Removable (n : Net ι) (i : ι) (k : ℕ) : Prop :=
  let c := n.cluster i
  let found := k ∈ c.keepaliveActors ∨ k ∈ c.keepaliveRetryActors
  found ∧ (c.keep k).hasData = true ∨ (found ∨ (c.keep k).rpc = none) ∧ n.Covered i (c.keep k).path

/-- The keepalive is not added again, the cluster is not closed, and no delete of the path has failed eight times. -/
def Dismissed (i : ι) (k : ℕ) (p : Bytes) (n : Net ι) : NetEvent ι → Prop
  | .client j ev => j = i → Trying (n.cluster i).toCluster p ∧
      match ev with
      | .addKeepalive l => l ≠ k
      | .close => False
      | _ => True
  | _ => True

/-- The removed keepalive is given no new value that it would put, and no put is executed behind a delete that was sent later. -/
def Orderly (i : ι) (k : ℕ) (p : Bytes) (n : Net ι) : NetEvent ι → Prop
  | .client j ev => j = i →
      match ev with
      | .setValue l value => l = k →
        ((n.cluster i).keep l).value = value ∨ ¬ ((n.cluster i).running = true ∧ (n.cluster i).conf.lease ≠ 0)
      | _ => True
  | .execute j id _ => j = i → n.Sends i (Ask.Puts p) id →
      ∀ id', n.Sends i (Ask.Deletes p) id' → id < id' → n.outcome i id' = none
  | .expire _ => True

instance (i : ι) (k : ℕ) (p : Bytes) (n : Net ι) (ev : NetEvent ι) : Decidable (Dismissed i k p n ev) := by
  rcases ev with ⟨_, _ | _⟩ | _ | _ <;> dsimp only [Dismissed] <;> infer_instance

instance (i : ι) (k : ℕ) (p : Bytes) (n : Net ι) (ev : NetEvent ι) : Decidable (Orderly i k p n ev) := by
  rcases ev with ⟨_, _ | _⟩ | _ | _ <;> dsimp only [Orderly] <;> infer_instance

/-! ## The invariant -/

/-- behind the removal -/
structure Gone (i : ι) (k : ℕ) (path : ι → ℕ → Bytes) (n : Net ι) : Prop where
  sound : Sound path n
  idle : Idle (· = k) (n.cluster i).sent.length (n.cluster i)
  covered : n.Covered i (path i k)

omit [DecidableEq ι] in
/-- where no put is sent and an owed delete stays owed, the path stays covered -/
theorem Net.Covered.sends {m : Net ι} {N : ℕ} (h : n.Covered i p) (hstore : m.store p = n.store p)
    (houtcome : m.outcome i = n.outcome i) (hsends : ∀ P id, n.Sends i P id → m.Sends i P id)
    (hputs : ∀ id, m.Sends i (Ask.Puts p) id → n.Sends i (Ask.Puts p) id ∧ id < N)
    (hwaits : Waits (n.cluster i).toCluster p →
      Waits (m.cluster i).toCluster p ∨ ∃ id, N ≤ id ∧ m.Sends i (Ask.Deletes p) id ∧ m.outcome i id = none) : m.Covered i p := by
  rcases h with ⟨hnone, hovertaken⟩ | ⟨id, hid, ho, hlast⟩ | hw
  · refine .inl ⟨hstore.trans hnone, fun id hid ho => ?_⟩
    rw [houtcome] at ho ⊢
    obtain ⟨id', hid', hlt, ho'⟩ := hovertaken id (hputs id hid).1 ho
    exact ⟨id', hsends _ id' hid', hlt, ho'⟩
  · exact .inr (.inl ⟨id, hsends _ id hid, by rw [houtcome]; exact ho, fun id' hid' => hlast id' (hputs id' hid').1⟩)
  · rcases hwaits hw with hw | ⟨id, hN, hid, ho⟩
    · exact .inr (.inr hw)
    · exact .inr (.inl ⟨id, hid, ho, fun id' hid' => (hputs id' hid').2.trans_le hN⟩)

omit [DecidableEq ι] in
/-- puts of a path that one keepalive has are sent by that keepalive -/
theorem Sound.put_target (hs : Sound path n) (hpath : ∀ j l, path j l = path i k → j = i ∧ l = k) {j : ι} {id : ℕ} {s : Sent}
    (hsent : (n.cluster j).sent[id]? = some s) (hput : s.ask.Puts (path i k)) : j = i ∧ s.target = .keepalive k := by
  obtain ⟨value, lease, hask⟩ := hput
  obtain ⟨l, hl, htarget⟩ := (hs.base j).puts s (List.mem_of_getElem? hsent) _ _ _ hask
  obtain ⟨rfl, rfl⟩ := hpath j l hl.symm
  exact ⟨rfl, htarget⟩

omit [DecidableEq ι] in
theorem sends_iff {P : Ask → Prop} {id : ℕ} : n.Sends i P id ↔ ∃ s, (n.cluster i).sent[id]? = some s ∧ P s.ask := by
  unfold Net.Sends Net.ask
  constructor
  · rintro ⟨a, ha, hP⟩
    obtain ⟨s, hs, rfl⟩ := Option.map_eq_some_iff.1 ha
    exact ⟨s, hs, hP⟩
  · rintro ⟨s, hs, hP⟩
    exact ⟨s.ask, by rw [hs, Option.map_some], hP⟩

/-- an event of the cluster itself -/
theorem Gone.client (h : Gone i k path n) (hpath : ∀ j l, path j l = path i k → j = i ∧ l = k) {ev : EtcdEvent}
    (hallows : n.Allows i ev) (hdismissed : Dismissed i k (path i k) n (.client i ev))
    (horderly : Orderly i k (path i k) n (.client i ev)) : Gone i k path (netEvent E n (.client i ev)) := by
  set N := (n.cluster i).sent.length
  have hsound := h.sound.event (E := E) (.client i ev)
  have hcluster : (netEvent E n (.client i ev)).cluster i = etcdEvent (E i) (n.cluster i) ev := by
    rw [netEvent_client hallows]
    exact Function.update_self ..
  have hrest : (netEvent E n (.client i ev)).outcome = n.outcome ∧ (netEvent E n (.client i ev)).store = n.store := by
    rw [netEvent_client hallows]
    exact ⟨rfl, rfl⟩
  obtain ⟨hdel, hev⟩ := hdismissed rfl
  have hdid := did_event (e := E i) (n.cluster i) ev
  have hidle : Idle (· = k) N (etcdEvent (E i) (n.cluster i) ev) := by
    refine hdid.idle ?_ h.idle
    cases ev with
    | addKeepalive l => exact hev
    | setValue l value => exact horderly rfl
    | _ => trivial
  have hkeeps : ev.KeepsDeletors (path i) (path i k) := by
    cases ev with
    | addKeepalive l => exact fun hl => hev (hpath i l hl).2
    | close => exact hev
    | _ => trivial
  refine ⟨hsound, ?_, h.covered.sends (N := N) (congrFun hrest.2 _) (congrFun hrest.1 i) (fun P id hid => sends_event hid _) ?_ ?_⟩
  · rw [hcluster]
    exact hidle.mono hdid.sent.length_le
  · intro id hid
    obtain ⟨s, hs, hput⟩ := sends_iff.1 hid
    have hlt : id < N := by
      by_contra hge
      rw [hcluster] at hs
      have htarget := (hsound.put_target hpath (hcluster ▸ hs) hput).2
      obtain ⟨value, lease, hask⟩ := hput
      exact hidle.puts id s k (Nat.not_lt.1 hge) hs rfl htarget _ _ _ hask
    refine ⟨sends_iff.2 ⟨s, ?_, hput⟩, hlt⟩
    obtain ⟨new, hnew⟩ := hdid.sent
    rw [hcluster, ← hnew, List.getElem?_append_left hlt] at hs
    exact hs
  · intro hw
    rw [hcluster]
    rcases hdid.owed (h.sound.base i) hkeeps hdel le_rfl (.inl hw) with hw' | ⟨id, s, hN, hs, hdeletes⟩
    · exact .inl hw'
    · refine .inr ⟨id, hN, sends_iff.2 ⟨s, hcluster ▸ hs, hdeletes⟩, ?_⟩
      rw [hrest.1]
      refine h.sound.unsent i id ?_
      rw [Net.ask, List.getElem?_eq_none hN]
      rfl

/-- an event of another cluster -/
theorem Gone.other (h : Gone i k path n) {j : ι} (hj : j ≠ i) (ev : EtcdEvent) :
    Gone i k path (netEvent E n (.client j ev)) := by
  have hcluster : (netEvent E n (.client j ev)).cluster i = n.cluster i := by
    rcases cluster_event (E := E) n (.client j ev) i with heq | ⟨ev', heq, -⟩
    · exact heq
    · exact absurd (NetEvent.client.inj heq).1 hj
  have hrest : (netEvent E n (.client j ev)).outcome = n.outcome ∧ (netEvent E n (.client j ev)).store = n.store := by
    rw [netEvent]
    split_ifs <;> exact ⟨rfl, rfl⟩
  refine ⟨h.sound.event _, by rw [hcluster]; exact h.idle, ?_⟩
  refine h.covered.sends (N := (n.cluster i).sent.length) (congrFun hrest.2 _) (congrFun hrest.1 i)
    (fun P id hid => sends_event hid _) (fun id hid => ?_) fun hw => ?_
  · have hid' : n.Sends i (Ask.Puts (path i k)) id := by
      rw [sends_iff, hcluster, ← sends_iff] at hid
      exact hid
    exact ⟨hid', hid'.lt⟩
  · rw [hcluster]
    exact .inl hw

omit [DecidableEq ι] in
/-- where requests stay what they are, and none is executed but what this case is about -/
theorem Net.Covered.stored {m : Net ι} (h : n.Covered i p) (hcluster : m.cluster = n.cluster)
    (hexecuted : ∀ id, n.outcome i id ≠ none → m.outcome i id ≠ none)
    (hnone : n.store p = none → m.store p = none)
    (hlast : ∀ id, n.Sends i (Ask.Deletes p) id → m.outcome i id ≠ none → n.outcome i id ≠ none ∨ m.store p = none) :
    m.Covered i p := by
  have hsends : ∀ P id, m.Sends i P id ↔ n.Sends i P id := fun P id => by
    rw [sends_iff, sends_iff, hcluster]
  rcases h with ⟨hgone, hovertaken⟩ | ⟨id, hid, ho, hputs⟩ | hw
  · refine .inl ⟨hnone hgone, fun id hid ho => ?_⟩
    obtain ⟨id', hid', hlt, ho'⟩ := hovertaken id ((hsends _ id).1 hid) (not_not.1 fun hne => hexecuted id hne ho)
    exact ⟨id', (hsends _ id').2 hid', hlt, hexecuted id' ho'⟩
  · by_cases hm : m.outcome i id = none
    · exact .inr (.inl ⟨id, (hsends _ id).2 hid, hm, fun id' hid' => hputs id' ((hsends _ id').1 hid')⟩)
    · rcases hlast id hid hm with hne | hgone
      · exact absurd ho hne
      · exact .inl ⟨hgone, fun id' hid' _ => ⟨id, (hsends _ id).2 hid, hputs id' ((hsends _ id').1 hid'), hm⟩⟩
  · exact .inr (.inr (by rw [hcluster]; exact hw))

/-- a delete of the path is executed -/
theorem store_delete {id : ℕ} (granted : ℤ) (hid : n.Sends i (Ask.Deletes p) id) (ho : n.outcome i id = none) :
    (netEvent E n (.execute i id granted)).store p = none := by
  obtain ⟨a, ha, hdel⟩ := hid
  rw [netEvent_execute granted ha ho, hdel]
  exact if_pos (covers_self p)

/-- an event of the store -/
theorem Gone.stored (h : Gone i k path n) (hpath : ∀ j l, path j l = path i k → j = i ∧ l = k) {ev : NetEvent ι}
    (horderly : Orderly i k (path i k) n ev) (hstore : ∀ j ev', ev ≠ .client j ev') : Gone i k path (netEvent E n ev) := by
  have hcluster : (netEvent E n ev).cluster = n.cluster := by
    funext j
    rcases cluster_event (E := E) n ev j with heq | ⟨ev', heq, -⟩
    · exact heq
    · exact absurd heq (hstore j ev')
  refine ⟨h.sound.event ev, by rw [hcluster]; exact h.idle, ?_⟩
  have hexecuted : ∀ id, n.outcome i id ≠ none → (netEvent E n ev).outcome i id ≠ none := fun id hne => by
    obtain ⟨o, ho⟩ := Option.ne_none_iff_exists'.1 hne
    exact (outcome_stays ho ev).symm ▸ Option.some_ne_none o
  have hlast : ∀ id, n.Sends i (Ask.Deletes (path i k)) id → (netEvent E n ev).outcome i id ≠ none →
      n.outcome i id ≠ none ∨ (netEvent E n ev).store (path i k) = none := fun id hid hne => by
    rcases outcome_event (E := E) n ev i id with heq | ⟨granted, a, rfl, -, ho, -⟩
    · exact .inl (heq ▸ hne)
    · exact .inr (store_delete granted hid ho)
  rcases store_event (E := E) n ev (path i k) with hsame | hnone | ⟨j, id, granted, value, lease, rfl, hask, ho, -⟩
  · exact h.covered.stored hcluster hexecuted (fun hgone => hsame.trans hgone) hlast
  · exact h.covered.stored hcluster hexecuted (fun _ => hnone) hlast
  · have hid : n.Sends j (Ask.Puts (path i k)) id := ⟨_, hask, value, lease, rfl⟩
    obtain ⟨s, hs, hput⟩ := sends_iff.1 hid
    obtain rfl := (h.sound.put_target hpath hs hput).1
    rcases h.covered with ⟨-, hovertaken⟩ | hlastDelete
    · obtain ⟨id', hid', hlt, hne⟩ := hovertaken id hid ho
      exact absurd (horderly rfl hid id' hid' hlt) hne
    · have hsends : ∀ P id', (netEvent E n (.execute j id granted)).Sends j P id' ↔ n.Sends j P id' := fun P id' => by
        rw [sends_iff, sends_iff, hcluster]
      refine .inr (hlastDelete.imp (fun ⟨id', hid', ho', hputs⟩ => ⟨id', (hsends _ id').2 hid', ?_, fun id'' h'' =>
        hputs id'' ((hsends _ id'').1 h'')⟩) fun hw => by rw [hcluster]; exact hw)
      rcases outcome_event (E := E) n (.execute j id granted) j id' with heq | ⟨_, _, heq, -⟩
      · exact heq.trans ho'
      · have hlt := hputs id hid
        exact absurd (NetEvent.execute.inj heq).2.1 hlt.ne

/-- **The path stays covered** behind the removal. -/
theorem Gone.event (h : Gone i k path n) (hpath : ∀ j l, path j l = path i k → j = i ∧ l = k) (ev : NetEvent ι)
    (hdismissed : Dismissed i k (path i k) n ev) (horderly : Orderly i k (path i k) n ev) : Gone i k path (netEvent E n ev) := by
  cases ev with
  | client j ev =>
    by_cases hj : j = i
    · subst hj
      by_cases hallows : n.Allows j ev
      · exact h.client hpath hallows hdismissed horderly
      · rw [netEvent, if_neg hallows]
        exact h
    · exact h.other hj ev
  | execute j id granted => exact h.stored hpath horderly fun _ _ h => by cases h
  | expire lease => exact h.stored hpath horderly fun _ _ h => by cases h

/-! ## The removal -/

/-- a keepalive on no list that has no request out -/
theorem idle_one {c : EtcdState} (hactors : k ∉ c.keepaliveActors) (hretry : k ∉ c.keepaliveRetryActors)
    (hrpc : (c.keep k).rpc = none) : Idle (· = k) c.sent.length c where
  actors _ hj := hj ▸ hactors
  retryActors _ hj := hj ▸ hretry
  rpc _ hj := hj ▸ hrpc
  puts _ s _ hid hs := absurd (hs.symm.trans (List.getElem?_eq_none hid)) (Option.some_ne_none s)

theorem idle_removed {e : EtcdEnv} {c : EtcdState} {paths : ℕ → Bytes} (hb : Base paths c)
    (h : (k ∈ c.keepaliveActors ∨ k ∈ c.keepaliveRetryActors) ∨ (c.keep k).rpc = none) :
    Idle (· = k) c.sent.length (removeKeepalive e k c) := by
  have hdelist : ∀ x : Keepalive, x.rpc = none → Idle (· = k) c.sent.length ((c.delist k).setKeep k x) := fun x hx =>
    idle_one (c := (c.delist k).setKeep k x) (not_mem_swapErase hb.actors) (not_mem_swapErase hb.retryActors)
      (by rw [setKeep_keep]; exact hx)
  unfold removeKeepalive
  simp only
  split_ifs with hfound hdata
  · -- the object is closed behind the request
    have hpath := removeKeepalivePath_induct (e := e)
      (I := fun d => Idle (· = k) c.sent.length (d.setKeep k ((c.keep k).close true)))
      (fun _ _ _ _ _ h => h.deletors) (fun _ q n h => h.askDelete q n) ⟨(c.keep k).path, 0⟩ false (hdelist _ rfl)
    have hclosed := hpath.setKeep (k := k)
      (x := ((removeKeepalivePath e ⟨(c.keep k).path, 0⟩ false (c.delist k)).keep k).close true) fun _ => rfl
    rw [setKeep_setKeep] at hclosed
    exact hclosed
  · exact hdelist _ rfl
  · exact idle_one (fun hk => hfound (.inl hk)) (fun hk => hfound (.inr hk)) (h.resolve_left hfound)

/-- **The removal** leaves the path covered. -/
theorem gone_removed (hs : Sound path n) (hpath : ∀ j l, path j l = path i k → j = i ∧ l = k) (h : n.Removable i k) :
    Gone i k path (netEvent E n (.client i (.removeKeepalive k))) := by
  have hsound := hs.event (E := E) (.client i (.removeKeepalive k))
  set m := netEvent E n (.client i (.removeKeepalive k)) with hm
  have hevent : m = { n with cluster := Function.update n.cluster i (removeKeepalive (E i) k (n.cluster i)) } :=
    netEvent_client (E := E) trivial
  have hcluster : m.cluster i = removeKeepalive (E i) k (n.cluster i) := by
    rw [hevent]
    exact Function.update_self ..
  have houtcome : m.outcome = n.outcome := by rw [hevent]
  have hstore : m.store = n.store := by rw [hevent]
  have hrpc : (k ∈ (n.cluster i).keepaliveActors ∨ k ∈ (n.cluster i).keepaliveRetryActors) ∨ ((n.cluster i).keep k).rpc = none :=
    h.elim (fun h => .inl h.1) fun h => h.1
  have hidle := idle_removed (e := E i) (hs.base i) hrpc
  have hprefix := (did_removeKeepalive (e := E i) k (n.cluster i)).sent
  set N := (n.cluster i).sent.length with hN
  have hputs : ∀ id, m.Sends i (Ask.Puts (path i k)) id → n.Sends i (Ask.Puts (path i k)) id ∧ id < N := fun id hid => by
    obtain ⟨s, hsent, hput⟩ := sends_iff.1 hid
    have htarget := (hsound.put_target hpath hsent hput).2
    rw [hcluster] at hsent
    have hlt : id < N := by
      by_contra hge
      obtain ⟨value, lease, hask⟩ := hput
      exact hidle.puts id s k (Nat.not_lt.1 hge) hsent rfl htarget _ _ _ hask
    obtain ⟨new, hnew⟩ := hprefix
    rw [← hnew, List.getElem?_append_left hlt] at hsent
    exact ⟨sends_iff.2 ⟨s, hsent, hput⟩, hlt⟩
  have hunsent : ∀ id, N ≤ id → m.outcome i id = none := fun id hid => by
    rw [houtcome]
    refine hs.unsent i id ?_
    rw [Net.ask, List.getElem?_eq_none hid]
    rfl
  refine ⟨hsound, by rw [hcluster]; exact hidle.mono hprefix.length_le, ?_⟩
  have howed : Owed (path i k) N (m.cluster i) → m.Covered i (path i k) := fun howed => by
    rcases howed with hw | ⟨id, s, hid, hsent, hdel⟩
    · exact .inr (.inr hw)
    · exact .inr (.inl ⟨id, sends_iff.2 ⟨s, hsent, hdel⟩, hunsent id hid, fun id' hid' => (hputs id' hid').2.trans_le hid⟩)
  rcases h with ⟨hfound, hdata⟩ | ⟨-, hcovered⟩
  · refine howed ?_
    rw [hcluster]
    exact owed_removeKeepalive le_rfl (.inr ⟨hfound, hdata, (hs.base i).paths k⟩)
  · rw [(hs.base i).paths k] at hcovered
    refine hcovered.sends (N := N) (congrFun hstore _) (congrFun houtcome i) (fun P id hid => sends_event hid _) hputs fun hw => ?_
    rw [hcluster]
    rcases owed_removeKeepalive (e := E i) (k := k) (N := N) le_rfl (.inl (.inl hw)) with hw | ⟨id, s, hid, hsent, hdel⟩
    · exact .inl hw
    · exact .inr ⟨id, hid, sends_iff.2 ⟨s, by rw [hcluster]; exact hsent, hdel⟩, hunsent id hid⟩

/-! ## Runs -/

theorem Gone.run (h : Gone i k path n) (hpath : ∀ j l, path j l = path i k → j = i ∧ l = k) {events : List (NetEvent ι)}
    (hdismissed : Meets (netEvent E) (Dismissed i k (path i k)) n events)
    (horderly : Meets (netEvent E) (Orderly i k (path i k)) n events) : Gone i k path (netRun E n events) :=
  (hdismissed.and horderly).invariant (fun _ ev h hev => h.event hpath ev hev.1 hev.2) h

/-- a run from the start, with the removal of the keepalive -/
theorem gone_behind {conf : ι → EtcdConf} {checker : ι → ℕ → Option (Bytes → Bool)} {before behind : List (NetEvent ι)}
    (hpath : ∀ j l, path j l = path i k → j = i ∧ l = k) (hremovable : (netRun E (.start conf path checker) before).Removable i k)
    (hdismissed : Meets (netEvent E) (Dismissed i k (path i k))
      (netRun E (.start conf path checker) (before ++ [.client i (.removeKeepalive k)])) behind)
    (horderly : Meets (netEvent E) (Orderly i k (path i k))
      (netRun E (.start conf path checker) (before ++ [.client i (.removeKeepalive k)])) behind) :
    Gone i k path (netRun E (.start conf path checker) (before ++ .client i (.removeKeepalive k) :: behind)) := by
  have hsplit : ∀ events, netRun E (.start conf path checker) (before ++ .client i (.removeKeepalive k) :: events) =
      netRun E (netEvent E (netRun E (.start conf path checker) before) (.client i (.removeKeepalive k))) events :=
    fun events => netRun_append _ before _
  have hremoved := gone_removed (E := E) ((sound_start conf path checker).run before) hpath hremovable
  rw [hsplit] at hdismissed horderly ⊢
  exact hremoved.run hpath hdismissed horderly

omit [DecidableEq ι] in
/-- a path that is covered has no key, once nothing that could write it is left -/
theorem Gone.cleared (h : Gone i k path n) (hquiet : n.Quiet i (path i k)) : n.store (path i k) = none := by
  obtain ⟨hexecuted, hwaits⟩ := hquiet
  rcases h.covered with ⟨hnone, -⟩ | ⟨id, hid, ho, -⟩ | hw
  · exact hnone
  · obtain ⟨a, ha, hdel⟩ := hid
    exact absurd ho (hexecuted id ⟨a, ha, .inr hdel⟩)
  · exact absurd hw hwaits

/-- **A removed keepalive leaves no key behind**, in any run in which its removal sends a delete or finds the path covered, the
removed keepalive is not made to put again, and no put is executed behind a delete that was sent later. -/
theorem removed_leaves_no_key (E : ι → EtcdEnv) (conf : ι → EtcdConf) (path : ι → ℕ → Bytes)
    (checker : ι → ℕ → Option (Bytes → Bool)) (i : ι) (k : ℕ) (hpath : ∀ j l, path j l = path i k → j = i ∧ l = k)
    (before behind : List (NetEvent ι)) (hremovable : (netRun E (.start conf path checker) before).Removable i k)
    (hdismissed : Meets (netEvent E) (Dismissed i k (path i k))
      (netRun E (.start conf path checker) (before ++ [.client i (.removeKeepalive k)])) behind)
    (horderly : Meets (netEvent E) (Orderly i k (path i k))
      (netRun E (.start conf path checker) (before ++ [.client i (.removeKeepalive k)])) behind) :
    let n := netRun E (.start conf path checker) (before ++ .client i (.removeKeepalive k) :: behind)
    n.Quiet i (path i k) → n.store (path i k) = none := by
  intro n hquiet
  have hn : Gone i k path n := gone_behind hpath hremovable hdismissed horderly
  exact hn.cleared hquiet

/-- each keepalive has its own path -/
def ownPath (_ : Unit) (k : ℕ) : Bytes := List.replicate (k + 1) 1

theorem ownPath_inj (k : ℕ) (j : Unit) (l : ℕ) (h : ownPath j l = ownPath () k) : j = () ∧ l = k := by
  have hlen := congrArg List.length h
  rw [ownPath, ownPath, List.length_replicate, List.length_replicate] at hlen
  exact ⟨rfl, Nat.succ.inj hlen⟩

/-- one cluster that has been told its node, and keepalives without checkers -/
def Net.single : Net Unit := .start (fun _ => { pathNode := "http://etcd" }) ownPath fun _ _ => none

def steadyEnv (_ : Unit) : EtcdEnv := .steady

/-- an answer to a lease request -/
def Reply.lease (id : ℤ) : Reply where
  errorCode := 0
  responseCode := 200
  body := ⟨true, 0, false, 0, none, false, true, id, none, none⟩

/-- an answer that says no more than its code -/
def Reply.plain (code : ℤ) : Reply where
  errorCode := 0
  responseCode := code
  body := ⟨true, 0, false, 0, none, false, false, 0, none, none⟩

/-- a keepalive is added, a lease is granted, and the put is executed -/
def putExecuted : List (NetEvent Unit) :=
  [.client () (.addKeepalive 0), .execute () 0 7, .client () (.complete 0 (.lease 7)), .execute () 1 7]

/-- and answered -/
def putAnswered : List (NetEvent Unit) := putExecuted ++ [.client () (.complete 1 (.plain 200))]

/-- the delete is executed -/
theorem removed_leaves_no_key_answered :
    (netRun steadyEnv .single (putAnswered ++ .client () (.removeKeepalive 0) :: [.execute () 2 7])).store (ownPath () 0) = none := by
  have hremovable : (netRun steadyEnv .single putAnswered).Removable () 0 := .inl ⟨.inl (by decide +kernel), by decide +kernel⟩
  have hquiet : (netRun steadyEnv .single (putAnswered ++ .client () (.removeKeepalive 0) :: [.execute () 2 7])).Quiet () (ownPath () 0) := by
    decide +kernel
  exact removed_leaves_no_key steadyEnv _ ownPath _ () 0 (ownPath_inj 0) putAnswered [.execute () 2 7] hremovable
    (by decide +kernel) (by decide +kernel) hquiet

/-- the put is executed, but not answered when its keepalive is removed: no delete is sent, and the key stays -/
theorem removed_leaves_key :
    let n := netRun steadyEnv .single (putExecuted ++ [.client () (.removeKeepalive 0)])
    n.Quiet () (ownPath () 0) ∧ n.alive 7 = true ∧ n.store (ownPath () 0) = some ([], 7) := by
  refine ⟨by decide +kernel, by decide +kernel, by decide +kernel⟩

end AtFrame.Etcd
