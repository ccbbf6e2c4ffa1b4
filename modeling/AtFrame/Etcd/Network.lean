/-
Clusters in front of one etcd store.

A request is a message: the store executes it once, at any time behind its start and in any order (`NetEvent.execute`), also when
nobody waits for the answer any more. An answer with success comes only for a request that was executed, and a parsed answer to a
check says what was found. Answers without success, and answers of which nothing parses, may come at any time. A key
disappears with its lease.

- `cluster_event`, `outcome_event`, `store_event`: what an event does to one cluster, one request and one key;
- `Sound.run`: what holds in every run.
-/
import AtFrame.Etcd.Requests

namespace AtFrame.Etcd

variable {ι : Type} [DecidableEq ι]

/-! ## Model -/

/-- what the store did with a request -/
inductive Outcome where
  | done
  /-- the lease of a put is not there -/
  | refused
  | found (value : Option Bytes)
deriving DecidableEq, Repr

structure Net (ι : Type) where
  cluster : ι → EtcdState
  /-- what was done with each request that has been executed -/
  outcome : ι → ℕ → Option Outcome
  /-- the value and the lease of each key -/
  store : Bytes → Option (Bytes × ℤ)
  alive : ℤ → Bool

def Net.value (n : Net ι) (key : Bytes) : Option Bytes := (n.store key).map fun v => v.1

/-- a lease and its keys disappear -/
def Net.drop (lease : ℤ) (n : Net ι) : Net ι :=
  { n with alive := Function.update n.alive lease false,
           store := fun key => if (n.store key).map (fun v => v.2) = some lease then none else n.store key }

/-- the store executes a request; a get asks for one key, and a lease that is granted without a number gets one -/
def Net.perform (granted : ℤ) (n : Net ι) : Ask → Outcome × Net ι
  | .get range => (.found (n.value (range.key.getD [])), n)
  | .put key value lease =>
    if n.alive lease then (.done, { n with store := Function.update n.store key (some (value, lease)) }) else (.refused, n)
  | .delete range => (.done, { n with store := fun key => if range.Covers key then none else n.store key })
  | .leaseGrant id _ => (.done, { n with alive := Function.update n.alive (if id = 0 then granted else id) true })
  | .leaseRevoke id => (.done, n.drop id)
  | .memberList | .authenticate | .userGet | .leaseKeepalive _ => (.done, n)

/-- the store executes the request of a cluster with this number -/
def Net.execute (i : ι) (id : ℕ) (granted : ℤ) (n : Net ι) : Net ι :=
  match (n.cluster i).sent[id]?, n.outcome i id with
  | some s, none =>
    let r := n.perform granted s.ask
    { r.2 with outcome := Function.update n.outcome i (Function.update (n.outcome i) id (some r.1)) }
  | _, _ => n

/-- an answer with success tells what the store did, unless its body does not parse -/
def Net.Answers (n : Net ι) (i : ι) (id : ℕ) (r : Reply) : Prop :=
  r.success = true →
    match n.outcome i id with
    | some .done => True
    | some (.found none) => r.body.isObject = true → r.body.count = 0
    | some (.found (some value)) => r.body.isObject = true → r.body.count = 1 ∧ r.body.kvs = some [value]
    | _ => False

instance (n : Net ι) (i : ι) (id : ℕ) (r : Reply) : Decidable (n.Answers i id r) := by
  unfold Net.Answers
  split <;> infer_instance

/-- only answers that etcd gives -/
def Net.Allows (n : Net ι) (i : ι) : EtcdEvent → Prop
  | .complete id r => n.Answers i id r
  | _ => True

instance (n : Net ι) (i : ι) (ev : EtcdEvent) : Decidable (n.Allows i ev) := by
  rcases ev with _ | _ <;> dsimp only [Net.Allows] <;> infer_instance

inductive NetEvent (ι : Type) where
  | client (i : ι) (ev : EtcdEvent)
  | execute (i : ι) (id : ℕ) (granted : ℤ)
  /-- a lease expires -/
  | expire (lease : ℤ)

variable (E : ι → EtcdEnv)

def netEvent (n : Net ι) : NetEvent ι → Net ι
  | .client i ev =>
    if n.Allows i ev then { n with cluster := Function.update n.cluster i (etcdEvent (E i) (n.cluster i) ev) } else n
  | .execute i id granted => n.execute i id granted
  | .expire lease => n.drop lease

def netRun (n : Net ι) (events : List (NetEvent ι)) : Net ι := events.foldl (netEvent E) n

/-- clusters behind `init`, and a store without keys -/
def Net.start (conf : ι → EtcdConf) (path : ι → ℕ → Bytes) (checker : ι → ℕ → Option (Bytes → Bool)) : Net ι where
  cluster i := .start (conf i) (path i) (checker i)
  outcome _ _ := none
  store _ := none
  alive _ := false

variable {E} {n : Net ι} {i j : ι} {path : ι → ℕ → Bytes}

/-! ## Executing a request -/

omit [DecidableEq ι] in
/-- what becomes of a key: it keeps what it has, disappears, or is put -/
theorem store_perform (granted : ℤ) (n : Net ι) (ask : Ask) (key : Bytes) :
    (n.perform granted ask).2.store key = n.store key ∨ (n.perform granted ask).2.store key = none ∨
      ∃ value lease, ask = .put key value lease ∧ n.alive lease = true ∧
        (n.perform granted ask).2.store key = some (value, lease) := by
  cases ask with
  | put key' value lease =>
    simp only [Net.perform]
    split_ifs with halive
    · by_cases hkey : key = key'
      · exact .inr (.inr ⟨value, lease, by rw [hkey], halive, by rw [hkey]; exact Function.update_self ..⟩)
      · exact .inl (Function.update_of_ne hkey ..)
    · exact .inl rfl
  | delete range =>
    simp only [Net.perform]
    split_ifs
    · exact .inr (.inl rfl)
    · exact .inl rfl
  | leaseRevoke id =>
    simp only [Net.perform, Net.drop]
    split_ifs
    · exact .inr (.inl rfl)
    · exact .inl rfl
  | _ => exact .inl rfl

omit [DecidableEq ι] in
theorem perform_cluster (granted : ℤ) (n : Net ι) (ask : Ask) :
    (n.perform granted ask).2.cluster = n.cluster ∧ (n.perform granted ask).2.outcome = n.outcome := by
  cases ask with
  | put key value lease =>
    simp only [Net.perform]
    split_ifs <;> exact ⟨rfl, rfl⟩
  | _ => exact ⟨rfl, rfl⟩

/-- a request is executed once, or nothing happens -/
theorem execute_cases (i : ι) (id : ℕ) (granted : ℤ) (n : Net ι) :
    n.execute i id granted = n ∨
      ∃ s, (n.cluster i).sent[id]? = some s ∧ n.outcome i id = none ∧
        n.execute i id granted = { (n.perform granted s.ask).2 with
          outcome := Function.update n.outcome i (Function.update (n.outcome i) id (some (n.perform granted s.ask).1)) } := by
  unfold Net.execute
  cases hs : (n.cluster i).sent[id]? with
  | none => exact .inl rfl
  | some s =>
    cases ho : n.outcome i id with
    | some o => exact .inl rfl
    | none => exact .inr ⟨s, rfl, rfl, rfl⟩

@[simp] theorem execute_cluster (i : ι) (id : ℕ) (granted : ℤ) (n : Net ι) : (n.execute i id granted).cluster = n.cluster := by
  rcases execute_cases i id granted n with h | ⟨s, -, -, h⟩ <;> rw [h]
  exact (perform_cluster granted n s.ask).1

omit [DecidableEq ι] in
/-- only a get finds something -/
theorem perform_found {granted : ℤ} {ask : Ask} {v : Option Bytes} (h : (n.perform granted ask).1 = .found v) :
    ∃ range, ask = .get range := by
  cases ask with
  | get range => exact ⟨range, rfl⟩
  | put key value lease =>
    simp only [Net.perform] at h
    split_ifs at h
  | _ => cases h

/-! ## Events -/

/-- the request of a cluster with this number -/
def Net.ask (n : Net ι) (i : ι) (id : ℕ) : Option Ask := ((n.cluster i).sent[id]?).map Sent.ask

/-- a request of a kind has this number -/
def Net.Sends (n : Net ι) (i : ι) (P : Ask → Prop) (id : ℕ) : Prop := ∃ a, n.ask i id = some a ∧ P a

section decidable

variable {P : Ask → Prop} [DecidablePred P] {Q : ℕ → Prop} [DecidablePred Q]

omit [DecidableEq ι]

instance : DecidablePred (n.Sends i P) := fun id =>
  match ha : n.ask i id with
  | none => .isFalse fun ⟨_, h, _⟩ => Option.some_ne_none _ (h.symm.trans ha)
  | some a => decidable_of_iff (P a) ⟨fun h => ⟨a, ha, h⟩, fun ⟨_, hb, h⟩ => Option.some.inj (ha.symm.trans hb) ▸ h⟩

theorem Net.Sends.lt {P : Ask → Prop} {id : ℕ} (h : n.Sends i P id) : id < (n.cluster i).sent.length := by
  obtain ⟨a, ha, -⟩ := h
  obtain ⟨s, hs, -⟩ := Option.map_eq_some_iff.1 ha
  exact (List.getElem?_eq_some_iff.1 hs).1

instance : Decidable (∃ id, n.Sends i P id ∧ Q id) :=
  decidable_of_iff (∃ id, id < (n.cluster i).sent.length ∧ n.Sends i P id ∧ Q id)
    ⟨fun ⟨id, _, h⟩ => ⟨id, h⟩, fun ⟨id, h⟩ => ⟨id, h.1.lt, h⟩⟩

instance : Decidable (∀ id, n.Sends i P id → Q id) :=
  decidable_of_iff (∀ id, id < (n.cluster i).sent.length → n.Sends i P id → Q id)
    ⟨fun h id hid => h id hid.lt hid, fun h id _ hid => h id hid⟩

end decidable

theorem netEvent_client {ev : EtcdEvent} (hallows : n.Allows j ev) : netEvent E n (.client j ev) =
    { n with cluster := Function.update n.cluster j (etcdEvent (E j) (n.cluster j) ev) } := if_pos hallows

/-- what becomes of one cluster: nothing, or an event of it that etcd allows -/
theorem cluster_event (n : Net ι) (ev : NetEvent ι) (i : ι) : (netEvent E n ev).cluster i = n.cluster i ∨
    ∃ ev', ev = .client i ev' ∧ n.Allows i ev' ∧ (netEvent E n ev).cluster i = etcdEvent (E i) (n.cluster i) ev' := by
  cases ev with
  | client j ev' =>
    by_cases hallows : n.Allows j ev'
    · rw [netEvent_client hallows]
      by_cases hij : i = j
      · exact .inr ⟨ev', by rw [hij], hij ▸ hallows, by rw [hij]; exact Function.update_self ..⟩
      · exact .inl (Function.update_of_ne hij ..)
    · exact .inl (by rw [netEvent, if_neg hallows])
  | execute j id granted => exact .inl (by rw [netEvent, execute_cluster])
  | expire lease => exact .inl rfl

/-- what becomes of one request: nothing, or it is executed -/
theorem outcome_event (n : Net ι) (ev : NetEvent ι) (i : ι) (id : ℕ) : (netEvent E n ev).outcome i id = n.outcome i id ∨
    ∃ granted a, ev = .execute i id granted ∧ n.ask i id = some a ∧ n.outcome i id = none ∧
      (netEvent E n ev).outcome i id = some (n.perform granted a).1 := by
  cases ev with
  | client j ev =>
    rw [netEvent]
    split_ifs <;> exact .inl rfl
  | execute j id' granted =>
    rw [netEvent]
    rcases execute_cases j id' granted n with h | ⟨s, hs, ho, h⟩ <;> rw [h]
    · exact .inl rfl
    · by_cases hij : i = j
      · subst hij
        by_cases hid : id = id'
        · subst hid
          refine .inr ⟨granted, s.ask, rfl, congrArg (Option.map Sent.ask) hs, ho, ?_⟩
          simp only [Function.update_self]
        · refine .inl ?_
          simp only [Function.update_self, Function.update_of_ne hid]
      · refine .inl ?_
        simp only [Function.update_of_ne hij]
  | expire lease => exact .inl rfl

/-- a client does not write, other than by a request -/
theorem store_client (n : Net ι) (i : ι) (ev : EtcdEvent) : (netEvent E n (.client i ev)).store = n.store := by
  rw [netEvent]
  split_ifs <;> rfl

/-- a request is executed for the first time -/
theorem store_execute {id : ℕ} {a : Ask} (hask : n.ask i id = some a) (hnew : n.outcome i id = none) (granted : ℤ) :
    (netEvent E n (.execute i id granted)).store = (n.perform granted a).2.store := by
  obtain ⟨s, hs, rfl⟩ := Option.map_eq_some_iff.1 hask
  rw [netEvent, Net.execute]
  simp only [hs, hnew]

/-- what becomes of a key -/
theorem store_event (n : Net ι) (ev : NetEvent ι) (key : Bytes) :
    (netEvent E n ev).store key = n.store key ∨ (netEvent E n ev).store key = none ∨
      ∃ i id granted value lease, ev = .execute i id granted ∧ n.ask i id = some (.put key value lease) ∧
        n.outcome i id = none ∧ (netEvent E n ev).store key = some (value, lease) := by
  cases ev with
  | client j ev => exact .inl (congrFun (store_client n j ev) key)
  | execute j id granted =>
    rw [netEvent]
    rcases execute_cases j id granted n with h | ⟨s, hs, ho, h⟩ <;> rw [h]
    · exact .inl rfl
    · rcases store_perform granted n s.ask key with hstore | hstore | ⟨value, lease, hask, -, hstore⟩
      · exact .inl hstore
      · exact .inr (.inl hstore)
      · refine .inr (.inr ⟨j, id, granted, value, lease, rfl, ?_, ho, hstore⟩)
        rw [Net.ask, hs, Option.map_some, hask]
  | expire lease =>
    rw [netEvent]
    simp only [Net.drop]
    split_ifs
    · exact .inr (.inl rfl)
    · exact .inl rfl

/-- a request that is executed -/
theorem netEvent_execute {id : ℕ} {a : Ask} (granted : ℤ) (hask : n.ask i id = some a) (ho : n.outcome i id = none) :
    netEvent E n (.execute i id granted) = { (n.perform granted a).2 with
      outcome := Function.update n.outcome i (Function.update (n.outcome i) id (some (n.perform granted a).1)) } := by
  obtain ⟨s, hs, rfl⟩ := Option.map_eq_some_iff.1 hask
  rw [netEvent, Net.execute, hs, ho]

omit [DecidableEq ι] in
theorem ask_of_prefix {sent : List Sent} {a : Ask} {id : ℕ} (h : n.ask i id = some a) (hp : (n.cluster i).sent <+: sent) :
    (sent[id]?).map Sent.ask = some a := by
  obtain ⟨new, rfl⟩ := hp
  obtain ⟨s, hs, rfl⟩ := Option.map_eq_some_iff.1 h
  rw [List.getElem?_append_left (List.getElem?_eq_some_iff.1 hs).1, hs]
  rfl

/-- requests stay -/
theorem ask_event {a : Ask} {id : ℕ} (h : n.ask i id = some a) (ev : NetEvent ι) : (netEvent E n ev).ask i id = some a := by
  unfold Net.ask
  rcases cluster_event (E := E) n ev i with heq | ⟨ev', -, -, heq⟩ <;> rw [heq]
  · exact h
  · exact ask_of_prefix h (did_event _ ev').sent

theorem sends_event {P : Ask → Prop} {id : ℕ} (h : n.Sends i P id) (ev : NetEvent ι) : (netEvent E n ev).Sends i P id :=
  h.imp fun _ ha => ⟨ask_event ha.1 ev, ha.2⟩

/-- what is executed stays executed -/
theorem outcome_stays {id : ℕ} {o : Outcome} (h : n.outcome i id = some o) (ev : NetEvent ι) :
    (netEvent E n ev).outcome i id = some o := by
  rcases outcome_event (E := E) n ev i id with heq | ⟨_, _, -, -, hnone, -⟩
  · exact heq.trans h
  · exact absurd (hnone.symm.trans h) (Option.some_ne_none _).symm

/-! ## Runs -/

/-- what holds in every run: puts are for the paths of their keepalives, only what is sent is executed, only a get finds
something, and an acknowledged put has been executed -/
structure Sound (path : ι → ℕ → Bytes) (n : Net ι) : Prop where
  base : ∀ i, Base (path i) (n.cluster i)
  unsent : ∀ i id, n.ask i id = none → n.outcome i id = none
  found : ∀ i id v, n.outcome i id = some (.found v) → ∃ range, n.ask i id = some (.get range)
  acked : ∀ i, ∀ id ∈ (n.cluster i).acked, n.outcome i id = some .done

omit [DecidableEq ι] in
/-- a put that is answered with success has been executed -/
theorem Sound.answered (h : Sound path n) {id : ℕ} {r : Reply} {key value : Bytes} {lease : ℤ} (hanswers : n.Answers i id r)
    (hr : r.success = true) (hask : n.ask i id = some (.put key value lease)) : n.outcome i id = some .done := by
  have hmatch := hanswers hr
  cases ho : n.outcome i id with
  | none =>
    rw [ho] at hmatch
    exact hmatch.elim
  | some o =>
    cases o with
    | done => rfl
    | refused =>
      rw [ho] at hmatch
      exact hmatch.elim
    | found v =>
      obtain ⟨range, hget⟩ := h.found i id v ho
      cases hget.symm.trans hask

theorem Sound.event (h : Sound path n) (ev : NetEvent ι) : Sound path (netEvent E n ev) where
  base i := by
    rcases cluster_event (E := E) n ev i with heq | ⟨ev', -, -, heq⟩ <;> rw [heq]
    · exact h.base i
    · exact (did_event _ ev').base (h.base i)
  unsent i id hnone := by
    have hask : n.ask i id = none := by
      cases ha : n.ask i id with
      | none => rfl
      | some a => exact absurd (hnone.symm.trans (ask_event ha ev)) (Option.some_ne_none a).symm
    rcases outcome_event (E := E) n ev i id with heq | ⟨granted, a, -, ha, -⟩
    · rw [heq]
      exact h.unsent i id hask
    · exact absurd (hask.symm.trans ha) (Option.some_ne_none a).symm
  found i id v ho := by
    rcases outcome_event (E := E) n ev i id with heq | ⟨granted, a, -, ha, -, heq⟩ <;> rw [heq] at ho
    · obtain ⟨range, hget⟩ := h.found i id v ho
      exact ⟨range, ask_event hget ev⟩
    · obtain ⟨range, rfl⟩ := perform_found (Option.some.inj ho)
      exact ⟨range, ask_event ha ev⟩
  acked i id hid := by
    refine outcome_stays ?_ ev
    rcases cluster_event (E := E) n ev i with heq | ⟨ev', -, hallows, heq⟩ <;> rw [heq] at hid
    · exact h.acked i id hid
    · rcases (did_event (e := E i) (n.cluster i) ev').acked_cases with hd | ⟨id', r, s, rfl, hr, hs, ⟨key, value, lease, hask⟩, hd⟩ <;>
        rw [hd] at hid
      · exact h.acked i id hid
      · rcases List.mem_append.1 hid with hid | hid
        · exact h.acked i id hid
        · rw [List.mem_singleton.1 hid]
          refine h.answered hallows hr (show n.ask i id' = some (.put key value lease) from ?_)
          rw [Net.ask, hs, Option.map_some, hask]

omit [DecidableEq ι] in
theorem sound_start (conf : ι → EtcdConf) (path : ι → ℕ → Bytes) (checker : ι → ℕ → Option (Bytes → Bool)) :
    Sound path (Net.start conf path checker) where
  base _ := ⟨fun _ => rfl, fun _ h => absurd h List.not_mem_nil, List.nodup_nil, List.nodup_nil⟩
  unsent _ _ _ := rfl
  found _ _ _ h := absurd h.symm (Option.some_ne_none _)
  acked _ _ h := absurd h List.not_mem_nil

theorem netRun_append (n : Net ι) (as bs : List (NetEvent ι)) : netRun E n (as ++ bs) = netRun E (netRun E n as) bs :=
  List.foldl_append

theorem Sound.run (h : Sound path n) (events : List (NetEvent ι)) : Sound path (netRun E n events) := by
  induction events generalizing n with
  | nil => exact h
  | cons ev events ih => exact ih (h.event ev)

end AtFrame.Etcd
