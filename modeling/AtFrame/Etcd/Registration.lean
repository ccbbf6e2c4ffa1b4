/-
No registration is forgotten.

While the cluster holds a lease, a keepalive whose checker has not rejected has a request in flight, waits on the retry list,
or has put its current value under the current lease. Two things break this. `retry_pending_actions` clears the list behind
its loop, and a keepalive whose request could not be created or started in that very loop was still on it, so it is not added
again. And `add_keepalive` does not put a value again that was put under an older lease, before the keepalive was added.

- `Stable`: what holds of a keepalive that is not on the retry list;
- `process_stable`: `process` establishes it, or puts the keepalive on the list;
- `Inv.did`: every event keeps it for every keepalive;
- `keepalive_registered`: the statement over runs.

Premises, on the steps of the run: each round of the retry loop that needs a request gets it created and started
(`RetrySucceeds`), and a keepalive that is added while there is a lease has a new value, waits to be retried, or has put its value
under this lease (`AddsFresh`). etcd and the transport may answer anything, late, or never.
Witness `keepalive_registered_steady`: a put that fails is tried again. The first premise is needed (`keepalive_forgotten`: the
request of that very round cannot be created, and nothing is left that would put the value).
-/
import AtFrame.Etcd.Touches

namespace AtFrame.Etcd

variable {e : EtcdEnv} {c d : EtcdState} {k : ℕ}

/-! ## Statement -/

/-- the last put that was sent for a keepalive: its number, value and lease -/
def LastPut (c : Cluster) (k id : ℕ) (value : Bytes) (lease : ℤ) : Prop :=
  (∃ host, c.sent[id]? = some ⟨host, .put (c.keep k).path value lease, .keepalive k⟩) ∧
    ∀ j s, id < j → c.sent[j]? = some s → s.target = .keepalive k → ∀ key v l, s.ask ≠ .put key v l

/-- the last put carried the current value and lease -/
def Carries (c : Cluster) (k id : ℕ) : Prop := LastPut c k id (c.keep k).value c.conf.lease

def Settled (c : Cluster) (k : ℕ) : Prop := ∃ id ∈ c.acked, Carries c k id

/-- the checker has rejected what is published -/
def Keepalive.Rejected (x : Keepalive) : Prop := x.isCheckRun = true ∧ x.isCheckPassed = false

instance (x : Keepalive) : Decidable x.Rejected := inferInstanceAs (Decidable (_ ∧ _))

def Registered (c : Cluster) (k : ℕ) : Prop :=
  (c.keep k).rpc.isSome ∨ k ∈ c.keepaliveRetryActors ∨ Settled c k

/-- a request of a keepalive would be created and started -/
def Cluster.Starts (e : EtcdEnv) (c : Cluster) : Prop := c.canRequest = true ∧ e.create c.creates = true ∧ e.start c.starts = 0

/-- a round of the retry loop needs no request, or its request is created and started -/
def RetrySucceeds (e : EtcdEnv) (c : Cluster) (k : ℕ) : Prop :=
  (c.keep k).rpc.isSome ∨ (c.keep k).prepare.Rejected ∨ Settled c k ∨
    c.Starts e

/-- a keepalive that is added has a value to put, waits to be retried, or has put its value under the current lease -/
def AddsFresh (c : Cluster) (k : ℕ) : Prop :=
  c.conf.lease = 0 ∨ (c.keep k).isValueChanged = true ∨ k ∈ c.keepaliveRetryActors ∨
    ∃ id, Carries c k id ∧ ((c.keep k).rpc = some id ∨ id ∈ c.acked)

/-- what is required of the steps of a run -/
def StepOk (e : EtcdEnv) (c : Cluster) : EtcdStep → Prop
  | .retry k => k ∈ c.keepaliveActors → RetrySucceeds e c k
  | .add k => c.closing = false → k ∉ c.keepaliveActors → AddsFresh c k

def Good (e : EtcdEnv) (c : EtcdState) : Prop := ∀ en ∈ c.history, StepOk e en.1 en.2

/-! ## The invariant -/

/-- what a keepalive without a new value has put -/
def Held (c : Cluster) (k : ℕ) : Prop :=
  c.conf.lease ≠ 0 → (c.keep k).isValueChanged = false → ∃ id, Carries c k id ∧ ((c.keep k).rpc = some id ∨ id ∈ c.acked)

structure Stable (c : Cluster) (k : ℕ) : Prop where
  carried : Held c k
  quiet : c.conf.lease ≠ 0 → (c.keep k).rpc = none → ¬ (c.keep k).Rejected →
    (c.keep k).isValueChanged = false ∨ Settled c k

structure Inv (c : EtcdState) : Prop where
  nodup : c.keepaliveActors.Nodup
  running : c.conf.lease ≠ 0 → c.running = true
  closing : c.closing = true → c.keepaliveActors = []
  stable : ∀ k ∈ c.keepaliveActors, k ∈ c.keepaliveRetryActors ∨ Stable c.toCluster k

theorem Stable.registered (h : Stable c.toCluster k) (hlease : c.conf.lease ≠ 0) (hrej : ¬ (c.keep k).Rejected) :
    Registered c.toCluster k := by
  cases hrpc : (c.keep k).rpc with
  | some id => exact .inl (by rw [hrpc]; rfl)
  | none =>
    rcases h.quiet hlease hrpc hrej with hval | hsettled
    · obtain ⟨id, hid, hrun | hacked⟩ := h.carried hlease hval
      · exact absurd (hrpc.symm.trans hrun) (Option.some_ne_none id).symm
      · exact .inr (.inr ⟨id, hacked, hid⟩)
    · exact .inr (.inr hsettled)

theorem Settled.stable (h : Settled c.toCluster k) : Stable c.toCluster k where
  carried _ _ := h.imp fun _ hid => ⟨hid.2, .inr hid.1⟩
  quiet _ _ _ := .inr h

/-- requests behind the last put are no puts of this keepalive -/
theorem LastPut.extend {id : ℕ} {value : Bytes} {lease : ℤ} (hl : LastPut c.toCluster k id value lease) {new : List Sent}
    (hnew : d.sent = c.sent ++ new) (hpath : (d.keep k).path = (c.keep k).path)
    (hother : ∀ s ∈ new, s.target = .keepalive k → ∀ key v l, s.ask ≠ .put key v l) : LastPut d.toCluster k id value lease := by
  obtain ⟨⟨host, hid⟩, hlast⟩ := hl
  refine ⟨⟨host, ?_⟩, fun j s hj hs hsk => ?_⟩
  · rw [hnew, hpath, List.getElem?_append_left (List.getElem?_eq_some_iff.1 hid).1]
    exact hid
  · rw [hnew] at hs
    rcases Nat.lt_or_ge j c.sent.length with hlt | hge
    · rw [List.getElem?_append_left hlt] at hs
      exact hlast j s hj hs hsk
    · rw [List.getElem?_append_right hge] at hs
      exact hother s (List.mem_of_getElem? hs) hsk

/-! ## Untouched keepalives -/

section untouched

variable {T : ℕ → Prop} (h : Touches T c d) (hk : ¬ T k)

include h hk

theorem Touches.lastPut {id : ℕ} {value : Bytes} {lease : ℤ} (hl : LastPut c.toCluster k id value lease) :
    LastPut d.toCluster k id value lease := by
  obtain ⟨new, hnew, htarget⟩ := h.sent
  exact hl.extend hnew (by rw [h.keep k hk]) fun s hs hsk => absurd (htarget s hs k hsk) hk

theorem Touches.carries {id : ℕ} (hc : Carries c.toCluster k id) : Carries d.toCluster k id := by
  have hd := h.lastPut hk hc
  rwa [Carries, h.keep k hk, h.lease]

theorem Touches.settled (hs : Settled c.toCluster k) : Settled d.toCluster k :=
  hs.imp fun id hid => ⟨h.acked id hid.1, h.carries hk hid.2⟩

theorem Touches.stable (hs : Stable c.toCluster k) : Stable d.toCluster k where
  carried hlease hval := by
    rw [h.keep k hk] at hval ⊢
    obtain ⟨id, hid, hrun⟩ := hs.carried (h.lease ▸ hlease) hval
    exact ⟨id, h.carries hk hid, hrun.imp (fun hrun => hrun) (h.acked id)⟩
  quiet hlease hrpc hrej := by
    rw [h.keep k hk] at hrpc hrej ⊢
    exact (hs.quiet (h.lease ▸ hlease) hrpc hrej).imp (fun hval => hval) (h.settled hk)

end untouched

theorem Inv.touches_nobody (hi : Inv c) (h : Touches nobody c d) : Inv d where
  nodup := h.actors ▸ hi.nodup
  running hlease := h.running (hi.running (h.lease ▸ hlease))
  closing hclose := h.actors.trans (hi.closing (h.closing ▸ hclose))
  stable k hk := (hi.stable k (h.actors ▸ hk)).imp (h.retry k) (h.stable id)

/-! ## One keepalive -/

theorem startKeepalive_cases (k : ℕ) (ask : Ask) (c : EtcdState) :
    e.start c.starts = 0 ∧ startKeepalive e k ask c = c.sendFor k ask ∨
      e.start c.starts ≠ 0 ∧ startKeepalive e k ask c = addRetryKeepalive e k { c with starts := c.starts + 1 } := by
  unfold startKeepalive startHttp
  split_ifs with hstart
  · exact .inl ⟨hstart, rfl⟩
  · exact .inr ⟨hstart, rfl⟩

/-- a keepalive is stable, or it waits to be retried -/
def Covered (c : EtcdState) (k : ℕ) : Prop := k ∈ c.keepaliveRetryActors ∨ Stable c.toCluster k

theorem covered_addRetryKeepalive (hopen : c.closing = false) : Covered (addRetryKeepalive e k c) k :=
  .inl (mem_addRetryKeepalive k hopen)

theorem sendFor_keep (ask : Ask) : (c.sendFor k ask).keep k = { c.keep k with rpc := some c.sent.length } :=
  Function.update_self ..

theorem sendFor_get (range : KeyRange) (hrpc : (c.keep k).rpc = none) (hheld : Held c.toCluster k) :
    Stable (c.sendFor k (.get range)).toCluster k := by
  refine ⟨fun hlease hval => ?_, fun _ hnone => ?_⟩
  · rw [sendFor_keep] at hval
    obtain ⟨id, hid, hrun⟩ := hheld hlease hval
    refine ⟨id, ?_, .inr (hrun.resolve_left fun h => absurd (hrpc.symm.trans h) (Option.some_ne_none id).symm)⟩
    have hext := hid.extend (d := c.sendFor k (.get range)) rfl (by rw [sendFor_keep]) fun s hs _ key v l => by
      rw [List.mem_singleton.1 hs]
      exact Ask.noConfusion
    rw [Carries, sendFor_keep]
    exact hext
  · rw [sendFor_keep] at hnone
    exact absurd hnone (Option.some_ne_none _)

theorem sendFor_put : Stable (c.sendFor k (.put (c.keep k).path (c.keep k).value c.conf.lease)).toCluster k := by
  set d := c.sendFor k (.put (c.keep k).path (c.keep k).value c.conf.lease)
  have hkeep : d.keep k = { c.keep k with rpc := some c.sent.length } := sendFor_keep _
  refine ⟨fun _ _ => ⟨c.sent.length, ?_, .inl (by rw [hkeep])⟩, fun _ hnone => ?_⟩
  · rw [Carries, hkeep]
    refine ⟨⟨c.conf.pathNode, ?_⟩, fun j s hj hs => ?_⟩
    · rw [hkeep]
      exact List.getElem?_concat_length
    · have hlen : j < (c.sent ++ [_]).length := (List.getElem?_eq_some_iff.1 hs).1
      rw [List.length_append, List.length_singleton] at hlen
      exact absurd hlen (Nat.not_lt.2 hj)
  · rw [hkeep] at hnone
    exact absurd hnone (Option.some_ne_none _)

theorem createRequestKv_cases (c : EtcdState) :
    (createRequestKv e c).1 = (c.canRequest && e.create c.creates) ∧
      ∃ n, (createRequestKv e c).2 = { c with creates := n } := by
  unfold createRequestKv createHttp
  split_ifs with h
  · exact ⟨by rw [h, Bool.true_and], _, rfl⟩
  · rw [Bool.not_eq_true] at h
    exact ⟨by rw [h, Bool.false_and], _, rfl⟩

theorem createRequestKvSet_cases (c : EtcdState) :
    (createRequestKvSet e c).1 = (c.canRequest && decide (c.conf.lease ≠ 0) && e.create c.creates) ∧
      ∃ n, (createRequestKvSet e c).2 = { c with creates := n } := by
  unfold createRequestKvSet createHttp
  split_ifs with h
  · exact ⟨by rw [h.1, decide_eq_true h.2, Bool.true_and, Bool.true_and], _, rfl⟩
  · refine ⟨?_, _, rfl⟩
    rw [← decide_eq_true_eq (p := c.conf.lease ≠ 0), ← Bool.and_eq_true, Bool.not_eq_true] at h
    rw [h, Bool.false_and]

/-- a change of a keepalive that leaves what is put -/
theorem settled_setKeep {x : Keepalive} (h : Settled c.toCluster k) (hpath : x.path = (c.keep k).path)
    (hvalue : x.value = (c.keep k).value) : Settled (c.setKeep k x).toCluster k := by
  obtain ⟨id, hacked, hid⟩ := h
  refine ⟨id, hacked, ?_⟩
  rw [Carries, setKeep_keep, hvalue]
  exact hid.extend (List.append_nil _).symm (by rw [setKeep_keep, hpath]) fun s hs => absurd hs List.not_mem_nil

/-- what a part of `process` leads to: the keepalive is stable, unless creating or starting its request failed and it waits
to be retried -/
def Served (e : EtcdEnv) (c d : EtcdState) (k : ℕ) : Prop :=
  (c.closing = false → Covered d k) ∧
    (c.conf.lease ≠ 0 → Settled c.toCluster k ∨ c.Starts e → Stable d.toCluster k)

theorem served_of_stable (h : Stable d.toCluster k) : Served e c d k := ⟨fun _ => .inr h, fun _ _ => h⟩

/-- creating or starting the request failed -/
theorem served_addRetryKeepalive (hclosing : c.closing = d.closing) (hfail : c.conf.lease ≠ 0 → ¬ c.Starts e)
    (hsettled : Settled c.toCluster k → Settled d.toCluster k) : Served e c (addRetryKeepalive e k d) k := by
  refine ⟨fun hopen => covered_addRetryKeepalive (hclosing ▸ hopen), fun hlease h => ?_⟩
  exact ((touches_addRetryKeepalive k d).settled id (hsettled (h.resolve_right (hfail hlease)))).stable

theorem processCheck_served (hrpc : (c.keep k).rpc = none) (hheld : Held c.toCluster k) :
    Served e c (processCheck e k c) k := by
  unfold processCheck
  obtain ⟨hok, n, hn⟩ := createRequestKv_cases (e := e) c
  simp only [hok, hn]
  split_ifs with h
  · rcases startKeepalive_cases (e := e) k (.get (packKeyRange (c.keep k).path [])) { c with creates := n } with
      ⟨hstart, heq⟩ | ⟨hstart, heq⟩ <;> rw [heq]
    · exact served_of_stable (sendFor_get (c := { c with creates := n }) (packKeyRange (c.keep k).path []) hrpc hheld)
    · exact served_addRetryKeepalive rfl (fun _ h0 => hstart h0.2.2) fun hs => hs
  · refine served_addRetryKeepalive rfl (fun _ h0 => h ?_) fun hs => settled_setKeep hs rfl rfl
    rw [h0.1, h0.2.1, Bool.true_and]

theorem processSet_served : Served e c (processSet e k c) k := by
  unfold processSet
  obtain ⟨hok, n, hn⟩ := createRequestKvSet_cases (e := e) c
  simp only [hok, hn]
  split_ifs with h
  · set c₁ : EtcdState := EtcdState.setKeep k { c.keep k with isValueChanged := false } { c with creates := n }
    rcases startKeepalive_cases (e := e) k (.put (c₁.keep k).path (c₁.keep k).value c₁.conf.lease) c₁ with
      ⟨hstart, heq⟩ | ⟨hstart, heq⟩ <;> rw [heq]
    · exact served_of_stable sendFor_put
    · exact served_addRetryKeepalive rfl (fun _ h0 => hstart h0.2.2) fun hs =>
        settled_setKeep (c := { c with creates := n }) hs rfl rfl
  · refine served_addRetryKeepalive rfl (fun hlease h0 => h ?_) fun hs => hs
    rw [h0.1, h0.2.1, decide_eq_true hlease]
    rfl

theorem prepare_fields (x : Keepalive) :
    x.prepare.path = x.path ∧ x.prepare.value = x.value ∧ x.prepare.rpc = x.rpc ∧
      x.prepare.isValueChanged = x.isValueChanged := by
  unfold Keepalive.prepare
  cases x.checker <;> exact ⟨rfl, rfl, rfl, rfl⟩

/-- without a checker nothing is rejected -/
theorem rejected_prepare (x : Keepalive) : x.prepare.Rejected ↔ x.checker ≠ none ∧ x.Rejected := by
  unfold Keepalive.Rejected Keepalive.prepare
  cases x.checker with
  | none => exact ⟨fun h => Bool.noConfusion h.2, fun h => absurd rfl h.1⟩
  | some fn => exact ⟨fun h => ⟨Option.some_ne_none fn, h⟩, fun h => h.2⟩

/-- a change of the check fields of a keepalive -/
theorem held_setKeep {x : Keepalive} (hheld : Held c.toCluster k) (hpath : x.path = (c.keep k).path)
    (hvalue : x.value = (c.keep k).value) (hrpc : x.rpc = (c.keep k).rpc)
    (hchanged : x.isValueChanged = false → (c.keep k).isValueChanged = false) : Held (c.setKeep k x).toCluster k := by
  intro hlease hval
  rw [setKeep_keep] at hval
  obtain ⟨id, hid, hrun⟩ := hheld hlease (hchanged hval)
  refine ⟨id, ?_, by rw [setKeep_keep, hrpc]; exact hrun⟩
  rw [Carries, setKeep_keep, hvalue]
  exact hid.extend (List.append_nil _).symm (by rw [setKeep_keep, hpath]) fun s hs => absurd hs List.not_mem_nil

/-- **`process`** leaves a keepalive stable or on the retry list; where its request can be created and started, or it needs
none, it is stable. -/
theorem process_stable (hheld : Held c.toCluster k) :
    (c.closing = false → Covered (process e k c) k) ∧
      (c.conf.lease ≠ 0 → RetrySucceeds e c.toCluster k → Stable (process e k c).toCluster k) := by
  unfold process
  obtain ⟨hpath, hvalue, hrpc, hchanged⟩ := prepare_fields (c.keep k)
  have hprep : Held (c.setKeep k (c.keep k).prepare).toCluster k :=
    held_setKeep hheld hpath hvalue hrpc fun h => hchanged ▸ h
  have hserved : ∀ d : EtcdState, (c.keep k).rpc = none → ¬ (c.keep k).prepare.Rejected →
      Served e (c.setKeep k (c.keep k).prepare) d k →
      (c.closing = false → Covered d k) ∧ (c.conf.lease ≠ 0 → RetrySucceeds e c.toCluster k → Stable d.toCluster k) := by
    intro d hnone hrej ⟨hcovered, hstable⟩
    refine ⟨hcovered, fun hlease hretry => hstable hlease ?_⟩
    rcases hretry with hsome | hr | hsettled | hstart
    · rw [hnone] at hsome
      exact absurd hsome Bool.false_ne_true
    · exact absurd hr hrej
    · exact .inl (settled_setKeep hsettled hpath hvalue)
    · exact .inr hstart
  simp only [setKeep_keep]
  split_ifs with hsome hrun hset
  · have hstable : Stable c.toCluster k :=
      ⟨hheld, fun _ hnone => absurd hsome (by rw [hnone]; exact Bool.false_ne_true)⟩
    exact ⟨fun _ => .inr hstable, fun _ _ => hstable⟩
  all_goals rw [Option.not_isSome_iff_eq_none] at hsome
  · exact hserved _ hsome (fun hr => Bool.false_ne_true (hr.2.symm.trans hset.1)) processSet_served
  · have hstable : Stable (c.setKeep k (c.keep k).prepare).toCluster k := by
      refine ⟨hprep, fun _ _ hrej => ?_⟩
      rw [setKeep_keep] at hrej ⊢
      have hpassed : (c.keep k).prepare.isCheckPassed = true := Bool.not_eq_false _ ▸ fun hf => hrej ⟨hrun, hf⟩
      exact .inl (Bool.not_eq_true _ ▸ fun hv => hset ⟨hpassed, hv⟩)
    exact ⟨fun _ => .inr hstable, fun _ _ => hstable⟩
  · exact hserved _ hsome (fun hr => hrun hr.1) (processCheck_served (by rw [setKeep_keep, hrpc, hsome]) hprep)

theorem active_stable (hheld : Held c.toCluster k) :
    (c.closing = false → Covered (active e k c) k) ∧
      (c.conf.lease ≠ 0 → RetrySucceeds e c.toCluster k → Stable (active e k c).toCluster k) := by
  obtain ⟨hcovered, hstable⟩ := process_stable (e := e)
    (held_setKeep (x := { c.keep k with isActived := true }) hheld rfl rfl rfl id)
  refine ⟨hcovered, fun hlease hretry => hstable hlease ?_⟩
  unfold RetrySucceeds at hretry ⊢
  rw [setKeep_keep]
  rcases hretry with hsome | hrej | hsettled | hstart
  · exact .inl hsome
  · exact .inr (.inl ((rejected_prepare _).2 ((rejected_prepare (c.keep k)).1 hrej)))
  · exact .inr (.inr (.inl (settled_setKeep hsettled rfl rfl)))
  · exact .inr (.inr (.inr hstart))

theorem held_reset (k : ℕ) (c : EtcdState) : Held (resetValueChanged k c).toCluster k := by
  intro _ hval
  rw [resetValueChanged, setKeep_keep] at hval
  exact absurd hval.symm Bool.false_ne_true

/-- one round of the loop in `set_lease` -/
theorem renewKeepalive_covered (hopen : c.closing = false) : Covered (renewKeepalive e c k) k :=
  (active_stable (held_reset k c)).1 hopen

theorem Touches.good {T : ℕ → Prop} (h : Touches T c d) (hgood : Good e d) : Good e c :=
  fun en hen => hgood en (h.history en hen)

/-- one round of the loop in `retry_pending_actions` -/
theorem retryKeepalive_stable (hlease : c.conf.lease ≠ 0) (hmem : k ∈ c.keepaliveActors)
    (hgood : Good e (retryKeepalive e c k)) : Stable (retryKeepalive e c k).toCluster k := by
  have hretry : RetrySucceeds e c.toCluster k :=
    (touches_setKeep k _ (c.record (.retry k)) |>.trans (touches_active k _)).good hgood (c.toCluster, .retry k)
      (List.mem_append_right _ (List.mem_singleton_self _)) hmem
  refine (active_stable (held_reset k (c.record (.retry k)))).2 hlease ?_
  unfold RetrySucceeds at hretry ⊢
  rw [resetValueChanged, setKeep_keep]
  rcases hretry with hsome | hrej | hsettled | hstart
  · exact .inl hsome
  · exact .inr (.inl ((rejected_prepare _).2 ((rejected_prepare (c.keep k)).1 hrej)))
  · exact .inr (.inr (.inl (settled_setKeep (c := c.record (.retry k)) hsettled rfl rfl)))
  · exact .inr (.inr (.inr hstart))

/-- a loop over keepalives: what each round establishes for its own object stays for the rest of the loop -/
theorem foldl_establishes {f : EtcdState → ℕ → EtcdState} {I : EtcdState → Prop} {Q : EtcdState → ℕ → Prop}
    (hI : ∀ c k, I c → I (f c k)) (hQ : ∀ c k, I c → Q (f c k) k) (hkeep : ∀ c k j, j ≠ k → Q c j → Q (f c k) j)
    (ks : List ℕ) (hc : I c) : I (ks.foldl f c) ∧ ∀ j, Q c j ∨ j ∈ ks → Q (ks.foldl f c) j := by
  induction ks generalizing c with
  | nil => exact ⟨hc, fun j hj => hj.resolve_right List.not_mem_nil⟩
  | cons k ks ih =>
    obtain ⟨hrest, hall⟩ := ih (hI c k hc)
    refine ⟨hrest, fun j hj => hall j ?_⟩
    by_cases hjk : j = k
    · exact .inl (hjk ▸ hQ c k hc)
    · rcases hj with hj | hj
      · exact .inl (hkeep c k j hjk hj)
      · exact .inr ((List.mem_cons.1 hj).resolve_left hjk)

/-! ## The loops -/

theorem Inv.retryKeepalives (hi : Inv c) (hgood : Good e (retryKeepalives e c)) : Inv (retryKeepalives e c) := by
  unfold Etcd.retryKeepalives at hgood ⊢
  split_ifs at hgood ⊢ with hlease
  · have htouch := touches_foldl (touches_retryKeepalive (e := e)) c.keepaliveRetryActors c
    set d := c.keepaliveRetryActors.foldl (retryKeepalive e) c
    obtain ⟨-, hstable⟩ := foldl_establishes (c := c) (f := retryKeepalive e) (I := fun c => c.conf.lease ≠ 0)
      (Q := fun c j => Good e c → j ∈ c.keepaliveActors → Stable c.toCluster j)
      (fun c k hc => (touches_retryKeepalive c k).lease ▸ hc)
      (fun c k hc hgood hk => retryKeepalive_stable hc ((touches_retryKeepalive c k).actors ▸ hk) hgood)
      (fun c k j hj hQ hgood hk => (touches_retryKeepalive c k).stable hj
        (hQ ((touches_retryKeepalive c k).good hgood) ((touches_retryKeepalive c k).actors ▸ hk)))
      c.keepaliveRetryActors hlease
    refine ⟨htouch.actors ▸ hi.nodup, fun h => htouch.running (hi.running hlease), fun h => ?_, fun k hk => .inr ?_⟩
    · exact htouch.actors.trans (hi.closing (htouch.closing ▸ h))
    · have hstab : Stable d.toCluster k := by
        by_cases hretry : k ∈ c.keepaliveRetryActors
        · exact hstable k (.inr hretry) hgood hk
        · exact htouch.stable hretry ((hi.stable k (htouch.actors ▸ hk)).resolve_left hretry)
      exact ⟨hstab.carried, hstab.quiet⟩
  · exact hi

theorem Inv.retryPendingActions (hi : Inv c) (hgood : Good e (retryPendingActions e c)) : Inv (retryPendingActions e c) :=
  (hi.retryKeepalives ((touches_retryDeletors _).good hgood)).touches_nobody (touches_retryDeletors _)

/-- without a lease nothing is required -/
theorem Inv.dropLease (hi : Inv c) : Inv (c.setConf { c.conf with lease := 0 }) where
  nodup := hi.nodup
  running h := absurd rfl h
  closing := hi.closing
  stable _ _ := .inr ⟨fun h => absurd rfl h, fun h => absurd rfl h⟩

/-- **A new lease**: every keepalive is put again. -/
theorem Inv.renew (hi : Inv c) {v : ℤ} (hrun : c.running = true) : Inv (c.renew e v) := by
  unfold EtcdState.renew
  set c₁ : EtcdState := { c.setConf { c.conf with lease := v } with keepaliveRetryActors := [] }
  change Inv (c₁.keepaliveActors.foldl (renewKeepalive e) c₁)
  have htouch := touches_foldl (touches_renewKeepalive (e := e)) c₁.keepaliveActors c₁
  have hclosed : c₁.closing = true → c₁.keepaliveActors = [] := hi.closing
  cases hopen : c₁.closing with
  | true =>
    rw [hclosed hopen]
    exact ⟨hi.nodup, fun _ => hrun, hi.closing, fun k hk => absurd (hclosed hopen ▸ hk) List.not_mem_nil⟩
  | false =>
    obtain ⟨-, hcovered⟩ := foldl_establishes (c := c₁) (f := renewKeepalive e)
      (I := fun c => c.closing = false) (Q := fun c j => Covered c j)
      (fun c k hc => (touches_renewKeepalive c k).closing.trans hc)
      (fun c k hc => renewKeepalive_covered hc)
      (fun c k j hj hQ => hQ.imp ((touches_renewKeepalive c k).retry j) ((touches_renewKeepalive c k).stable hj))
      c₁.keepaliveActors hopen
    refine ⟨by rw [htouch.actors]; exact hi.nodup, fun _ => htouch.running hrun, fun h => ?_, fun k hk => ?_⟩
    · exact htouch.actors.trans (hi.closing (htouch.closing ▸ h))
    · exact hcovered k (.inr (htouch.actors ▸ hk))

theorem Inv.turn (hi : Inv c) (h : Turn e c d) : Inv d := by
  cases h with
  | acts h => exact hi.touches_nobody h.touches
  | running => exact hi.touches_nobody { Touches.refl nobody c with running := fun _ => rfl }
  | renew hv hrun => exact hi.renew hrun
  | drop => exact hi.dropLease

theorem Inv.turns (hi : Inv c) (h : Turns e c d) : Inv d := h.keeps (I := Inv) (fun hturn hc => hc.turn hturn) hi

/-- **What the cluster does by itself** -/
theorem Inv.round (hi : Inv c) (h : Round e c d) (hgood : Good e d) : Inv d := by
  obtain ⟨b, hturns, hd | hd⟩ := h
  · exact (hi.turns hturns).touches_nobody hd.touches
  · exact ((hi.turns hturns).retryPendingActions (hd.touches.good hgood)).touches_nobody hd.touches

/-! ## Events -/

/-- a step that touches one keepalive -/
theorem Inv.touches_one (hi : Inv c) (h : Touches (· = k) c d)
    (hk : k ∈ c.keepaliveActors → c.closing = false → Covered d k) : Inv d where
  nodup := h.actors ▸ hi.nodup
  running hlease := h.running (hi.running (h.lease ▸ hlease))
  closing hclose := h.actors.trans (hi.closing (h.closing ▸ hclose))
  stable j hj := by
    have hmem : j ∈ c.keepaliveActors := h.actors ▸ hj
    by_cases hjk : j = k
    · refine hjk ▸ hk (hjk ▸ hmem) (Bool.not_eq_true _ ▸ fun hclose => ?_)
      rw [hi.closing hclose] at hmem
      exact List.not_mem_nil hmem
    · exact (hi.stable j hmem).imp (h.retry j) (h.stable hjk)

theorem Covered.touches_nobody (h : Covered c k) (ht : Touches nobody c d) : Covered d k :=
  h.imp (ht.retry k) (ht.stable id)

/-- a keepalive is added: only it may be unstable behind that -/
theorem Inv.enlist (hi : Inv c) (hnew : k ∉ c.keepaliveActors) (hopen : c.closing = false) (h : Touches (· = k) (c.enlist k) d)
    (hcovered : Covered d k) : Inv d where
  nodup := by
    rw [h.actors]
    refine List.nodup_append.2 ⟨hi.nodup, List.nodup_singleton k, fun a ha b hb => ?_⟩
    rw [List.mem_singleton.1 hb]
    rintro rfl
    exact hnew ha
  running hlease := h.running (hi.running (h.lease ▸ hlease))
  closing hclose := absurd ((h.closing.trans hopen).symm.trans hclose) Bool.false_ne_true
  stable j hj := by
    by_cases hjk : j = k
    · exact hjk ▸ hcovered
    · rw [h.actors] at hj
      have hmem := (List.mem_append.1 hj).resolve_right fun h => hjk (List.mem_singleton.1 h)
      have hstable : j ∈ (c.enlist k).keepaliveRetryActors ∨ Stable (c.enlist k).toCluster j :=
        (hi.stable j hmem).imp id fun h => ⟨h.carried, h.quiet⟩
      exact hstable.imp (h.retry j) (h.stable hjk)

/-- **`add_keepalive`** of a keepalive that is added fresh -/
theorem Inv.add (hi : Inv c) {c₁ : EtcdState} (hnew : k ∉ c.keepaliveActors) (hopen : c.closing = false)
    (hrecord : Acts nobody (c.record (.add k)) c₁)
    (hactive : ¬ (c₁.running = true ∧ c₁.conf.lease ≠ 0) ∧ d = c₁.enlist k ∨ d = active e k (c₁.enlist k)) (hgood : Good e d) :
    Inv d := by
  have htouch : Touches nobody c c₁ := (touches_record _ c).trans hrecord.touches
  have hi₁ := hi.touches_nobody htouch
  have hnew₁ : k ∉ c₁.keepaliveActors := htouch.actors ▸ hnew
  have hopen₁ : c₁.closing = false := htouch.closing.trans hopen
  rcases hactive with ⟨hrun, rfl⟩ | rfl
  · refine hi₁.enlist hnew₁ hopen₁ (Touches.refl _ _) (.inr ?_)
    have hzero : c₁.conf.lease = 0 := not_not.1 fun h => hrun ⟨hi₁.running h, h⟩
    exact ⟨fun h => absurd hzero h, fun h => absurd hzero h⟩
  · have hactive := touches_active (e := e) k (c₁.enlist k)
    refine hi₁.enlist hnew₁ hopen₁ hactive ?_
    have hmem : (c.toCluster, EtcdStep.add k) ∈ (c₁.enlist k).history :=
      hrecord.touches.history _ (List.mem_append_right _ (List.mem_singleton_self _))
    have hfresh : AddsFresh c.toCluster k := hgood (c.toCluster, .add k) (hactive.history _ hmem) hopen hnew
    by_cases hretry : k ∈ c.keepaliveRetryActors
    · exact .inl (hactive.retry k (htouch.retry k hretry))
    · have hheld : Held (c₁.enlist k).toCluster k := by
        intro hlease hval
        have hkeep : c₁.keep k = c.keep k := htouch.keep k id
        rcases hfresh with h | h | h | ⟨id, hid, hrun⟩
        · exact absurd (htouch.lease.trans h) hlease
        · exact absurd (hval.symm.trans ((congrArg _ hkeep).trans h)) Bool.false_ne_true
        · exact absurd h hretry
        · refine ⟨id, htouch.carries (fun h => h) hid, hrun.imp (fun h => ?_) (htouch.acked id)⟩
          exact (congrArg _ hkeep).trans h
      exact (active_stable hheld).1 hopen₁

/-- **`remove_keepalive`**: what is left changes an object that is no longer in the map. -/
theorem Inv.delist (hi : Inv c) (h : Touches nobody (c.delist k) d) (x : Keepalive) : Inv (d.setKeep k x) := by
  have hout : k ∉ (c.delist k).keepaliveActors := not_mem_swapErase hi.nodup
  have hi₁ : Inv (c.delist k) := by
    refine ⟨(swapErase_perm k _).nodup_iff.2 (hi.nodup.erase k), hi.running, fun h => ?_, fun j hj => ?_⟩
    · have hempty : (c.delist k).keepaliveActors = swapErase k [] := congrArg (swapErase k) (hi.closing h)
      exact hempty
    · have hjk : j ≠ k := fun h => hout (h ▸ hj)
      exact (hi.stable j ((mem_swapErase_of_ne hjk).1 hj)).imp (mem_swapErase_of_ne hjk).2 fun h => ⟨h.carried, h.quiet⟩
  exact (hi₁.touches_nobody h).touches_one (touches_setKeep k x d) fun hk => absurd (h.actors ▸ hk) hout

theorem Inv.setChecker (hi : Inv c) (fn : Option (Bytes → Bool)) : Inv (c.setKeep k { c.keep k with checker := fn }) := by
  refine hi.touches_one (touches_setKeep k _ c) fun hk _ => (hi.stable k hk).imp (fun h => h) fun h => ⟨?_, ?_⟩
  · exact held_setKeep h.carried rfl rfl rfl id
  · intro hlease hrpc hrej
    rw [setKeep_keep] at hrpc hrej ⊢
    exact (h.quiet hlease hrpc hrej).imp (fun hval => hval) fun hs => settled_setKeep hs rfl rfl

theorem Inv.setValue (hi : Inv c) {value : Bytes}
    (hidle : ¬ (c.running = true ∧ c.conf.lease ≠ 0) → d = c.setKeep k { c.keep k with value := value, isValueChanged := true })
    (hactive : c.running = true ∧ c.conf.lease ≠ 0 →
      d = active e k (c.setKeep k { c.keep k with value := value, isValueChanged := true })) : Inv d := by
  set x : Keepalive := { c.keep k with value := value, isValueChanged := true }
  by_cases hrun : c.running = true ∧ c.conf.lease ≠ 0
  · rw [hactive hrun]
    have hheld : Held (c.setKeep k x).toCluster k := by
      intro _ hval
      rw [setKeep_keep] at hval
      exact absurd hval.symm Bool.false_ne_true
    exact hi.touches_one ((touches_setKeep k x c).trans (touches_active k _)) fun _ => (active_stable hheld).1
  · rw [hidle hrun]
    refine hi.touches_one (touches_setKeep k _ c) fun _ _ => ?_
    have hlease : c.conf.lease = 0 := not_not.1 fun h => hrun ⟨hi.running h, h⟩
    exact .inr ⟨fun h => absurd hlease h, fun h => absurd hlease h⟩

/-- an answer to a request of a keepalive that is not on the retry list -/
theorem Inv.answered (hi : Inv c) (h : Touches (· = k) c d)
    (hk : c.closing = false → Held c.toCluster k → Covered d k) : Inv d := by
  refine hi.touches_one h fun hmem hopen => ?_
  rcases hi.stable k hmem with hretry | hstable
  · exact .inl (h.retry k hretry)
  · exact hk hopen hstable.carried

/-- the request of a keepalive is answered; a put that carried the current value has been acknowledged -/
theorem held_answered {x : Keepalive} {id : ℕ} {acked : List ℕ} (hheld : Held c.toCluster k) (hrpc : (c.keep k).rpc = some id)
    (hacked : ∀ j, j ∈ c.acked → j ∈ acked) (hid : Carries c.toCluster k id → id ∈ acked) (hpath : x.path = (c.keep k).path)
    (hvalue : x.value = (c.keep k).value) (hchanged : x.isValueChanged = (c.keep k).isValueChanged) :
    Held ({ c with acked := acked }.setKeep k x).toCluster k := by
  intro hlease hval
  rw [setKeep_keep] at hval
  obtain ⟨id', hid', hrun⟩ := hheld hlease (hchanged ▸ hval)
  refine ⟨id', ?_, .inr ?_⟩
  · rw [Carries, setKeep_keep, hvalue]
    exact hid'.extend (List.append_nil _).symm (by rw [setKeep_keep, hpath]) fun s hs => absurd hs List.not_mem_nil
  · rcases hrun with hrun | hrun
    · obtain rfl : id = id' := Option.some.inj (hrpc.symm.trans hrun)
      exact hid hid'
    · exact hacked id' hrun

/-- the request of a keepalive failed: it waits to be retried -/
theorem Inv.failed (hi : Inv c) {x : Keepalive} (h : Acts (· = k) (c.setKeep k x) d)
    (hretry : Acts nobody (addRetryKeepalive e k (c.setKeep k x)) d) : Inv d :=
  hi.answered ((touches_setKeep k x c).trans h.touches) fun hopen _ =>
    (covered_addRetryKeepalive (c := c.setKeep k x) hopen).touches_nobody hretry.touches

/-- **The check** is answered. -/
theorem Inv.checked (hi : Inv c) {id : ℕ} {s : Sent} (hs : c.sent[id]? = some s) (hrpc : (c.keep k).rpc = some id)
    (hask : ∀ key v l, s.ask ≠ .put key v l) (value : Bytes) : Inv (active e k (c.setKeep k ((c.keep k).judged value))) := by
  refine hi.answered ((touches_setKeep k _ c).trans (touches_active k _)) fun hopen hheld => ?_
  have hid : ¬ Carries c.toCluster k id := fun h => by
    obtain ⟨host, hput⟩ := h.1
    exact hask _ _ _ (congrArg Sent.ask (Option.some.inj (hs.symm.trans hput)))
  have hjudged : Held (c.setKeep k ((c.keep k).judged value)).toCluster k :=
    held_answered hheld hrpc (fun _ h => h) (fun h => absurd h hid) rfl rfl rfl
  exact (active_stable hjudged).1 hopen

/-- **The put** is answered. -/
theorem Inv.acked (hi : Inv c) {id : ℕ} (hrpc : (c.keep k).rpc = some id) :
    Inv (active e k ({ c with acked := c.acked ++ [id] }.setKeep k { c.keep k with rpc := none, hasData := true })) := by
  have hacked : Touches (· = k) c { c with acked := c.acked ++ [id] } :=
    { Touches.refl _ c with acked := fun _ => List.mem_append_left _ }
  refine hi.answered ((hacked.trans (touches_setKeep k _ _)).trans (touches_active k _)) fun hopen hheld => ?_
  have hdone : Held ({ c with acked := c.acked ++ [id] }.setKeep k { c.keep k with rpc := none, hasData := true }).toCluster k :=
    held_answered hheld hrpc (fun _ => List.mem_append_left _) (fun _ => List.mem_append_right _ (List.mem_singleton_self id))
      rfl rfl rfl
  exact (active_stable hdone).1 hopen

/-- `close` leaves no keepalive -/
theorem Inv.shut (hi : Inv c) : Inv c.shut where
  nodup := List.nodup_nil
  running := hi.running
  closing _ := rfl
  stable _ hk := absurd hk List.not_mem_nil

/-- **Every event** keeps the invariant. -/
theorem Inv.did {ev : EtcdEvent} (hi : Inv c) (h : Did e c ev d) (hgood : Good e d) : Inv d := by
  cases h with
  | quiet ev h => exact hi.touches_nobody h.touches
  | tick h => exact hi.round h hgood
  | add hnew hlease h hopen hrecord hactive => exact hi.add hnew hopen hrecord hactive hgood
  | remove hfound hdata => exact hi.delist (touches_removeKeepalivePath _ false _) _
  | drop hfound hdata => exact hi.delist (Touches.refl _ _) _
  | setChecker k fn => exact hi.setChecker fn
  | setValue hvalue h hidle hactive => exact hi.setValue hidle hactive
  | checkFailed hs hrpc htarget hask h hretry => exact hi.failed h hretry
  | checked hs hrpc htarget hask hr hfound h hactive => exact hactive ▸ hi.checked hs hrpc hask _
  | putFailed hs hrpc htarget hask hr h hretry => exact hi.failed h hretry
  | acked hs hrpc htarget hask hr h hactive => exact hactive ▸ hi.acked hrpc
  | deleted hp => exact hi.touches_nobody (touches_of_eq rfl)
  | @deleteFailed id r p c₁ hp hr h =>
    have hdrop : Touches nobody c { c with deletorRpcs := c.deletorRpcs.filter fun p => p.1 ≠ id } := touches_of_eq rfl
    exact hi.touches_nobody ((hdrop.trans h.touches).trans (touches_removeKeepalivePath _ true _))
  | answer h => exact hi.round h hgood
  | close h => exact hi.shut.turns h

/-! ## Runs -/

/-- what is recorded stays recorded -/
def Grows (c d : EtcdState) : Prop := ∀ en, en ∈ c.history → en ∈ d.history

theorem Grows.trans {b : EtcdState} (h : Grows c d) (h' : Grows d b) : Grows c b := fun en hen => h' en (h en hen)

theorem Grows.good (h : Grows c d) (hgood : Good e d) : Good e c := fun en hen => hgood en (h en hen)

theorem Touches.grows {T : ℕ → Prop} (h : Touches T c d) : Grows c d := h.history

theorem Turns.grows (h : Turns e c d) : Grows c d :=
  h.keeps (I := Grows c) (fun hturn hc => hc.trans (by
    cases hturn with
    | acts h => exact h.touches.grows
    | running => exact fun _ hen => hen
    | renew hv hrun =>
      unfold EtcdState.renew
      exact fun en hen => (touches_foldl touches_renewKeepalive _ _).grows en hen
    | drop => exact fun _ hen => hen)) fun _ hen => hen

theorem grows_retryPendingActions (c : EtcdState) : Grows c (retryPendingActions e c) := by
  have hkeepalives : Grows c (retryKeepalives e c) := by
    unfold retryKeepalives
    split_ifs
    · exact (touches_foldl touches_retryKeepalive _ c).grows
    · exact fun _ hen => hen
  exact hkeepalives.trans (touches_retryDeletors _).grows

theorem Round.grows (h : Round e c d) : Grows c d := by
  obtain ⟨b, hb, hd | hd⟩ := h
  · exact hb.grows.trans hd.touches.grows
  · exact (hb.grows.trans (grows_retryPendingActions b)).trans hd.touches.grows

/-- **Every event** adds to what is recorded. -/
theorem Did.grows {ev : EtcdEvent} (h : Did e c ev d) : Grows c d := by
  cases h with
  | quiet ev h => exact h.touches.grows
  | tick h => exact h.grows
  | add hnew hlease h => exact hlease.touches.grows.trans h.touches.grows
  | @remove k hfound hdata =>
    have hdelist : Grows c (c.delist k) := fun _ hen => hen
    exact hdelist.trans ((touches_removeKeepalivePath _ false _).none.trans (touches_setKeep k _ _)).grows
  | drop hfound hdata => exact fun _ hen => hen
  | setChecker k fn => exact (touches_setKeep k _ c).grows
  | setValue hvalue h => exact ((touches_setKeep _ _ c).trans h.touches).grows
  | checkFailed hs hrpc htarget hask h => exact ((touches_setKeep _ _ c).trans h.touches).grows
  | checked hs hrpc htarget hask hr hfound h => exact ((touches_setKeep _ _ c).trans h.touches).grows
  | putFailed hs hrpc htarget hask hr h => exact ((touches_setKeep _ _ c).trans h.touches).grows
  | acked hs hrpc htarget hask hr h => exact ((touches_setKeep _ _ _).trans h.touches).grows
  | deleted hp => exact fun _ hen => hen
  | deleteFailed hp hr h => exact h.touches.grows.trans (touches_removeKeepalivePath _ true _).grows
  | answer h => exact h.grows
  | close h => exact h.grows

theorem inv_start (conf : EtcdConf) (path : ℕ → Bytes) (checker : ℕ → Option (Bytes → Bool)) : Inv (.start conf path checker) where
  nodup := List.nodup_nil
  running h := absurd rfl h
  closing _ := rfl
  stable _ hk := absurd hk List.not_mem_nil

theorem Inv.run {c : EtcdState} (hi : Inv c) (events : List EtcdEvent) (hgood : Good e (etcdRun e c events)) :
    Inv (etcdRun e c events) := by
  induction events using List.reverseRecOn with
  | nil => exact hi
  | append_singleton events ev ih =>
    rw [etcdRun, List.foldl_append] at hgood ⊢
    have hdid := did_event (e := e) (events.foldl (etcdEvent e) c) ev
    exact (ih (hdid.grows.good hgood)).did hdid hgood

/-- **No registration is forgotten**, in any run in which every round of the retry loop gets its request started and no
keepalive is added whose value was put under another lease. -/
theorem keepalive_registered (e : EtcdEnv) (conf : EtcdConf) (path : ℕ → Bytes) (checker : ℕ → Option (Bytes → Bool))
    (events : List EtcdEvent) (k : ℕ) (hgood : Good e (etcdRun e (.start conf path checker) events)) :
    let c := etcdRun e (.start conf path checker) events
    c.conf.lease ≠ 0 → c.closing = false → k ∈ c.keepaliveActors → ¬ (c.keep k).Rejected → Registered c.toCluster k := by
  intro c hlease _ hk hrej
  rcases ((inv_start conf path checker).run events hgood).stable k hk with hretry | hstable
  · exact .inr (.inl hretry)
  · exact hstable.registered hlease hrej

/-- the answer to a lease request -/
def Reply.granted (id : ℤ) : Reply where
  errorCode := 0
  responseCode := 200
  body := ⟨true, 0, false, 0, none, false, true, id, none, none⟩

def Reply.empty (code : ℤ) : Reply where
  errorCode := 0
  responseCode := code
  body := ⟨true, 0, false, 0, none, false, false, 0, none, none⟩

/-- a cluster that has been told its node, and keepalives without checkers -/
@[reducible] def EtcdState.single : EtcdState := .start { pathNode := "http://etcd" } (fun _ => [1]) fun _ => none

/-- a lease is granted, and the first put fails -/
def putFails : List EtcdEvent := [.addKeepalive 0, .complete 0 (.granted 7), .complete 1 (.empty 500)]

/-- the retry is started, so that the keepalive is registered -/
theorem keepalive_registered_steady :
    let c := etcdRun .steady .single (putFails ++ [.tick])
    c.conf.lease ≠ 0 ∧ 0 ∈ c.keepaliveActors ∧ Registered c.toCluster 0 := by
  have hall : (etcdRun .steady .single (putFails ++ [.tick])).history.all (fun en =>
      match en.2 with
      | .retry _ => en.1.canRequest
      | .add _ => en.1.conf.lease = 0) = true := by decide +kernel
  have hgood : Good .steady (etcdRun .steady .single (putFails ++ [.tick])) := by
    intro ⟨c, step⟩ hen
    have hstep := List.all_eq_true.1 hall _ hen
    cases step with
    | retry k => exact fun _ => .inr (.inr (.inr ⟨hstep, rfl, rfl⟩))
    | add k => exact fun _ _ => .inl (of_decide_eq_true hstep)
  have hlease : (etcdRun .steady .single (putFails ++ [.tick])).conf.lease ≠ 0 := by decide +kernel
  have hopen : (etcdRun .steady .single (putFails ++ [.tick])).closing = false := by decide +kernel
  have hadded : 0 ∈ (etcdRun .steady .single (putFails ++ [.tick])).keepaliveActors := by decide +kernel
  have hrej : ¬ ((etcdRun .steady .single (putFails ++ [.tick])).keep 0).Rejected := by decide +kernel
  exact ⟨hlease, hadded, keepalive_registered .steady _ _ _ _ 0 hgood hlease hopen hadded hrej⟩

/-- every request is created, but for the third one -/
def EtcdEnv.thirdFails : EtcdEnv := { EtcdEnv.steady with create := fun n => n ≠ 2 }

/-- the request of the retry cannot be created: nothing is left that would put the value -/
theorem keepalive_forgotten :
    let c := etcdRun .thirdFails .single (putFails ++ [.tick])
    c.conf.lease ≠ 0 ∧ c.closing = false ∧ 0 ∈ c.keepaliveActors ∧ ¬ (c.keep 0).Rejected ∧ ¬ Registered c.toCluster 0 := by
  refine ⟨by decide +kernel, by decide +kernel, by decide +kernel, by decide +kernel, ?_⟩
  rintro (hrpc | hretry | ⟨id, hacked, -⟩)
  · revert hrpc
    decide +kernel
  · revert hretry
    decide +kernel
  · have hnone : (etcdRun .thirdFails .single (putFails ++ [.tick])).acked = [] := by decide +kernel
    rw [hnone] at hacked
    exact absurd hacked List.not_mem_nil

end AtFrame.Etcd
