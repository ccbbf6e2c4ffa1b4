/-
Keepalives that nobody serves, and the deletors of one path.

A keepalive that is on no list and has no request out sends none until it is added or given a value (`Idle`). The delete of a
path stays owed (`Owed`): a deletor of it waits, or its request is sent. A deletor leaves the list only by its request, by an
addition of its path, by its ninth try or with the cluster; it comes there only by a removal, or where its request fails.

- `Did.idle`: what keeps keepalives idle;
- `Did.owed`: an owed delete stays owed;
- `Did.not_owed`: a delete that is not owed does not become so.
-/
import AtFrame.Etcd.Requests

namespace AtFrame.Etcd

variable {e : EtcdEnv} {T S : ℕ → Prop} {c d : EtcdState} {p : Bytes} {N : ℕ} {path : ℕ → Bytes}

/-- requests are put behind the others -/
theorem getElem?_concat {α : Type} {l : List α} {a b : α} {i : ℕ} (h : (l ++ [a])[i]? = some b) :
    l[i]? = some b ∨ i = l.length ∧ b = a := by
  rcases Nat.lt_or_ge i l.length with hlt | hge
  · exact .inl (List.getElem?_append_left hlt ▸ h)
  · rw [List.getElem?_append_right hge] at h
    have hi : i - l.length = 0 := Nat.lt_one_iff.1 (List.getElem?_eq_some_iff.1 h).1
    rw [hi] at h
    exact .inr ⟨Nat.le_antisymm (Nat.sub_eq_zero_iff_le.1 hi) hge, (Option.some.inj h).symm⟩

/-! ## Idle keepalives -/

/-- the keepalives of `S` are on no list, have no request out, and have sent no put since the `N`-th request -/
structure Idle (S : ℕ → Prop) (N : ℕ) (c : EtcdState) : Prop where
  actors : ∀ k, S k → k ∉ c.keepaliveActors
  retryActors : ∀ k, S k → k ∉ c.keepaliveRetryActors
  rpc : ∀ k, S k → (c.keep k).rpc = none
  puts : ∀ id s k, N ≤ id → c.sent[id]? = some s → S k → s.target = .keepalive k → ∀ key value lease, s.ask ≠ .put key value lease

theorem Idle.mono {M : ℕ} (hi : Idle S N c) (hM : N ≤ M) : Idle S M c :=
  ⟨hi.actors, hi.retryActors, hi.rpc, fun id s k hid => hi.puts id s k (hM.trans hid)⟩

theorem Idle.setKeep (hi : Idle S N c) {k : ℕ} {x : Keepalive} (hx : S k → x.rpc = none) : Idle S N (c.setKeep k x) where
  actors := hi.actors
  retryActors := hi.retryActors
  rpc j hj := by
    by_cases hjk : j = k
    · rw [hjk, setKeep_keep]
      exact hx (hjk ▸ hj)
    · exact (congrArg Keepalive.rpc (Function.update_of_ne hjk ..)).trans (hi.rpc j hj)
  puts := hi.puts

/-- a request that is no put of an idle keepalive -/
theorem Idle.send (hi : Idle S N c) {s : Sent} (n : ℕ)
    (hs : ∀ k, S k → s.target = .keepalive k → ∀ key value lease, s.ask ≠ .put key value lease) :
    Idle S N { c with starts := n, sent := c.sent ++ [s] } where
  actors := hi.actors
  retryActors := hi.retryActors
  rpc := hi.rpc
  puts id t k hid ht hk htarget := by
    rcases getElem?_concat ht with ht | ⟨-, rfl⟩
    · exact hi.puts id t k hid ht hk htarget
    · exact hs k hk htarget

theorem Idle.quiet (hi : Idle S N c) (h : d.watched = c.watched) : Idle S N d := by
  simp only [EtcdState.watched, EtcdState.tracked, Prod.mk.injEq] at h
  obtain ⟨⟨hkeep, hsent, -, -, -, hactors, hretry, -⟩, -⟩ := h
  exact ⟨hactors ▸ hi.actors, hretry ▸ hi.retryActors, hkeep ▸ hi.rpc, hsent ▸ hi.puts⟩

theorem Idle.sendFor (hi : Idle S N c) {k : ℕ} (hk : ¬ S k) (ask : Ask) : Idle S N (c.sendFor k ask) :=
  (hi.send _ fun j hj htarget => by cases htarget; exact absurd hj hk).setKeep fun h => absurd h hk

theorem Act.idle (h : Act T c d) (hT : ∀ k, S k → ¬ T k) (hi : Idle S N c) : Idle S N d := by
  cases h with
  | quiet h => exact hi.quiet h
  | record step => exact ⟨hi.actors, hi.retryActors, hi.rpc, hi.puts⟩
  | request host h => exact hi.send _ fun k hk htarget => Target.noConfusion htarget
  | tune hk n a v => exact hi.setKeep fun h => absurd hk (hT _ h)
  | unchecked hk h => exact hi.setKeep fun h => absurd hk (hT _ h)
  | get hk hrpc hrun => exact hi.sendFor (fun h => hT _ h hk) _
  | put hk hrpc hrun hpassed => exact hi.sendFor (fun h => hT _ h hk) _
  | retry hk hnew =>
    refine ⟨hi.actors, fun j hj hmem => ?_, hi.rpc, hi.puts⟩
    rcases List.mem_append.1 hmem with hmem | hmem
    · exact hi.retryActors j hj hmem
    · exact hT j hj (List.mem_singleton.1 hmem ▸ hk)

theorem Acts.idle (h : Acts T c d) (hT : ∀ k, S k → ¬ T k) (hi : Idle S N c) : Idle S N d :=
  h.keeps (I := Idle S N) (fun hact => hact.idle hT) hi

theorem Move.idle (h : Move c d) (hi : Idle S N c) : Idle S N d := by
  cases h with
  | acts h => exact h.idle (fun k hk hmem => hmem.elim (hi.actors k hk) (hi.retryActors k hk)) hi
  | running => exact ⟨hi.actors, hi.retryActors, hi.rpc, hi.puts⟩
  | lease v => exact ⟨hi.actors, hi.retryActors, hi.rpc, hi.puts⟩
  | forget => exact ⟨hi.actors, fun _ _ => List.not_mem_nil, hi.rpc, hi.puts⟩

theorem Moves.idle (h : Moves c d) (hi : Idle S N c) : Idle S N d := h.keeps (I := Idle S N) Move.idle hi

theorem Idle.deletors {n m : ℕ} {l : List Deletor} {r : List (ℕ × Deletor)} (hi : Idle S N c) :
    Idle S N { c with creates := n, starts := m, keepaliveDeletors := l, deletorRpcs := r } :=
  ⟨hi.actors, hi.retryActors, hi.rpc, hi.puts⟩

theorem Idle.askDelete (hi : Idle S N c) (q : Bytes) (n : ℕ) : Idle S N (c.askDelete q n) :=
  hi.send _ fun _ _ htarget => Target.noConfusion htarget

theorem Idle.removeKeepalivePath (hi : Idle S N c) (d : Deletor) (delay : Bool) : Idle S N (removeKeepalivePath e d delay c) :=
  removeKeepalivePath_induct (I := Idle S N) (fun _ _ _ _ _ h => h.deletors) (fun _ q n h => h.askDelete q n) d delay hi

theorem Round.idle (h : Round e c d) (hi : Idle S N c) : Idle S N d :=
  h.keeps (I := Idle S N) Move.idle (fun _ _ _ _ _ h => h.deletors) (fun _ q n h => h.askDelete q n) hi

theorem nobody_not {k : ℕ} (_ : S k) : ¬ nobody k := id

/-- an event that gives no idle keepalive something to do -/
def EtcdEvent.Leaves (S : ℕ → Prop) (c : EtcdState) : EtcdEvent → Prop
  | .addKeepalive k => ¬ S k
  | .setValue k value => S k → (c.keep k).value = value ∨ ¬ (c.running = true ∧ c.conf.lease ≠ 0)
  | _ => True

theorem Idle.not_of_rpc (hi : Idle S N c) {k id : ℕ} (hrpc : (c.keep k).rpc = some id) : ¬ S k :=
  fun h => Option.some_ne_none id (hrpc.symm.trans (hi.rpc k h))

theorem Idle.delist (hi : Idle S N c) {k : ℕ} (hk : ¬ S k) : Idle S N (c.delist k) := by
  have hne : ∀ j, S j → j ≠ k := fun j hj hjk => hk (hjk ▸ hj)
  exact ⟨fun j hj hmem => hi.actors j hj ((mem_swapErase_of_ne (hne j hj)).1 hmem),
    fun j hj hmem => hi.retryActors j hj ((mem_swapErase_of_ne (hne j hj)).1 hmem), hi.rpc, hi.puts⟩

theorem Idle.not_of_mem (hi : Idle S N c) {k : ℕ} (hfound : k ∈ c.keepaliveActors ∨ k ∈ c.keepaliveRetryActors) : ¬ S k :=
  fun h => hfound.elim (hi.actors k h) (hi.retryActors k h)

/-- **Idle keepalives** stay idle until they are added or given a value. -/
theorem Did.idle {ev : EtcdEvent} (h : Did e c ev d) (hev : ev.Leaves S c) (hi : Idle S N c) : Idle S N d := by
  have hone : ∀ {k : ℕ} {c d : EtcdState}, ¬ S k → Acts (· = k) c d → Idle S N c → Idle S N d :=
    fun hk h => h.idle fun j hj hjk => hk (hjk ▸ hj)
  cases h with
  | quiet ev h => exact h.idle (fun _ => nobody_not) hi
  | tick h => exact h.idle hi
  | @add k c₁ d hnew hlease h =>
    have hi₁ := hlease.idle (fun _ => nobody_not) hi
    refine hone hev h ⟨fun j hj hmem => ?_, hi₁.retryActors, hi₁.rpc, hi₁.puts⟩
    rcases List.mem_append.1 hmem with hmem | hmem
    · exact hi₁.actors j hj hmem
    · exact hev (List.mem_singleton.1 hmem ▸ hj)
  | remove hfound hdata => exact ((hi.delist (hi.not_of_mem hfound)).removeKeepalivePath _ false).setKeep fun _ => rfl
  | drop hfound hdata => exact (hi.delist (hi.not_of_mem hfound)).setKeep fun _ => rfl
  | setChecker k fn => exact hi.setKeep (hi.rpc k)
  | @setValue k value d hvalue h hidle =>
    by_cases hk : S k
    · rw [hidle ((hev hk).resolve_left hvalue)]
      exact hi.setKeep (hi.rpc k)
    · exact hone hk h (hi.setKeep fun h => absurd h hk)
  | checkFailed hs hrpc htarget hask h => exact hone (hi.not_of_rpc hrpc) h (hi.setKeep fun _ => rfl)
  | checked hs hrpc htarget hask hr hfound h => exact hone (hi.not_of_rpc hrpc) h (hi.setKeep fun _ => rfl)
  | putFailed hs hrpc htarget hask hr h => exact hone (hi.not_of_rpc hrpc) h (hi.setKeep fun _ => rfl)
  | @acked id k s r d hs hrpc htarget hask hr h =>
    have hacked : Idle S N { c with acked := c.acked ++ [id] } := ⟨hi.actors, hi.retryActors, hi.rpc, hi.puts⟩
    exact hone (hi.not_of_rpc hrpc) h (hacked.setKeep fun _ => rfl)
  | deleted hp => exact ⟨hi.actors, hi.retryActors, hi.rpc, hi.puts⟩
  | @deleteFailed id r p c₁ hp hr h =>
    have hdrop : Idle S N { c with deletorRpcs := c.deletorRpcs.filter fun p => p.1 ≠ id } :=
      ⟨hi.actors, hi.retryActors, hi.rpc, hi.puts⟩
    exact (h.idle (fun _ => nobody_not) hdrop).removeKeepalivePath p.2 true
  | answer h => exact h.idle hi
  | close h =>
    refine h.moves.idle ⟨fun _ _ => List.not_mem_nil, fun _ _ => List.not_mem_nil, fun k hk => ?_, hi.puts⟩
    simp only [EtcdState.shut]
    split_ifs
    · rfl
    · exact hi.rpc k hk

/-! ## Owed deletes -/

/-- a request for the deletion of a path -/
def Ask.Deletes (p : Bytes) (ask : Ask) : Prop := ask = .delete (packKeyRange p plusOne)

instance (p : Bytes) (ask : Ask) : Decidable (ask.Deletes p) := inferInstanceAs (Decidable (ask = _))

theorem packKeyRange_inj {p q : Bytes} (h : packKeyRange p plusOne = packKeyRange q plusOne) : p = q := by
  have hkey := congrArg KeyRange.key h
  simp only [packKeyRange] at hkey
  split_ifs at hkey with hp hq
  · rw [hp, hq]
  · exact Option.some.inj hkey

theorem deletes_iff {p q : Bytes} : (Ask.delete (packKeyRange q plusOne)).Deletes p ↔ q = p :=
  ⟨fun h => packKeyRange_inj (Ask.delete.inj h), fun h => by rw [h]; rfl⟩

/-- a deletor of the path waits -/
def Waits (c : Cluster) (p : Bytes) : Prop := ∃ d ∈ c.keepaliveDeletors, d.path = p

instance (c : Cluster) (p : Bytes) : Decidable (Waits c p) := inferInstanceAs (Decidable (∃ d ∈ c.keepaliveDeletors, d.path = p))

/-- the deletion of the path has been asked for since the `N`-th request -/
def Asked (p : Bytes) (N : ℕ) (c : EtcdState) : Prop := ∃ id s, N ≤ id ∧ c.sent[id]? = some s ∧ s.ask.Deletes p

/-- a deletor of the path waits, or its request has been sent since the `N`-th request -/
def Owed (p : Bytes) (N : ℕ) (c : EtcdState) : Prop := Waits c.toCluster p ∨ Asked p N c

theorem owed_of_eq (hd : d.keepaliveDeletors = c.keepaliveDeletors) (hs : d.sent = c.sent) : Owed p N d ↔ Owed p N c := by
  unfold Owed Waits Asked
  rw [hd, hs]

/-- a request for something else -/
theorem asked_send {s : Sent} (hs : ¬ s.ask.Deletes p) (n : ℕ) :
    Asked p N { c with starts := n, sent := c.sent ++ [s] } ↔ Asked p N c := by
  constructor
  · rintro ⟨id, t, hid, ht, hdel⟩
    rcases getElem?_concat ht with ht | ⟨-, rfl⟩
    · exact ⟨id, t, hid, ht, hdel⟩
    · exact absurd hdel hs
  · rintro ⟨id, t, hid, ht, hdel⟩
    exact ⟨id, t, hid, List.getElem?_append_left (List.getElem?_eq_some_iff.1 ht).1 ▸ ht, hdel⟩

theorem owed_setKeep (k : ℕ) (x : Keepalive) : Owed p N (c.setKeep k x) ↔ Owed p N c := owed_of_eq rfl rfl

theorem asked_sendFor {k : ℕ} {ask : Ask} (h : ¬ ask.Deletes p) : Asked p N (c.sendFor k ask) ↔ Asked p N c :=
  asked_send h (c.starts + 1)

theorem Act.asked (h : Act T c d) : Asked p N d ↔ Asked p N c := by
  cases h with
  | quiet h =>
    simp only [EtcdState.watched, EtcdState.tracked, Prod.mk.injEq] at h
    unfold Asked
    rw [h.1.2.1]
  | request host h =>
    refine asked_send (fun hdel => ?_) _
    cases hdel
    exact h
  | get hk hrpc hrun => exact asked_sendFor fun h => Ask.noConfusion h
  | put hk hrpc hrun hpassed => exact asked_sendFor fun h => Ask.noConfusion h
  | _ => exact Iff.rfl

theorem Acts.asked (h : Acts T c d) : Asked p N d ↔ Asked p N c :=
  h.keeps (I := fun d => Asked p N d ↔ Asked p N c) (fun hact hc => hact.asked.trans hc) Iff.rfl

theorem Act.deletors (h : Act T c d) : d.keepaliveDeletors = c.keepaliveDeletors := by
  cases h with
  | quiet h =>
    simp only [EtcdState.watched, EtcdState.tracked, Prod.mk.injEq] at h
    exact h.2.1
  | _ => rfl

theorem Acts.deletors (h : Acts T c d) : d.keepaliveDeletors = c.keepaliveDeletors :=
  h.keeps (I := fun d => d.keepaliveDeletors = c.keepaliveDeletors) (fun hact hc => hact.deletors.trans hc) rfl

theorem Moves.deletors (h : Moves c d) : d.keepaliveDeletors = c.keepaliveDeletors :=
  h.keeps (I := fun d => d.keepaliveDeletors = c.keepaliveDeletors) (fun hmove hc => by
    cases hmove with
    | acts h => exact h.deletors.trans hc
    | running => exact hc
    | lease v => exact hc
    | forget => exact hc) rfl

theorem Acts.owed (h : Acts T c d) : Owed p N d ↔ Owed p N c := by
  unfold Owed Waits
  rw [h.deletors, h.asked]

theorem Moves.owed (h : Moves c d) : Owed p N d ↔ Owed p N c :=
  h.keeps (I := fun d => Owed p N d ↔ Owed p N c) (fun hmove hc => by
    cases hmove with
    | acts h => exact h.owed.trans hc
    | running => exact (owed_of_eq rfl rfl).trans hc
    | lease v => exact (owed_of_eq rfl rfl).trans hc
    | forget => exact (owed_of_eq rfl rfl).trans hc) Iff.rfl

/-- the deletors of other paths -/
theorem owed_other {q : Bytes} (hq : q ≠ p) (hd : d.keepaliveDeletors = c.otherDeletors q) (hs : d.sent = c.sent) :
    Owed p N d ↔ Owed p N c := by
  unfold Owed Waits Asked
  rw [hd, hs]
  refine or_congr ⟨fun ⟨x, hx, hp⟩ => ⟨x, (List.mem_filter.1 hx).1, hp⟩, fun ⟨x, hx, hp⟩ => ⟨x, List.mem_filter.2 ⟨hx, ?_⟩, hp⟩⟩ Iff.rfl
  rw [hp]
  exact decide_eq_true hq.symm

/-- a deletor of another path waits -/
theorem owed_wait {x : Deletor} (hx : x.path ≠ p) (hd : d.keepaliveDeletors = c.otherDeletors x.path ++ [x])
    (hs : d.sent = c.sent) : Owed p N d ↔ Owed p N c := by
  refine Iff.trans (b := Owed p N { c with keepaliveDeletors := c.otherDeletors x.path }) ?_ (owed_other hx rfl rfl)
  unfold Owed Waits Asked
  rw [hd, hs]
  refine or_congr ⟨fun ⟨y, hy, hp⟩ => ?_, fun ⟨y, hy, hp⟩ => ⟨y, List.mem_append_left _ hy, hp⟩⟩ Iff.rfl
  rcases List.mem_append.1 hy with hy | hy
  · exact ⟨y, hy, hp⟩
  · exact absurd (List.mem_singleton.1 hy ▸ hp) hx

/-- a deletor of another path -/
theorem owed_removeKeepalivePath {x : Deletor} (hx : x.path ≠ p) (delay : Bool) (c : EtcdState) :
    Owed p N (removeKeepalivePath e x delay c) ↔ Owed p N c := by
  cases delay with
  | true => exact owed_wait hx rfl rfl
  | false =>
    rcases removeKeepalivePath_cases (e := e) x c with ⟨-, h⟩ | ⟨n, m, h⟩ | ⟨n, h⟩ <;> rw [h]
    · exact owed_other hx rfl rfl
    · exact owed_wait (x := ⟨x.path, x.retryTimes + 1⟩) hx rfl rfl
    · have hask : ¬ (Ask.delete (packKeyRange x.path plusOne)).Deletes p := fun hdel => hx (deletes_iff.1 hdel)
      have hsent := asked_send (c := c) (N := N) (s := ⟨c.conf.pathNode, .delete (packKeyRange x.path plusOne), .deletor⟩) hask
        (c.starts + 1)
      have howed : Owed p N { c with starts := c.starts + 1,
                                     sent := c.sent ++ [⟨c.conf.pathNode, .delete (packKeyRange x.path plusOne), .deletor⟩] } ↔
          Owed p N c := or_congr Iff.rfl hsent
      refine Iff.trans ?_ howed
      exact owed_other hx rfl rfl

/-- a deletor of the path waits, or sends its request -/
theorem owed_tried {x : Deletor} (hx : x.path = p) (htimes : x.retryTimes < maxDeleteTimes) (hN : N ≤ c.sent.length) :
    Owed p N (removeKeepalivePath e x false c) := by
  rcases removeKeepalivePath_cases (e := e) x c with ⟨hmax, -⟩ | ⟨n, m, h⟩ | ⟨n, h⟩
  · exact absurd htimes (Nat.not_lt.2 hmax)
  · rw [h]
    exact .inl ⟨⟨x.path, x.retryTimes + 1⟩, List.mem_append_right _ (List.mem_singleton_self _), hx⟩
  · rw [h]
    exact .inr ⟨c.sent.length, _, hN, List.getElem?_concat_length, hx ▸ rfl⟩

theorem retryDeletors_eq (c : EtcdState) : retryDeletors e c =
    c.keepaliveDeletors.foldl (fun c d => removeKeepalivePath e d false c) { c with keepaliveDeletors := [] } := rfl

/-- one look at the deletors, the path's among them or not -/
theorem owed_foldl {ds : List Deletor} (h : Owed p N c ∨ ∃ x ∈ ds, x.path = p)
    (htimes : ∀ x ∈ ds, x.path = p → x.retryTimes < maxDeleteTimes) (hN : N ≤ c.sent.length) :
    Owed p N (ds.foldl (fun c d => removeKeepalivePath e d false c) c) := by
  induction ds generalizing c with
  | nil => exact h.resolve_right fun ⟨x, hx, _⟩ => List.not_mem_nil hx
  | cons x ds ih =>
    refine ih ?_ (fun y hy => htimes y (List.mem_cons_of_mem x hy)) (hN.trans (sent_removeKeepalivePath x false c).length_le)
    by_cases hx : x.path = p
    · exact .inl (owed_tried hx (htimes x List.mem_cons_self hx) hN)
    · refine h.imp (owed_removeKeepalivePath hx false c).2 fun ⟨y, hy, hp⟩ => ⟨y, ?_, hp⟩
      exact (List.mem_cons.1 hy).resolve_left fun hyx => hx (hyx ▸ hp)

/-- one look at the deletors of other paths -/
theorem not_owed_foldl {ds : List Deletor} (hds : ∀ x ∈ ds, x.path ≠ p) (h : ¬ Owed p N c) :
    ¬ Owed p N (ds.foldl (fun c d => removeKeepalivePath e d false c) c) := by
  induction ds generalizing c with
  | nil => exact h
  | cons x ds ih =>
    refine ih (fun y hy => hds y (List.mem_cons_of_mem x hy)) fun h' => h ?_
    exact (owed_removeKeepalivePath (hds x List.mem_cons_self) false c).1 h'

theorem owed_retryDeletors (h : Owed p N c) (htimes : ∀ x ∈ c.keepaliveDeletors, x.path = p → x.retryTimes < maxDeleteTimes)
    (hN : N ≤ c.sent.length) : Owed p N (retryDeletors e c) := by
  rw [retryDeletors_eq]
  exact owed_foldl (h.elim .inr fun hsent => .inl (.inr hsent)) htimes hN

theorem not_owed_retryDeletors (h : ¬ Owed p N c) : ¬ Owed p N (retryDeletors e c) := by
  rw [retryDeletors_eq]
  refine not_owed_foldl (fun x hx hp => h (.inl ⟨x, hx, hp⟩)) fun h' => ?_
  exact h'.elim (fun ⟨_, hx, _⟩ => List.not_mem_nil hx) fun hsent => h (.inr hsent)

/-- no deletor of the path that waits has been tried so often that the next try drops it -/
def Trying (c : Cluster) (p : Bytes) : Prop := ∀ x ∈ c.keepaliveDeletors, x.path = p → x.retryTimes < maxDeleteTimes

instance (c : Cluster) (p : Bytes) : Decidable (Trying c p) :=
  inferInstanceAs (Decidable (∀ x ∈ c.keepaliveDeletors, x.path = p → x.retryTimes < maxDeleteTimes))

theorem Round.owed (h : Round e c d) (htimes : Trying c.toCluster p) (hN : N ≤ c.sent.length) (howed : Owed p N c) : Owed p N d := by
  obtain ⟨b, hmoves, hd | hd⟩ := h.moves
  · exact hd.owed.2 (hmoves.owed.2 howed)
  · refine hd.owed.2 (owed_retryDeletors (hmoves.owed.2 howed) ?_ (hN.trans hmoves.sent.length_le))
    rw [hmoves.deletors]
    exact htimes

theorem Round.not_owed (h : Round e c d) (hnot : ¬ Owed p N c) : ¬ Owed p N d := by
  obtain ⟨b, hmoves, hd | hd⟩ := h.moves
  · exact fun hd' => hnot (hmoves.owed.1 (hd.owed.1 hd'))
  · exact fun hd' => not_owed_retryDeletors (fun hb => hnot (hmoves.owed.1 hb)) (hd.owed.1 hd')

/-- an event that takes no deletor of the path away -/
def EtcdEvent.KeepsDeletors (path : ℕ → Bytes) (p : Bytes) : EtcdEvent → Prop
  | .addKeepalive k => path k ≠ p
  | .close => False
  | _ => True

/-- **An owed delete** stays owed. -/
theorem Did.owed {ev : EtcdEvent} (h : Did e c ev d) (hb : Base path c) (hev : ev.KeepsDeletors path p)
    (htimes : Trying c.toCluster p) (hN : N ≤ c.sent.length) (howed : Owed p N c) : Owed p N d := by
  cases h with
  | quiet ev h => exact h.owed.2 howed
  | tick h => exact h.owed htimes hN howed
  | @add k c₁ d hnew hlease h =>
    have hk : (c₁.keep k).path ≠ p := by
      rw [(hlease.base hb).paths]
      exact hev
    have hlist : Owed p N (c₁.enlist k) ↔ Owed p N c₁ := owed_other hk rfl rfl
    exact h.owed.2 (hlist.2 (hlease.owed.2 howed))
  | @remove k hfound hdata =>
    refine (owed_setKeep _ _).2 ?_
    have hdelist : Owed p N (c.delist k) := (owed_of_eq rfl rfl).2 howed
    by_cases hp : (c.keep k).path = p
    · exact owed_tried hp (Nat.succ_pos 7) hN
    · exact (owed_removeKeepalivePath (x := ⟨(c.keep k).path, 0⟩) hp false _).2 hdelist
  | drop hfound hdata => exact (owed_of_eq rfl rfl).2 howed
  | setChecker k fn => exact (owed_of_eq rfl rfl).2 howed
  | setValue hvalue h hidle => exact h.owed.2 ((owed_of_eq rfl rfl).2 howed)
  | checkFailed hs hrpc htarget hask h => exact h.owed.2 ((owed_of_eq rfl rfl).2 howed)
  | checked hs hrpc htarget hask hr hfound h => exact h.owed.2 ((owed_of_eq rfl rfl).2 howed)
  | putFailed hs hrpc htarget hask hr h => exact h.owed.2 ((owed_of_eq rfl rfl).2 howed)
  | acked hs hrpc htarget hask hr h => exact h.owed.2 ((owed_of_eq rfl rfl).2 howed)
  | deleted hp => exact (owed_of_eq rfl rfl).2 howed
  | @deleteFailed id r x c₁ hx hr h =>
    by_cases hp : x.2.path = p
    · exact .inl ⟨x.2, List.mem_append_right _ (List.mem_singleton_self _), hp⟩
    · exact (owed_removeKeepalivePath hp true c₁).2 (h.owed.2 ((owed_of_eq rfl rfl).2 howed))
  | answer h => exact h.owed htimes hN howed
  | close h => exact hev.elim

/-- a removal keeps what is owed, and owes the delete of a keepalive with data -/
theorem owed_removeKeepalive {k : ℕ} (hN : N ≤ c.sent.length)
    (h : Owed p N c ∨ (k ∈ c.keepaliveActors ∨ k ∈ c.keepaliveRetryActors) ∧ (c.keep k).hasData = true ∧ (c.keep k).path = p) :
    Owed p N (removeKeepalive e k c) := by
  unfold removeKeepalive
  simp only
  split_ifs with hfound hdata
  · refine (owed_setKeep _ _).2 ?_
    by_cases hp : (c.keep k).path = p
    · exact owed_tried (c := c.delist k) hp (Nat.succ_pos 7) hN
    · have hdelist : Owed p N (c.delist k) := (owed_of_eq rfl rfl).2 (h.resolve_right fun h => hp h.2.2)
      exact (owed_removeKeepalivePath (x := ⟨(c.keep k).path, 0⟩) hp false _).2 hdelist
  · exact (owed_of_eq rfl rfl).2 (h.resolve_right fun h => hdata h.2.1)
  · exact h.resolve_right fun h => hfound h.1

/-- an event that is no removal of a keepalive of the path, and no failure of a delete of it -/
def EtcdEvent.AsksNoDelete (path : ℕ → Bytes) (p : Bytes) (c : EtcdState) : EtcdEvent → Prop
  | .removeKeepalive k => path k = p → k ∉ c.keepaliveActors ∧ k ∉ c.keepaliveRetryActors
  | .complete id r => r.failsDelete → ∀ x ∈ c.deletorRpcs, x.1 = id → x.2.path ≠ p
  | _ => True

/-- **A delete that is not owed** does not become so. -/
theorem Did.not_owed {ev : EtcdEvent} (h : Did e c ev d) (hb : Base path c) (hev : ev.AsksNoDelete path p c)
    (hnot : ¬ Owed p N c) : ¬ Owed p N d := by
  cases h with
  | quiet ev h => exact fun hd => hnot (h.owed.1 hd)
  | tick h => exact h.not_owed hnot
  | @add k c₁ d hnew hlease h =>
    intro hd
    refine hnot (hlease.owed.1 ((h.owed.1 hd).imp (fun ⟨x, hx, hp⟩ => ⟨x, (List.mem_filter.1 hx).1, hp⟩) fun hsent => hsent))
  | @remove k hfound hdata =>
    have hp : (c.keep k).path ≠ p := fun hp => hfound.elim (hev (hb.paths k ▸ hp)).1 (hev (hb.paths k ▸ hp)).2
    intro hd
    have hdelist := (owed_removeKeepalivePath (x := ⟨(c.keep k).path, 0⟩) hp false _).1 ((owed_setKeep _ _).1 hd)
    exact hnot ((owed_of_eq rfl rfl).1 hdelist)
  | drop hfound hdata => exact fun hd => hnot ((owed_of_eq rfl rfl).1 hd)
  | setChecker k fn => exact fun hd => hnot ((owed_of_eq rfl rfl).1 hd)
  | setValue hvalue h hidle => exact fun hd => hnot ((owed_of_eq rfl rfl).1 (h.owed.1 hd))
  | checkFailed hs hrpc htarget hask h => exact fun hd => hnot ((owed_of_eq rfl rfl).1 (h.owed.1 hd))
  | checked hs hrpc htarget hask hr hfound h => exact fun hd => hnot ((owed_of_eq rfl rfl).1 (h.owed.1 hd))
  | putFailed hs hrpc htarget hask hr h => exact fun hd => hnot ((owed_of_eq rfl rfl).1 (h.owed.1 hd))
  | acked hs hrpc htarget hask hr h => exact fun hd => hnot ((owed_of_eq rfl rfl).1 (h.owed.1 hd))
  | deleted hp => exact fun hd => hnot ((owed_of_eq rfl rfl).1 hd)
  | @deleteFailed id r x c₁ hx hr h =>
    have hid := List.find?_some (p := fun p : ℕ × Deletor => decide (p.1 = id)) hx
    have hp : x.2.path ≠ p := hev hr x (List.mem_of_find?_eq_some hx) (of_decide_eq_true hid)
    exact fun hd => hnot ((owed_of_eq rfl rfl).1 (h.owed.1 ((owed_removeKeepalivePath hp true c₁).1 hd)))
  | answer h => exact h.not_owed hnot
  | @close d h =>
    intro hd
    exact hnot ((h.moves.owed.1 hd).imp (fun ⟨x, hx, _⟩ => absurd hx List.not_mem_nil) fun hsent => hsent)

end AtFrame.Etcd
