/-
Taking elements out of a vector by swapping them with the last one.

A loop that goes on behind the element it has swapped in never looks at this element (`sweep`).

- `set_last_dropLast`, `set_last_dropLast_perm`: one swap;
- `count_sweep`: the loop takes out nothing else;
- `not_mem_sweep_iff`: it takes out all exactly if none of them is among the last, one fewer than there are in all.
-/
import Mathlib.Tactic

namespace AtFrame.Lib

variable {α : Type*} {x y : α} {l : List α}

/-! ## One swap -/

/-- the last element takes the place of the one that is taken out, and nothing does if it is the last itself -/
theorem set_last_dropLast (x : α) (as bs : List α) :
    ((as ++ x :: bs).set as.length ((as ++ x :: bs).getLast?.getD x)).dropLast =
      as ++ match bs.getLast? with
        | none => []
        | some b => b :: bs.dropLast := by
  have hset : ∀ a, (as ++ x :: bs).set as.length a = as ++ a :: bs := fun a => by
    rw [List.set_append_right _ _ le_rfl, Nat.sub_self, List.set_cons_zero]
  rw [hset]
  rcases List.eq_nil_or_concat' bs with rfl | ⟨bs, b, rfl⟩
  · rw [List.dropLast_concat, List.getLast?_nil, List.append_nil]
  · have hlast : (as ++ x :: (bs ++ [b])).getLast? = some b := by
      rw [← List.cons_append, ← List.append_assoc, List.getLast?_concat]
    rw [hlast, Option.getD_some, List.getLast?_concat, ← List.cons_append, ← List.append_assoc, List.dropLast_concat,
      List.dropLast_concat]

theorem set_last_dropLast_perm (x : α) (as bs : List α) :
    (((as ++ x :: bs).set as.length ((as ++ x :: bs).getLast?.getD x)).dropLast).Perm (as ++ bs) := by
  rw [set_last_dropLast]
  rcases List.eq_nil_or_concat' bs with rfl | ⟨bs, b, rfl⟩
  · rfl
  · rw [List.getLast?_concat, List.dropLast_concat]
    exact (List.perm_append_singleton b bs).symm.append_left as

/-! ## The loop -/

variable [DecidableEq α]

/-- what the loop leaves -/
def sweep (x : α) : List α → List α
  | [] => []
  | a :: rest =>
    if a ≠ x then a :: sweep x rest
    else
      match rest.getLast? with
      | none => []
      | some b => b :: sweep x rest.dropLast
termination_by l => l.length
decreasing_by
  · exact Nat.lt_succ_self _
  · exact Nat.lt_succ_of_le (by rw [List.length_dropLast]; exact Nat.sub_le _ _)

theorem sweep_nil : sweep x [] = [] := by
  unfold sweep
  rfl

theorem sweep_ne {a : α} (ha : a ≠ x) (rest : List α) : sweep x (a :: rest) = a :: sweep x rest := by
  rw [sweep, if_pos ha]

theorem sweep_last : sweep x [x] = [] := by
  rw [sweep, if_neg (not_not.2 rfl)]
  rfl

theorem sweep_swap (rest : List α) (b : α) : sweep x (x :: (rest ++ [b])) = b :: sweep x rest := by
  rw [sweep, if_neg (not_not.2 rfl)]
  simp only [List.getLast?_concat, List.dropLast_concat]

/-- the cases of the loop -/
theorem sweep_induct {P : List α → Prop} (x : α) (nil : P []) (keep : ∀ a rest, a ≠ x → P rest → P (a :: rest)) (last : P [x])
    (swap : ∀ rest b, P rest → P (x :: (rest ++ [b]))) (l : List α) : P l := by
  induction hn : l.length using Nat.strong_induction_on generalizing l with
  | _ n ih =>
    subst hn
    cases l with
    | nil => exact nil
    | cons a rest =>
      by_cases ha : a = x
      · subst ha
        rcases List.eq_nil_or_concat' rest with rfl | ⟨rest, b, rfl⟩
        · exact last
        · refine swap rest b (ih rest.length ?_ rest rfl)
          rw [List.length_cons, List.length_append]
          omega
      · exact keep a rest ha (ih rest.length (Nat.lt_succ_self _) rest rfl)

theorem length_sweep_le (x : α) (l : List α) : (sweep x l).length ≤ l.length := by
  induction l using sweep_induct x with
  | nil => rw [sweep_nil]
  | keep a rest ha ih =>
    rw [sweep_ne ha]
    exact Nat.succ_le_succ ih
  | last =>
    rw [sweep_last]
    exact Nat.zero_le _
  | swap rest b ih =>
    rw [sweep_swap, List.length_cons, List.length_cons, List.length_append]
    omega

/-- **Nothing else** is taken out. -/
theorem count_sweep (hy : y ≠ x) (l : List α) : (sweep x l).count y = l.count y := by
  induction l using sweep_induct x with
  | nil => rw [sweep_nil]
  | keep a rest ha ih => rw [sweep_ne ha, List.count_cons, List.count_cons, ih]
  | last => rw [sweep_last, List.count_nil, List.count_singleton, if_neg (by simpa using Ne.symm hy)]
  | swap rest b ih =>
    rw [sweep_swap, List.count_cons, ih, List.count_cons_of_ne (Ne.symm hy), List.count_append, List.count_singleton]

theorem sweep_of_not_mem (hx : x ∉ l) : sweep x l = l := by
  induction l with
  | nil => exact sweep_nil
  | cons a rest ih =>
    rw [List.mem_cons, not_or] at hx
    rw [sweep_ne (Ne.symm hx.1), ih hx.2]

theorem sweep_eq_self_iff : sweep x l = l ↔ x ∉ l := by
  refine ⟨?_, sweep_of_not_mem⟩
  induction l using sweep_induct x with
  | nil => exact fun _ => List.not_mem_nil
  | keep a rest ha ih =>
    intro h
    rw [sweep_ne ha, List.cons.injEq] at h
    rw [List.mem_cons, not_or]
    exact ⟨Ne.symm ha, ih h.2⟩
  | last =>
    intro h
    rw [sweep_last] at h
    exact nomatch h
  | swap rest b ih =>
    intro h
    have hlen := congrArg List.length h
    rw [sweep_swap, List.length_cons, List.length_cons, List.length_append, List.length_singleton] at hlen
    have hle := length_sweep_le x rest
    omega

/-- **All are taken out** exactly if none is swapped in. -/
theorem not_mem_sweep_iff (x : α) (l : List α) : x ∉ sweep x l ↔ x ∉ l.drop (l.length - (l.count x - 1)) := by
  induction l using sweep_induct x with
  | nil => rw [sweep_nil, List.drop_nil]
  | keep a rest ha ih =>
    have hcount : rest.count x ≤ rest.length := List.count_le_length
    have hlen : (a :: rest).length - (rest.count x - 1) = rest.length - (rest.count x - 1) + 1 := by
      rw [List.length_cons]
      omega
    rw [sweep_ne ha, List.count_cons_of_ne ha, hlen, List.drop_succ_cons, ← ih, List.mem_cons, not_or]
    exact and_iff_right (Ne.symm ha)
  | last => simp [sweep_last]
  | swap rest b ih =>
    have hcount : rest.count x ≤ rest.length := List.count_le_length
    rw [sweep_swap, List.mem_cons, not_or, ih]
    by_cases hb : x = b
    · subst hb
      refine iff_of_false (fun h => h.1 rfl) fun h => h ?_
      have hlen : (x :: (rest ++ [x])).length - ((x :: (rest ++ [x])).count x - 1) = rest.length - rest.count x + 1 := by
        rw [List.count_cons_self, List.count_append, List.count_singleton_self, List.length_cons, List.length_append,
          List.length_singleton]
        omega
      rw [hlen, List.drop_succ_cons, List.drop_append_of_le_length (Nat.sub_le _ _)]
      exact List.mem_append_right _ (List.mem_singleton_self x)
    · have htail : (x :: (rest ++ [b])).count x - 1 = rest.count x := by
        rw [List.count_cons_self, List.count_append, List.count_singleton, if_neg (by simpa using Ne.symm hb)]
        omega
      rw [htail, List.length_cons, List.length_append, List.length_singleton, and_iff_right hb]
      by_cases hzero : rest.count x = 0
      · rw [hzero, List.drop_eq_nil_of_le (by simp), List.drop_eq_nil_of_le (by simp)]
      · have hlen : rest.length + 1 + 1 - rest.count x = rest.length - (rest.count x - 1) + 1 := by omega
        rw [hlen, List.drop_succ_cons, List.drop_append_of_le_length (Nat.sub_le _ _), List.mem_append, not_or,
          List.mem_singleton]
        exact (and_iff_left hb).symm

end AtFrame.Lib
