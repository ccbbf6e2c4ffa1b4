/-
Taking turns: a list whose front is served and goes to the end.

- `turn_iterate`: turning the list as long as its front does not fit brings the first that fits to the front;
- `turns_add`: turns behind turns;
- `turns_window`: as many turns in a row as the list is long serve all of the list in its cyclic order.
-/
import Mathlib.Data.List.Rotate

namespace AtFrame.Lib

variable {α : Type*} {fits : α → Bool} {l : List α} {m n : ℕ}

theorem rotate_one (a : α) (rest : List α) : (a :: rest).rotate 1 = rest ++ [a] := by
  rw [List.rotate_cons_succ, List.rotate_zero]

/-! ## The first that fits -/

/-- the front goes to the end unless it fits -/
def turn (fits : α → Bool) : List α → List α
  | [] => []
  | a :: rest => if fits a then a :: rest else (a :: rest).rotate 1

/-- turned or not, the list is a rotation of itself -/
theorem turn_iterate_rotate (fits : α → Bool) (n : ℕ) (l : List α) : ∃ k, (turn fits)^[n] l = l.rotate k := by
  induction n generalizing l with
  | zero => exact ⟨0, l.rotate_zero.symm⟩
  | succ n ih =>
    rw [Function.iterate_succ_apply]
    obtain ⟨k, hk⟩ := ih (turn fits l)
    rw [hk]
    cases l with
    | nil => exact ⟨k, rfl⟩
    | cons a rest =>
      simp only [turn]
      split_ifs
      · exact ⟨k, rfl⟩
      · exact ⟨1 + k, List.rotate_rotate _ _ _⟩

/-- **The first that fits** comes to the front, and those before it go to the end. -/
theorem turn_iterate {pre post : List α} {a : α} (hpre : ∀ b ∈ pre, fits b = false) (ha : fits a = true)
    (hn : pre.length ≤ n) : (turn fits)^[n] (pre ++ a :: post) = a :: (post ++ pre) := by
  induction pre generalizing n post with
  | nil =>
    have hstay : turn fits (a :: post) = a :: post := if_pos ha
    rw [List.nil_append, List.append_nil, Function.iterate_fixed hstay]
  | cons b pre ih =>
    cases n with
    | zero => exact absurd hn (Nat.not_succ_le_zero _)
    | succ n =>
      have hb : ¬ fits b = true := Bool.eq_false_iff.1 (hpre b List.mem_cons_self)
      have hturn : turn fits (b :: pre ++ a :: post) = pre ++ a :: (post ++ [b]) := by
        rw [List.cons_append, turn, if_neg hb, rotate_one, List.append_assoc, List.cons_append]
      rw [Function.iterate_succ_apply, hturn, ih (fun c hc => hpre c (List.mem_cons_of_mem b hc)) (Nat.le_of_succ_le_succ hn),
        List.append_assoc, List.singleton_append]

/-! ## Turns -/

/-- what is served in so many turns -/
def turns : ℕ → List α → List α
  | 0, _ => []
  | _ + 1, [] => []
  | n + 1, a :: rest => a :: turns n (rest ++ [a])

theorem turns_nil (n : ℕ) : turns n ([] : List α) = [] := by
  cases n <;> rfl

theorem turns_add (m n : ℕ) (l : List α) : turns (m + n) l = turns m l ++ turns n (l.rotate m) := by
  induction m generalizing l with
  | zero => rw [Nat.zero_add, List.rotate_zero, turns, List.nil_append]
  | succ m ih =>
    cases l with
    | nil => rw [List.rotate_nil, turns_nil, turns_nil, turns_nil, List.append_nil]
    | cons a rest =>
      have hrotate : (rest ++ [a]).rotate m = (a :: rest).rotate (m + 1) := (List.rotate_cons_succ rest a m).symm
      rw [Nat.add_right_comm, turns, turns, ih, hrotate, List.cons_append]

theorem length_turns (hl : l ≠ []) (n : ℕ) : (turns n l).length = n := by
  induction n generalizing l with
  | zero => rfl
  | succ n ih =>
    cases l with
    | nil => exact absurd rfl hl
    | cons a rest => rw [turns, List.length_cons, ih (List.append_ne_nil_of_right_ne_nil rest (List.cons_ne_nil a []))]

theorem turns_append (pre post : List α) : turns pre.length (pre ++ post) = pre := by
  induction pre generalizing post with
  | nil => rfl
  | cons a pre ih => rw [List.length_cons, List.cons_append, turns, List.append_assoc, ih]

theorem turns_length (l : List α) : turns l.length l = l := by
  have h := turns_append l []
  rwa [List.append_nil] at h

/-- **A round**: as many turns in a row as the list is long serve all of it. -/
theorem turns_window {before window after : List α} (h : turns n l = before ++ window ++ after)
    (hlen : window.length = l.length) : window = l.rotate before.length := by
  by_cases hl : l = []
  · subst hl
    rw [List.rotate_nil]
    exact List.length_eq_zero_iff.1 hlen
  · have hn : n = before.length + window.length + after.length := by
      rw [← length_turns hl n, h, List.length_append, List.length_append]
    have hrotated : l.rotate before.length ≠ [] := fun hnil => hl (List.rotate_eq_nil_iff.1 hnil)
    rw [hn, turns_add, turns_add] at h
    have hfront := (List.append_inj h (by rw [List.length_append, List.length_append, length_turns hl,
      length_turns hrotated])).1
    have hwindow := (List.append_inj hfront (length_turns hl _)).2
    rw [← hwindow, hlen, ← List.length_rotate l before.length, turns_length]

/-- in a round each of different elements is served once -/
theorem count_window [DecidableEq α] (hl : l.Nodup) {before window after : List α} (h : turns n l = before ++ window ++ after)
    (hlen : window.length = l.length) {a : α} (ha : a ∈ l) : window.count a = 1 := by
  rw [turns_window h hlen, (List.rotate_perm l _).count_eq, List.count_eq_one_of_mem hl ha]

end AtFrame.Lib
