/-
Lists of timers that are cleared from the front.

A loop that takes timers from the front as long as they are due leaves none that is due if the timers stand in the order of
their times. A timer that is added at the end keeps this order if none in the list is due later.
-/
import Mathlib.Tactic

namespace AtFrame.Lib

variable {τ α : Type*} [LinearOrder τ] {l l' : List (τ × α)} {t : τ × α} {now due : τ}

/-- the timers stand in the order in which they are due -/
def InOrder (l : List (τ × α)) : Prop := l.Pairwise fun a b => a.1 ≤ b.1

theorem InOrder.sublist (h : InOrder l) (hl : l'.Sublist l) : InOrder l' := List.Pairwise.sublist hl h

/-- timers for one time are added -/
theorem InOrder.append (h : InOrder l) (hold : l' ≠ [] → ∀ t ∈ l, t.1 ≤ due) (hnew : ∀ t ∈ l', t.1 = due) :
    InOrder (l ++ l') := by
  refine List.pairwise_append.2 ⟨h, ?_, ?_⟩
  · refine List.pairwise_iff_forall_sublist.2 fun {a b} hab => ?_
    have ha : a.1 = due := hnew a (hab.subset List.mem_cons_self)
    have hb : b.1 = due := hnew b (hab.subset (List.mem_cons_of_mem a List.mem_cons_self))
    exact (ha.trans hb.symm).le
  · intro a ha b hb
    rw [hnew b hb]
    exact hold (List.ne_nil_of_mem hb) a ha

/-- no timer that is due is left -/
theorem InOrder.lt_of_mem_dropWhile (h : InOrder l) (ht : t ∈ l.dropWhile (·.1 ≤ now)) : now < t.1 := by
  induction l with
  | nil => exact nomatch ht
  | cons a l ih =>
    obtain ⟨hfirst, hrest⟩ := List.pairwise_cons.1 h
    rw [List.dropWhile_cons] at ht
    split_ifs at ht with hdue
    · exact ih hrest ht
    · have hlater : now < a.1 := by simpa using hdue
      rcases List.mem_cons.1 ht with rfl | ht
      · exact hlater
      · exact hlater.trans_le (hfirst t ht)

theorem InOrder.mem_takeWhile (h : InOrder l) (ht : t ∈ l) (hdue : t.1 ≤ now) : t ∈ l.takeWhile (·.1 ≤ now) := by
  rw [← List.takeWhile_append_dropWhile (p := fun t => decide (t.1 ≤ now)) (l := l)] at ht
  rcases List.mem_append.1 ht with ht | ht
  · exact ht
  · exact absurd hdue (h.lt_of_mem_dropWhile ht).not_ge

end AtFrame.Lib
