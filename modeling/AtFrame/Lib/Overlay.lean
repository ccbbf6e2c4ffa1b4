/-
A table written over by a list of changes, each for one key; the last change of a key counts.

- `overlay_append`: two lists are as good as one;
- `overlay_other`: a key that no change is for;
- `overlay_eq_of_mem`: a key that some change is for does not show what the table held before;
- `overlay_filter`: changes of other keys may be left out.
-/
import Mathlib.Tactic

namespace AtFrame.Lib

variable {α κ β : Type*} [DecidableEq κ] (key : α → κ) (val : α → Option β)

/-- the table behind the changes; `none` is no entry -/
def overlay (s : κ → Option β) (l : List α) : κ → Option β := l.foldl (fun s a => Function.update s (key a) (val a)) s

variable {key val} {s t : κ → Option β} {k : κ} {l l' : List α}

theorem overlay_append (s : κ → Option β) (l l' : List α) :
    overlay key val s (l ++ l') = overlay key val (overlay key val s l) l' := List.foldl_append

theorem overlay_concat (s : κ → Option β) (l : List α) (a : α) :
    overlay key val s (l ++ [a]) = Function.update (overlay key val s l) (key a) (val a) := overlay_append s l [a]

theorem overlay_other (h : ∀ a ∈ l, key a ≠ k) : overlay key val s l k = s k := by
  induction l using List.reverseRecOn with
  | nil => rfl
  | append_singleton l a ih =>
    rw [overlay_concat, Function.update_of_ne (h a (List.mem_append_right _ (List.mem_singleton_self a))).symm]
    exact ih fun b hb => h b (List.mem_append_left _ hb)

/-- what the table holds of a key depends on what it held of this key only -/
theorem overlay_congr (h : s k = t k) (l : List α) : overlay key val s l k = overlay key val t l k := by
  induction l using List.reverseRecOn with
  | nil => exact h
  | append_singleton l a ih =>
    rw [overlay_concat, overlay_concat]
    by_cases hk : k = key a
    · rw [hk, Function.update_self, Function.update_self]
    · rw [Function.update_of_ne hk, Function.update_of_ne hk, ih]

theorem overlay_eq_of_mem {a : α} (ha : a ∈ l) (s t : κ → Option β) :
    overlay key val s l (key a) = overlay key val t l (key a) := by
  induction l using List.reverseRecOn with
  | nil => exact absurd ha List.not_mem_nil
  | append_singleton l b ih =>
    rw [overlay_concat, overlay_concat]
    by_cases hk : key a = key b
    · rw [hk, Function.update_self, Function.update_self]
    · rw [Function.update_of_ne hk, Function.update_of_ne hk]
      rcases List.mem_append.1 ha with ha | ha
      · exact ih ha
      · exact absurd (congrArg key (List.mem_singleton.1 ha)) hk

/-- some change of the key is the one that counts -/
theorem overlay_of_mem {a : α} (ha : a ∈ l) (s : κ → Option β) :
    ∃ b ∈ l, key b = key a ∧ overlay key val s l (key a) = val b := by
  induction l using List.reverseRecOn with
  | nil => exact absurd ha List.not_mem_nil
  | append_singleton l b ih =>
    rw [overlay_concat]
    by_cases hk : key a = key b
    · exact ⟨b, List.mem_append_right _ (List.mem_singleton_self b), hk.symm, by rw [hk, Function.update_self]⟩
    · rw [Function.update_of_ne hk]
      rcases List.mem_append.1 ha with ha | ha
      · obtain ⟨c, hc, heq⟩ := ih ha
        exact ⟨c, List.mem_append_left _ hc, heq⟩
      · exact absurd (congrArg key (List.mem_singleton.1 ha)) hk

theorem overlay_filter {P : α → Bool} (h : ∀ a ∈ l, key a = k → P a = true) (s : κ → Option β) :
    overlay key val s (l.filter P) k = overlay key val s l k := by
  induction l using List.reverseRecOn with
  | nil => rfl
  | append_singleton l a ih =>
    have hl := ih fun b hb => h b (List.mem_append_left _ hb)
    rw [List.filter_append, overlay_concat]
    by_cases hk : k = key a
    · have ha := h a (List.mem_append_right _ (List.mem_singleton_self a)) hk.symm
      rw [List.filter_cons_of_pos ha, List.filter_nil, overlay_concat, hk, Function.update_self, Function.update_self]
    · rw [Function.update_of_ne hk, ← hl, overlay_append, overlay_other]
      intro b hb
      rw [List.mem_singleton.1 (List.mem_of_mem_filter hb)]
      exact Ne.symm hk

/-- an entry was written by some change, or was there before -/
theorem overlay_mem {b : β} (h : overlay key val s l k = some b) : s k = some b ∨ ∃ a ∈ l, key a = k ∧ val a = some b := by
  induction l using List.reverseRecOn with
  | nil => exact .inl h
  | append_singleton l a ih =>
    rw [overlay_concat] at h
    by_cases hk : k = key a
    · subst hk
      rw [Function.update_self] at h
      exact .inr ⟨a, List.mem_append_right _ (List.mem_singleton_self a), rfl, h⟩
    · rw [Function.update_of_ne hk] at h
      exact (ih h).imp_right fun ⟨a', ha', heq⟩ => ⟨a', List.mem_append_left _ ha', heq⟩

end AtFrame.Lib
