/-
Lists that only grow at their end, such as a history: what holds of each entry and the entries before it, or those behind it.

- `eachPast_snoc`, `EachPast.append`: the property is kept entry by entry;
- `eachSince_cons`, `EachSince.append`: the same for the entries behind.
-/
import Mathlib.Tactic

namespace AtFrame.Lib

variable {α : Type*} {J : List α → α → Prop} {K K' : α → List α → Prop} {l new : List α}

/-- each entry of the list has `J` with the entries before it -/
def EachPast (J : List α → α → Prop) (l : List α) : Prop := ∀ pre x post, l = pre ++ x :: post → J pre x

theorem eachPast_nil : EachPast J [] := fun _ _ _ h => absurd h.symm (List.append_ne_nil_of_right_ne_nil _ (List.cons_ne_nil _ _))

theorem eachPast_snoc {x : α} : EachPast J (l ++ [x]) ↔ EachPast J l ∧ J l x := by
  refine ⟨fun h => ⟨fun pre y post hl => h pre y (post ++ [x]) ?_, h l x [] rfl⟩, fun ⟨h, hx⟩ pre y post hl => ?_⟩
  · rw [hl, List.append_assoc, List.cons_append]
  · rcases List.eq_nil_or_concat post with rfl | ⟨post', z, rfl⟩
    · obtain ⟨rfl, hxy⟩ := List.append_inj' hl rfl
      exact (List.cons.inj hxy).1 ▸ hx
    · rw [List.concat_eq_append, ← List.cons_append, ← List.append_assoc] at hl
      exact h pre y post' (List.append_inj' hl rfl).1

theorem EachPast.append (h : EachPast J l) (hnew : ∀ x ∈ new, ∀ pre, J pre x) : EachPast J (l ++ new) := by
  induction new using List.reverseRecOn with
  | nil => rwa [List.append_nil]
  | append_singleton new x ih =>
    rw [← List.append_assoc, eachPast_snoc]
    exact ⟨ih fun y hy => hnew y (List.mem_append_left _ hy), hnew x (List.mem_append_right _ (List.mem_singleton_self x)) _⟩

theorem EachPast.mono {J' : List α → α → Prop} (h : EachPast J l) (hJ : ∀ pre x, J pre x → J' pre x) : EachPast J' l :=
  fun pre x post hl => hJ pre x (h pre x post hl)

/-- each entry of the list has `K` with the entries behind it -/
def EachSince (K : α → List α → Prop) (l : List α) : Prop := ∀ pre x post, l = pre ++ x :: post → K x post

theorem eachSince_nil : EachSince K [] := fun _ _ _ h => absurd h.symm (List.append_ne_nil_of_right_ne_nil _ (List.cons_ne_nil _ _))

theorem eachSince_cons {x : α} : EachSince K (x :: l) ↔ K x l ∧ EachSince K l := by
  refine ⟨fun h => ⟨h [] x l rfl, fun pre y post hl => h (x :: pre) y post (congrArg (x :: ·) hl)⟩, fun ⟨hx, h⟩ pre y post hl => ?_⟩
  cases pre with
  | nil =>
    obtain ⟨rfl, rfl⟩ := List.cons.inj hl
    exact hx
  | cons z pre => exact h pre y post (List.cons.inj hl).2

instance instDecidableEachSince [∀ x l, Decidable (K x l)] : ∀ l, Decidable (EachSince K l)
  | [] => .isTrue eachSince_nil
  | x :: l =>
    have := instDecidableEachSince l
    decidable_of_iff (K x l ∧ EachSince K l) eachSince_cons.symm

theorem EachSince.mono (h : EachSince K l) (hK : ∀ x ∈ l, ∀ post, K x post → K' x post) : EachSince K' l :=
  fun pre x post hl => hK x (hl ▸ List.mem_append_right _ List.mem_cons_self) post (h pre x post hl)

/-- the list grows: what held of the old entries has to hold behind the new ones -/
theorem EachSince.append (h : EachSince K l) (hold : ∀ x ∈ l, ∀ post, K x post → K' x (post ++ new)) (hnew : EachSince K' new) :
    EachSince K' (l ++ new) := by
  induction l with
  | nil => exact hnew
  | cons x l ih =>
    obtain ⟨hx, h⟩ := eachSince_cons.1 h
    exact eachSince_cons.2 ⟨hold x List.mem_cons_self l hx, ih h fun y hy => hold y (List.mem_cons_of_mem x hy)⟩

end AtFrame.Lib
