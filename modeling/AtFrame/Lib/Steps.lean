/-
Runs of a step function whose steps meet a condition.

- `Meets.invariant`: what each step that meets the condition keeps holds behind the run;
- `meets_append`: a run in two parts.
-/
import Mathlib.Tactic

namespace AtFrame.Lib

variable {σ ε : Type*} {f : σ → ε → σ} {C D : σ → ε → Prop} {I : σ → Prop} {s : σ} {evs : List ε}

/-- each step of the run from `s` meets `C`, in the state before it -/
def Meets (f : σ → ε → σ) (C : σ → ε → Prop) : σ → List ε → Prop
  | _, [] => True
  | s, ev :: evs => C s ev ∧ Meets f C (f s ev) evs

instance instDecidableMeets [∀ s ev, Decidable (C s ev)] : ∀ (s : σ) (evs : List ε), Decidable (Meets f C s evs)
  | _, [] => .isTrue trivial
  | s, ev :: evs =>
    have := instDecidableMeets (f s ev) evs
    inferInstanceAs (Decidable (C s ev ∧ Meets f C (f s ev) evs))

theorem meets_append (s : σ) (as bs : List ε) : Meets f C s (as ++ bs) ↔ Meets f C s as ∧ Meets f C (as.foldl f s) bs := by
  induction as generalizing s with
  | nil => exact ⟨fun h => ⟨trivial, h⟩, fun h => h.2⟩
  | cons a as ih =>
    simp only [List.cons_append, Meets, ih, List.foldl_cons, and_assoc]

theorem Meets.and (hC : Meets f C s evs) (hD : Meets f D s evs) : Meets f (fun s ev => C s ev ∧ D s ev) s evs := by
  induction evs generalizing s with
  | nil => exact trivial
  | cons ev evs ih => exact ⟨⟨hC.1, hD.1⟩, ih hC.2 hD.2⟩

theorem Meets.mono (h : Meets f C s evs) (hCD : ∀ s ev, C s ev → D s ev) : Meets f D s evs := by
  induction evs generalizing s with
  | nil => exact trivial
  | cons ev evs ih => exact ⟨hCD s ev h.1, ih h.2⟩

/-- **An invariant** of the steps that meet the condition. -/
theorem Meets.invariant (h : Meets f C s evs) (hI : ∀ s ev, I s → C s ev → I (f s ev)) (hs : I s) : I (evs.foldl f s) := by
  induction evs generalizing s with
  | nil => exact hs
  | cons ev evs ih => exact ih h.2 (hI s ev hs h.1)

end AtFrame.Lib
