/-
Numbers written as digits, one a prefix of the other.

- `toDigits_prefix_iff`: the digits of `t` begin those of `m` exactly when `t` is what is left of `m` without some of its
  last digits.
-/
import Mathlib.Tactic

namespace AtFrame.Lib

variable {b : ℕ}

theorem toDigits_injective (hb : 1 < b) (hten : b ≤ 10) {t m : ℕ} (h : Nat.toDigits b t = Nat.toDigits b m) : t = m := by
  have hread := congrArg (fun ds => Nat.ofDigitChars b ds 0) h
  simpa only [Nat.ofDigitChars_toDigits hb hten] using hread

/-- dropping digits from the back leaves a prefix -/
theorem toDigits_div_prefix (hb : 1 < b) {m j : ℕ} (h : 0 < m / b ^ j) : Nat.toDigits b (m / b ^ j) <+: Nat.toDigits b m := by
  induction j generalizing m with
  | zero =>
    have hsame : m / b ^ 0 = m := by rw [Nat.pow_zero, Nat.div_one]
    exact hsame.symm ▸ List.prefix_rfl
  | succ j ih =>
    rw [Nat.pow_succ, Nat.mul_comm, ← Nat.div_div_eq_div_mul] at h ⊢
    have hle : b ≤ m := by
      refine Nat.not_lt.1 fun hlt => ?_
      rw [Nat.div_eq_of_lt hlt, Nat.zero_div] at h
      exact Nat.lt_irrefl 0 h
    rw [Nat.toDigits_of_base_le hb hle]
    exact (ih h).trans (List.prefix_append _ _)

/-- **Digits that begin others** belong to the same number or to one that lacks some of its last digits. -/
theorem toDigits_prefix_iff (hb : 1 < b) (hten : b ≤ 10) {t m : ℕ} :
    Nat.toDigits b t <+: Nat.toDigits b m ↔ t = m ∨ 0 < t ∧ ∃ j, 0 < j ∧ m / b ^ j = t := by
  constructor
  · intro h
    induction m using Nat.strongRecOn with
    | _ m ih =>
      rcases Nat.lt_or_ge m b with hlt | hle
      · rw [Nat.toDigits_of_lt_base hlt] at h
        have hlen := h.length_le
        have heq : Nat.toDigits b t = [m.digitChar] :=
          h.eq_of_length (Nat.le_antisymm hlen (Nat.length_toDigits_pos (b := b) (n := t)))
        exact .inl (toDigits_injective hb hten (heq.trans (Nat.toDigits_of_lt_base hlt).symm))
      · rw [Nat.toDigits_of_base_le hb hle, List.prefix_concat_iff, ← Nat.toDigits_of_base_le hb hle] at h
        rcases h with heq | h
        · exact .inl (toDigits_injective hb hten heq)
        · have hpos : 0 < m / b := Nat.div_pos hle (Nat.lt_trans Nat.zero_lt_one hb)
          have hless : m / b < m := Nat.div_lt_self (Nat.lt_of_lt_of_le (Nat.lt_trans Nat.zero_lt_one hb) hle) hb
          rcases ih (m / b) hless h with rfl | ⟨ht, j, -, hj⟩
          · exact .inr ⟨hpos, 1, Nat.zero_lt_one, by rw [Nat.pow_one]⟩
          · refine .inr ⟨ht, j + 1, Nat.succ_pos j, ?_⟩
            rw [Nat.pow_succ, Nat.mul_comm, ← Nat.div_div_eq_div_mul, hj]
  · rintro (rfl | ⟨ht, j, -, rfl⟩)
    · exact List.prefix_rfl
    · exact toDigits_div_prefix hb ht

/-- no number is itself without some of its last digits -/
theorem div_pow_ne (hb : 1 < b) {m j : ℕ} (hm : 0 < m) (hj : 0 < j) : m / b ^ j ≠ m :=
  Nat.ne_of_lt (Nat.div_lt_self hm (Nat.one_lt_pow (Nat.ne_of_gt hj) hb))

end AtFrame.Lib
