/-
Ranges of words that hold exactly the words with a given prefix.

Words are ordered letter by letter, a word behind its prefixes. The end of the range is made from the prefix: letters that
have no successor are dropped from its back, and the last letter that has one is replaced by it.

- `not_lt_and_lt_bump_iff`: a word lies between `key` and this end exactly when `key` is a prefix of it.
-/
import Mathlib.Data.List.Induction

namespace AtFrame.Lib

variable {α : Type}

/-- `top` is the largest letter, and `succ` gives every other letter the next one -/
structure Successor [LT α] (top : α) (succ : α → α) : Prop where
  not_top_lt : ∀ a, ¬ top < a
  lt_succ : ∀ {a}, a ≠ top → ∀ b, b < succ a ↔ ¬ a < b

/-- the end of the range, for a word that is read from its back -/
def bump [DecidableEq α] (top : α) (succ : α → α) : List α → List α
  | [] => []
  | c :: cs => if c = top then bump top succ cs else succ c :: cs

variable {top : α} {succ : α → α}

/-- what `bump` does to a word with a letter that has a successor -/
theorem exists_bump_reverse [DecidableEq α] (succ : α → α) {key : List α} (hkey : ∃ c ∈ key, c ≠ top) :
    ∃ p c ts, key = p ++ c :: ts ∧ c ≠ top ∧ (∀ t ∈ ts, t = top) ∧ (bump top succ key.reverse).reverse = p ++ [succ c] := by
  induction key using List.reverseRecOn with
  | nil => obtain ⟨c, hc, -⟩ := hkey; exact absurd hc List.not_mem_nil
  | append_singleton key c ih =>
    rw [List.reverse_append, List.reverse_singleton, List.singleton_append, bump]
    by_cases hc : c = top
    · have hrest : ∃ d ∈ key, d ≠ top := by
        obtain ⟨d, hd, hne⟩ := hkey
        rcases List.mem_append.1 hd with hd | hd
        · exact ⟨d, hd, hne⟩
        · exact absurd ((List.mem_singleton.1 hd).trans hc) hne
      obtain ⟨p, a, ts, rfl, ha, hts, hbump⟩ := ih hrest
      refine ⟨p, a, ts ++ [c], by simp, ha, ?_, by rw [if_pos hc, hbump]⟩
      intro t ht
      rcases List.mem_append.1 ht with ht | ht
      · exact hts t ht
      · exact (List.mem_singleton.1 ht).trans hc
    · refine ⟨key, c, [], rfl, hc, fun t ht => absurd ht List.not_mem_nil, ?_⟩
      rw [if_neg hc, List.reverse_cons, List.reverse_reverse]

variable [LT α] [Std.Irrefl (fun a b : α => a < b)] [Std.Trichotomous (fun a b : α => a < b)]

/-- the words behind a word of largest letters are those that start with it -/
theorem not_lt_tops_iff (h : Successor top succ) {ts : List α} (hts : ∀ t ∈ ts, t = top) (k : List α) :
    ¬ k < ts ↔ ts <+: k := by
  induction ts generalizing k with
  | nil => exact iff_of_true (List.not_lt_nil k) List.nil_prefix
  | cons t ts ih =>
    obtain rfl := hts t List.mem_cons_self
    cases k with
    | nil => exact iff_of_false (not_not.2 (List.nil_lt_cons t ts)) fun hp => List.cons_ne_nil t ts (List.prefix_nil.1 hp)
    | cons c k =>
      rw [List.cons_lt_cons_iff, List.cons_prefix_cons, ← ih (fun a ha => hts a (List.mem_cons_of_mem t ha)), not_or, not_and]
      constructor
      · intro ⟨hc, hk⟩
        have : c = t := Std.Trichotomous.trichotomous c t hc (h.not_top_lt c)
        exact ⟨this.symm, hk this⟩
      · rintro ⟨rfl, hk⟩
        exact ⟨Std.Irrefl.irrefl t, fun _ => hk⟩

theorem not_lt_and_lt_succ_iff (h : Successor top succ) {a : α} (ha : a ≠ top) {ts : List α} (hts : ∀ t ∈ ts, t = top)
    (k : List α) : ¬ k < a :: ts ∧ k < [succ a] ↔ a :: ts <+: k := by
  cases k with
  | nil =>
    exact iff_of_false (fun hk => hk.1 (List.nil_lt_cons a ts)) fun hp => List.cons_ne_nil a ts (List.prefix_nil.1 hp)
  | cons c k =>
    rw [List.cons_lt_cons_iff, List.cons_lt_cons_iff, h.lt_succ ha, List.cons_prefix_cons, ← not_lt_tops_iff h hts, not_or,
      not_and]
    constructor
    · rintro ⟨⟨hca, hk⟩, hac | ⟨-, hnil⟩⟩
      · have : c = a := Std.Trichotomous.trichotomous c a hca hac
        exact ⟨this.symm, hk this⟩
      · exact absurd hnil (List.not_lt_nil k)
    · rintro ⟨rfl, hk⟩
      exact ⟨⟨Std.Irrefl.irrefl a, fun _ => hk⟩, .inl (Std.Irrefl.irrefl a)⟩

/-- **The range of a prefix** holds the words that start with it and no others. -/
theorem not_lt_and_lt_bump_iff [DecidableEq α] (h : Successor top succ) {key : List α} (hkey : ∃ c ∈ key, c ≠ top)
    (k : List α) : ¬ k < key ∧ k < (bump top succ key.reverse).reverse ↔ key <+: k := by
  obtain ⟨p, a, ts, rfl, ha, hts, hbump⟩ := exists_bump_reverse succ hkey
  rw [hbump]
  clear hbump hkey
  induction p generalizing k with
  | nil => exact not_lt_and_lt_succ_iff h ha hts k
  | cons b p ih =>
    cases k with
    | nil => exact iff_of_false (fun hk => hk.1 (List.nil_lt_cons b _)) fun hp => List.cons_ne_nil b _ (List.prefix_nil.1 hp)
    | cons c k =>
      rw [List.cons_append, List.cons_append, List.cons_lt_cons_iff, List.cons_lt_cons_iff, List.cons_prefix_cons, ← ih k,
        not_or, not_and]
      constructor
      · rintro ⟨⟨hcb, hk⟩, hlt | ⟨rfl, hend⟩⟩
        · exact absurd hlt hcb
        · exact ⟨rfl, hk rfl, hend⟩
      · rintro ⟨rfl, hk, hend⟩
        exact ⟨⟨Std.Irrefl.irrefl b, fun _ => hk⟩, .inr ⟨rfl, hend⟩⟩

end AtFrame.Lib
