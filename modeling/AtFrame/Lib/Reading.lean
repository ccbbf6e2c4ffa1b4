/-
Readers of texts: a reader takes a value off the front of a text and leaves the rest.

`ReadsAs r follows text a` says that `r` reads `text` as `a` and leaves what stands behind it, whatever this is as long as its
first symbol is one of `follows`.

- `reads_until`: items up to a closing symbol;
- `reads_list`: items with a separator between them up to a closing symbol.
-/
import Mathlib.Tactic

namespace AtFrame.Lib

variable {σ α β : Type*} {follows : σ → Prop} {text rest : List σ} {a : α}

abbrev Reader (σ α : Type*) := List σ → Option (α × List σ)

def ReadsAs (r : Reader σ α) (follows : σ → Prop) (text : List σ) (a : α) : Prop :=
  ∀ rest, (∀ c ∈ rest.head?, follows c) → r (text ++ rest) = some (a, rest)

/-- whatever stands behind the text -/
def anything (_ : σ) : Prop := True

theorem ReadsAs.mono {r : Reader σ α} {follows' : σ → Prop} (h : ReadsAs r follows text a) (hfollows : ∀ c, follows' c → follows c) :
    ReadsAs r follows' text a := fun rest hrest => h rest fun c hc => hfollows c (hrest c hc)

/-! ## Items up to a closing symbol -/

variable [DecidableEq σ]

/-- items up to a closing symbol, which is taken off too; fewer than `n` of them -/
def readUntil (item : Reader σ α) (close : σ) : ℕ → Reader σ (List α)
  | 0, _ => none
  | _ + 1, [] => none
  | n + 1, c :: rest =>
    if c = close then some ([], rest)
    else (item (c :: rest)).bind fun r => (readUntil item close n r.2).map fun rs => (r.1 :: rs.1, rs.2)

theorem reads_until {item : Reader σ α} {close : σ} {write : α → List σ} {as : List α}
    (hitem : ∀ a ∈ as, ReadsAs item anything (write a) a) (hopen : ∀ a ∈ as, ∃ c rest, write a = c :: rest ∧ c ≠ close) {n : ℕ}
    (hn : as.length < n) : ReadsAs (readUntil item close n) anything (as.flatMap write ++ [close]) as := by
  intro rest hrest
  induction as generalizing n with
  | nil =>
    obtain ⟨n, rfl⟩ := Nat.exists_eq_succ_of_ne_zero (Nat.ne_of_gt hn)
    exact if_pos rfl
  | cons a as ih =>
    cases n with
    | zero => exact absurd hn (Nat.not_lt_zero _)
    | succ n =>
      obtain ⟨c, tail, hwrite, hc⟩ := hopen a List.mem_cons_self
      have hread := hitem a List.mem_cons_self (as.flatMap write ++ [close] ++ rest) fun _ _ => trivial
      have hlast := ih (fun b hb => hitem b (List.mem_cons_of_mem a hb)) (fun b hb => hopen b (List.mem_cons_of_mem a hb))
        (Nat.lt_of_succ_lt_succ hn)
      rw [hwrite, List.cons_append] at hread
      rw [List.flatMap_cons, hwrite, List.append_assoc, List.append_assoc, List.cons_append, readUntil, if_neg hc,
        ← List.append_assoc (as.flatMap write), hread, Option.bind_some, hlast, Option.map_some]

/-! ## Items with a separator -/

/-- at least one item, at most `n` of them -/
def readSeparated (item : Reader σ α) (sep close : σ) : ℕ → Reader σ (List α)
  | 0, _ => none
  | n + 1, text =>
    match item text with
    | some (a, c :: rest) =>
      if c = close then some ([a], rest)
      else if c = sep then (readSeparated item sep close n rest).map fun rs => (a :: rs.1, rs.2)
      else none
    | _ => none

/-- the texts of the items with the separator between them -/
def separated (write : α → List σ) (sep : σ) : List α → List σ
  | [] => []
  | [a] => write a
  | a :: b :: as => write a ++ sep :: separated write sep (b :: as)

omit [DecidableEq σ] in
theorem length_separated (write : α → List σ) (sep : σ) {as : List α} : as.length ≤ (separated write sep as).length + 1 := by
  induction as with
  | nil => exact Nat.zero_le _
  | cons a as ih =>
    cases as with
    | nil => exact Nat.le_add_left _ _
    | cons b as =>
      simp only [separated, List.length_append, List.length_cons] at ih ⊢
      omega

omit [DecidableEq σ] in
theorem length_item_le (write : α → List σ) (sep : σ) {as : List α} (ha : a ∈ as) :
    (write a).length ≤ (separated write sep as).length := by
  induction as with
  | nil => exact absurd ha List.not_mem_nil
  | cons b as ih =>
    cases as with
    | nil => rw [List.mem_singleton.1 ha, separated]
    | cons c as =>
      rw [separated, List.length_append, List.length_cons]
      rcases List.mem_cons.1 ha with rfl | ha
      · exact Nat.le_add_right _ _
      · have := ih ha
        omega

omit [DecidableEq σ] in
theorem mem_separated {write : α → List σ} {sep : σ} {as : List α} {c : σ} (h : c ∈ separated write sep as) :
    c = sep ∨ ∃ a ∈ as, c ∈ write a := by
  induction as with
  | nil => exact absurd h List.not_mem_nil
  | cons a as ih =>
    cases as with
    | nil => exact .inr ⟨a, List.mem_cons_self, h⟩
    | cons b as =>
      rw [separated, List.mem_append, List.mem_cons] at h
      rcases h with h | h | h
      · exact .inr ⟨a, List.mem_cons_self, h⟩
      · exact .inl h
      · exact (ih h).imp_right fun ⟨d, hd, hc⟩ => ⟨d, List.mem_cons_of_mem a hd, hc⟩

theorem reads_separated {item : Reader σ α} {sep close : σ} (hsep : sep ≠ close) {write : α → List σ} {as : List α}
    (hne : as ≠ []) (hitem : ∀ a ∈ as, ReadsAs item (fun c => c = sep ∨ c = close) (write a) a) {n : ℕ} (hn : as.length ≤ n) :
    ReadsAs (readSeparated item sep close n) anything (separated write sep as ++ [close]) as := by
  intro rest hrest
  induction as generalizing n with
  | nil => exact absurd rfl hne
  | cons a as ih =>
    cases n with
    | zero => exact absurd hn (Nat.not_succ_le_zero _)
    | succ n =>
      have hread := hitem a List.mem_cons_self
      cases as with
      | nil =>
        have hlast := hread (close :: rest) fun c hc => .inr (Option.some.inj hc).symm
        rw [separated, List.append_assoc, List.singleton_append, readSeparated, hlast]
        exact if_pos rfl
      | cons b as =>
        have hnext := hread (sep :: (separated write sep (b :: as) ++ close :: rest)) fun c hc => .inl (Option.some.inj hc).symm
        have htail := ih (List.cons_ne_nil b as) (fun d hd => hitem d (List.mem_cons_of_mem a hd)) (Nat.le_of_succ_le_succ hn)
        rw [List.append_assoc, List.singleton_append] at htail
        rw [separated, List.append_assoc, List.append_assoc, List.singleton_append, List.cons_append, readSeparated, hnext]
        simp only [if_neg hsep, if_true, htail, Option.map_some]

/-- items with a separator between them, or none, up to a closing symbol -/
def readList (item : Reader σ α) (sep close : σ) (text : List σ) : Option (List α × List σ) :=
  if text.head? = some close then some ([], text.tail) else readSeparated item sep close text.length text

theorem reads_list {item : Reader σ α} {sep close : σ} (hsep : sep ≠ close) {write : α → List σ} {as : List α}
    (hopen : ∀ a ∈ as, ∃ c rest, write a = c :: rest ∧ c ≠ close)
    (hitem : ∀ a ∈ as, ReadsAs item (fun c => c = sep ∨ c = close) (write a) a) :
    ReadsAs (readList item sep close) anything (separated write sep as ++ [close]) as := by
  intro rest hrest
  cases as with
  | nil => exact if_pos rfl
  | cons a as =>
    obtain ⟨c, tail, hwrite, hc⟩ := hopen a List.mem_cons_self
    have hhead : (separated write sep (a :: as) ++ [close] ++ rest).head? = some c := by
      cases as with
      | nil => rw [separated, hwrite]; rfl
      | cons b as => rw [separated, hwrite]; rfl
    have hfuel : (a :: as).length ≤ (separated write sep (a :: as) ++ [close] ++ rest).length := by
      have := @length_separated σ α write sep (a :: as)
      rw [List.length_append, List.length_append, List.length_singleton]
      omega
    have hread := reads_separated hsep (List.cons_ne_nil a as) hitem hfuel rest hrest
    rw [readList, hhead, if_neg fun heq => hc (Option.some.inj heq)]
    exact hread

end AtFrame.Lib
