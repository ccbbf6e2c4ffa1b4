/-
Objects in a stream, told apart by their brackets, with the stream cut into chunks anywhere.

`Splitter.feed` takes one symbol: outside an object it drops symbols until one opens a bracket, inside it collects them until
the brackets are closed again. `Splitter.split` takes a chunk and gives the objects that end in it. A stream of `Framed` pieces
is given back object by object, whatever the cuts (`split_arrived`); `arrived` are the pieces that have come in completely.

- `split_append`: two chunks are as good as one;
- `split_gap`, `split_encloses`, `split_open`: a gap, the rest of an object, and a part of one;
- `Inside.encloses`: an object with nested brackets;
- `split_arrived`: the objects that a part of a stream gives;
- `arrived_grows`, `arrived_concat`: more symbols bring more pieces, more pieces behind the stream bring none.
-/
import Mathlib.Tactic

namespace AtFrame.Lib

variable {α : Type}

/-- the symbols with a meaning -/
structure Brackets (α : Type) where
  opens : α → Bool
  closes : α → Bool
  /-- not dropped in front of an object -/
  stops : α → Bool

/-- the open brackets behind a symbol -/
def Brackets.next (B : Brackets α) (depth : ℤ) (a : α) : ℤ :=
  let depth := if B.opens a then depth + 1 else depth
  if B.closes a then depth - 1 else depth

/-- a symbol that is dropped in front of an object -/
def Brackets.Skips (B : Brackets α) (a : α) : Prop := B.opens a = false ∧ B.stops a = false

instance (B : Brackets α) (a : α) : Decidable (B.Skips a) := inferInstanceAs (Decidable (_ ∧ _))

@[ext] structure Splitter (α : Type) where
  depth : ℤ
  /-- what has come in of the object -/
  pending : List α
deriving DecidableEq, Repr

def Splitter.fresh : Splitter α := ⟨0, []⟩

variable (B : Brackets α)

def Splitter.feed (s : Splitter α) (a : α) : Splitter α × Option (List α) :=
  if s.depth ≤ 0 ∧ B.Skips a then (s, none)
  else if B.next s.depth a ≤ 0 then (.fresh, some (s.pending ++ [a]))
  else (⟨B.next s.depth a, s.pending ++ [a]⟩, none)

def Splitter.split : Splitter α → List α → Splitter α × List (List α)
  | s, [] => (s, [])
  | s, a :: rest =>
    let r := s.feed B a
    let t := r.1.split rest
    (t.1, r.2.toList ++ t.2)

variable {B}

theorem split_append (s : Splitter α) (l l' : List α) :
    s.split B (l ++ l') = (((s.split B l).1.split B l').1, (s.split B l).2 ++ ((s.split B l).1.split B l').2) := by
  induction l generalizing s with
  | nil => rfl
  | cons a l ih => simp only [List.cons_append, Splitter.split, ih, List.append_assoc]

/-! ## Objects -/

/-- the brackets are closed by the last symbol, and by none before it -/
def Encloses (B : Brackets α) (depth : ℤ) : List α → Prop
  | [] => False
  | a :: rest => if B.next depth a ≤ 0 then rest = [] else Encloses B (B.next depth a) rest

instance Encloses.decidable [DecidableEq α] : ∀ (depth : ℤ) (l : List α), Decidable (Encloses B depth l)
  | _, [] => inferInstanceAs (Decidable False)
  | depth, a :: rest =>
    if h : B.next depth a ≤ 0 then decidable_of_iff (rest = []) (by rw [Encloses, if_pos h])
    else
      have := Encloses.decidable (B.next depth a) rest
      decidable_of_iff (Encloses B (B.next depth a) rest) (by rw [Encloses, if_neg h])

/-- an object, and symbols in front of it that are dropped -/
structure Framed (B : Brackets α) (gap object : List α) : Prop where
  gap : ∀ a ∈ gap, B.Skips a
  opens : ∀ a ∈ object.head?, B.opens a = true
  encloses : Encloses B 0 object

instance [DecidableEq α] (gap object : List α) : Decidable (Framed B gap object) :=
  decidable_of_iff ((∀ a ∈ gap, B.Skips a) ∧ (∀ a ∈ object.head?, B.opens a = true) ∧ Encloses B 0 object)
    ⟨fun h => ⟨h.1, h.2.1, h.2.2⟩, fun h => ⟨h.gap, h.opens, h.encloses⟩⟩

theorem Encloses.ne_nil {depth : ℤ} {l : List α} (h : Encloses B depth l) : l ≠ [] := by
  rintro rfl
  exact h

theorem split_gap {s : Splitter α} (hs : s.depth ≤ 0) {gap : List α} (h : ∀ a ∈ gap, B.Skips a) : s.split B gap = (s, []) := by
  induction gap with
  | nil => rfl
  | cons a gap ih =>
    have ha : s.feed B a = (s, none) := if_pos ⟨hs, h a List.mem_cons_self⟩
    simp only [Splitter.split, ha, ih fun b hb => h b (List.mem_cons_of_mem a hb), Option.toList_none, List.append_nil]

/-- a symbol of an object is collected -/
theorem feed_collects {s : Splitter α} {a : α} (h : 0 < s.depth ∨ B.opens a = true) :
    s.feed B a =
      if B.next s.depth a ≤ 0 then (.fresh, some (s.pending ++ [a])) else (⟨B.next s.depth a, s.pending ++ [a]⟩, none) := by
  refine if_neg fun hskip => ?_
  rcases h with h | h
  · exact absurd hskip.1 (not_le.2 h)
  · exact Bool.false_ne_true (hskip.2.1.symm.trans h)

/-- **The rest of an object.** -/
theorem split_encloses {s : Splitter α} {l : List α} (h : Encloses B s.depth l)
    (hs : 0 < s.depth ∨ ∀ a ∈ l.head?, B.opens a = true) : s.split B l = (.fresh, [s.pending ++ l]) := by
  induction l generalizing s with
  | nil => exact absurd rfl h.ne_nil
  | cons a l ih =>
    have hfeed := feed_collects (s := s) (hs.imp_right fun h => h a (by rw [List.head?_cons, Option.mem_some]))
    simp only [Encloses] at h
    simp only [Splitter.split, hfeed]
    split_ifs at h ⊢ with hclosed
    · rw [h]
      rfl
    · have hrest := ih (s := ⟨B.next s.depth a, s.pending ++ [a]⟩) h (.inl (not_le.1 hclosed))
      simp only [hrest, Option.toList_none, List.nil_append, List.append_assoc, List.cons_append]

/-- a part of an object gives nothing yet -/
theorem split_open {s : Splitter α} {l : List α} (h : Encloses B s.depth l)
    (hs : 0 < s.depth ∨ ∀ a ∈ l.head?, B.opens a = true) {n : ℕ} (hn : n < l.length) : (s.split B (l.take n)).2 = [] := by
  induction l generalizing s n with
  | nil => exact absurd rfl h.ne_nil
  | cons a l ih =>
    cases n with
    | zero => rfl
    | succ n =>
      have hfeed := feed_collects (s := s) (hs.imp_right fun h => h a (by rw [List.head?_cons, Option.mem_some]))
      simp only [Encloses] at h
      simp only [List.take_succ_cons, Splitter.split, hfeed]
      rw [List.length_cons, Nat.succ_lt_succ_iff] at hn
      split_ifs at h ⊢ with hclosed
      · rw [h] at hn
        exact absurd hn (Nat.not_lt_zero n)
      · exact ih (s := ⟨B.next s.depth a, s.pending ++ [a]⟩) h (.inl (not_le.1 hclosed)) hn

/-- a piece of a stream -/
theorem Framed.split {gap object : List α} (h : Framed B gap object) :
    Splitter.split B .fresh (gap ++ object) = (.fresh, [object]) := by
  rw [split_append, split_gap le_rfl h.gap]
  exact split_encloses h.encloses (.inr h.opens)

/-- a part of a piece -/
theorem Framed.split_take {gap object : List α} (h : Framed B gap object) {n : ℕ} (hn : n < (gap ++ object).length) :
    (Splitter.split B .fresh ((gap ++ object).take n)).2 = [] := by
  rw [List.take_append, split_append, split_gap le_rfl fun a ha => h.gap a (List.mem_of_mem_take ha)]
  refine split_open h.encloses (.inr h.opens) ?_
  have hpos : 0 < object.length := List.length_pos_iff.2 h.encloses.ne_nil
  rw [List.length_append] at hn
  omega

/-! ## Nested brackets -/

/-- symbols within an object that close all brackets they open -/
def Inside (B : Brackets α) (l : List α) : Prop :=
  ∀ depth, 0 < depth → ∀ rest, Encloses B depth (l ++ rest) ↔ Encloses B depth rest

theorem inside_nil : Inside B [] := fun _ _ _ => Iff.rfl

theorem Inside.append {l l' : List α} (h : Inside B l) (h' : Inside B l') : Inside B (l ++ l') := by
  intro depth hdepth rest
  rw [List.append_assoc, h depth hdepth, h' depth hdepth]

/-- symbols that are no brackets -/
theorem inside_plain {l : List α} (h : ∀ a ∈ l, B.opens a = false ∧ B.closes a = false) : Inside B l := by
  induction l with
  | nil => exact inside_nil
  | cons a l ih =>
    intro depth hdepth rest
    have hnext : B.next depth a = depth := by
      simp only [Brackets.next, (h a List.mem_cons_self).1, (h a List.mem_cons_self).2, Bool.false_eq_true, if_false]
    rw [List.cons_append, Encloses, hnext, if_neg (not_le.2 hdepth)]
    exact ih (fun b hb => h b (List.mem_cons_of_mem a hb)) depth hdepth rest

theorem next_opening {a : α} (ha : B.opens a = true ∧ B.closes a = false) (depth : ℤ) : B.next depth a = depth + 1 := by
  simp only [Brackets.next, ha.1, ha.2, if_true, Bool.false_eq_true, if_false]

theorem next_closing {c : α} (hc : B.opens c = false ∧ B.closes c = true) (depth : ℤ) : B.next depth c = depth - 1 := by
  simp only [Brackets.next, hc.1, hc.2, if_true, Bool.false_eq_true, if_false]

/-- what stands between brackets, with them -/
theorem Inside.wrap {a c : α} (ha : B.opens a = true ∧ B.closes a = false) (hc : B.opens c = false ∧ B.closes c = true)
    {l : List α} (h : Inside B l) : Inside B (a :: l ++ [c]) := by
  intro depth hdepth rest
  have hin : 0 < depth + 1 := by omega
  rw [List.cons_append, List.cons_append, Encloses, next_opening ha, if_neg (not_le.2 hin), List.append_assoc, h _ hin,
    List.singleton_append, Encloses, next_closing hc, Int.add_sub_cancel, if_neg (not_le.2 hdepth)]

/-- outside of any object it is one -/
theorem Inside.encloses {a c : α} (ha : B.opens a = true ∧ B.closes a = false) (hc : B.opens c = false ∧ B.closes c = true)
    {l : List α} (h : Inside B l) : Encloses B 0 (a :: l ++ [c]) := by
  rw [List.cons_append, Encloses, next_opening ha, if_neg (by decide), h _ (by decide), Encloses, next_closing hc,
    if_pos (by decide)]

/-! ## Streams of pieces -/

section pieces

variable {π : Type} (size : π → ℕ)

/-- the pieces within the first `n` symbols -/
def arrived : List π → ℕ → List π
  | [], _ => []
  | p :: ps, n => if size p ≤ n then p :: arrived ps (n - size p) else []

theorem arrived_initial (ps : List π) (n : ℕ) : arrived size ps n <+: ps := by
  induction ps generalizing n with
  | nil => exact List.prefix_refl []
  | cons p ps ih =>
    simp only [arrived]
    split_ifs
    · exact List.cons_prefix_cons.2 ⟨rfl, ih _⟩
    · exact List.nil_prefix

theorem arrived_all {ps : List π} {n : ℕ} (hn : (ps.map size).sum ≤ n) : arrived size ps n = ps := by
  induction ps generalizing n with
  | nil => rfl
  | cons p ps ih =>
    rw [List.map_cons, List.sum_cons] at hn
    rw [arrived, if_pos (Nat.le_of_add_right_le hn), ih (Nat.le_sub_of_add_le' hn)]

theorem arrived_grows (ps : List π) (n k : ℕ) : arrived size ps n <+: arrived size ps (n + k) := by
  induction ps generalizing n with
  | nil => exact List.prefix_refl []
  | cons p ps ih =>
    simp only [arrived]
    split_ifs with h h'
    · rw [Nat.sub_add_comm h]
      exact List.cons_prefix_cons.2 ⟨rfl, ih _⟩
    · exact absurd (Nat.le_add_right_of_le h) h'
    all_goals exact List.nil_prefix

/-- nothing has come in of a piece behind the stream -/
theorem arrived_concat {ps : List π} {n : ℕ} {p : π} (hn : n ≤ (ps.map size).sum) (hp : 0 < size p) :
    arrived size (ps ++ [p]) n = arrived size ps n := by
  induction ps generalizing n with
  | nil =>
    have h0 : n = 0 := Nat.le_zero.1 hn
    rw [h0, List.nil_append]
    exact if_neg (Nat.not_le.2 hp)
  | cons q ps ih =>
    rw [List.map_cons, List.sum_cons] at hn
    simp only [List.cons_append, arrived, ih (Nat.sub_le_iff_le_add'.2 hn)]

end pieces

/-- **The objects of a part of a stream** are those of the pieces that have come in completely. -/
theorem split_arrived {π : Type} {g o : π → List α} {ps : List π} (h : ∀ p ∈ ps, Framed B (g p) (o p)) (n : ℕ) :
    (Splitter.split B .fresh ((ps.flatMap fun p => g p ++ o p).take n)).2 =
      (arrived (fun p => (g p ++ o p).length) ps n).map o := by
  induction ps generalizing n with
  | nil => rw [List.flatMap_nil, List.take_nil]; rfl
  | cons p ps ih =>
    have hp := h p List.mem_cons_self
    simp only [arrived, List.flatMap_cons]
    split_ifs with hn
    · rw [List.take_append, List.take_of_length_le hn, split_append, hp.split, List.map_cons]
      exact congrArg _ (ih (fun q hq => h q (List.mem_cons_of_mem p hq)) _)
    · rw [not_le] at hn
      rw [List.take_append_of_le_length hn.le]
      exact hp.split_take hn

end AtFrame.Lib
