/-
Codecs: a value as bytes, and a reader that takes it off the front of a stream.

Numbers are unary, so that a reader needs no arithmetic; byte strings carry their length in front. A codec holds the proof of
its round trip, and the combinators build it for products, options and whatever maps into them.

- `Codec.word`, `Codec.nat`, `Codec.bytes`: the base;
- `Codec.prod`, `Codec.option`, `Codec.via`: the combinators;
- `Codec.read_enc`: a whole stream is read back.
-/
import Mathlib.Tactic

namespace AtFrame.Lib

variable {α β : Type}

structure Codec (α : Type) where
  enc : α → List UInt8
  dec : List UInt8 → Option (α × List UInt8)
  dec_enc : ∀ a rest, dec (enc a ++ rest) = some (a, rest)

namespace Codec

/-- a stream that holds one value and nothing else -/
def read (c : Codec α) (b : List UInt8) : Option α :=
  match c.dec b with
  | some (a, []) => some a
  | _ => none

theorem read_enc (c : Codec α) (a : α) : c.read (c.enc a) = some a := by
  have h := c.dec_enc a []
  rw [List.append_nil] at h
  rw [read, h]

/-- eight bytes, the lowest first -/
def takeWord : List UInt8 → Option (UInt64 × List UInt8)
  | b0 :: b1 :: b2 :: b3 :: b4 :: b5 :: b6 :: b7 :: bs =>
    some (UInt64.ofNat (b0.toNat + 256 * (b1.toNat + 256 * (b2.toNat + 256 * (b3.toNat + 256 * (b4.toNat + 256 * (b5.toNat +
      256 * (b6.toNat + 256 * b7.toNat))))))), bs)
  | _ => none

def word : Codec UInt64 where
  enc u := (List.range 8).map fun i => UInt8.ofNat (u.toNat / 256 ^ i)
  dec := takeWord
  dec_enc u rest := by
    have hu := u.toNat_lt
    simp only [List.range, List.range.loop, List.map_cons, List.map_nil, List.cons_append, List.nil_append, takeWord,
      UInt8.toNat_ofNat', Option.some.injEq, Prod.mk.injEq, and_true]
    refine Eq.trans (congrArg UInt64.ofNat ?_) (UInt64.ofNat_toNat (x := u))
    norm_num only
    omega

/-- ones up to a zero -/
def takeNat : List UInt8 → Option (ℕ × List UInt8)
  | [] => none
  | b :: bs => if b = 0 then some (0, bs) else (takeNat bs).map fun r => (r.1 + 1, r.2)

theorem takeNat_replicate (n : ℕ) (rest : List UInt8) : takeNat (List.replicate n 1 ++ 0 :: rest) = some (n, rest) := by
  induction n with
  | zero => rfl
  | succ n ih =>
    rw [List.replicate_succ, List.cons_append, takeNat, if_neg (by decide), ih]
    rfl

def nat : Codec ℕ where
  enc n := List.replicate n 1 ++ [0]
  dec := takeNat
  dec_enc n rest := by
    rw [List.append_assoc]
    exact takeNat_replicate n rest

/-- the length, then the bytes -/
def bytes : Codec (List UInt8) where
  enc b := nat.enc b.length ++ b
  dec s := (nat.dec s).map fun r => (r.2.take r.1, r.2.drop r.1)
  dec_enc b rest := by
    rw [List.append_assoc, nat.dec_enc, Option.map_some, List.take_left, List.drop_left]

def prod (c : Codec α) (c' : Codec β) : Codec (α × β) where
  enc p := c.enc p.1 ++ c'.enc p.2
  dec s := (c.dec s).bind fun r => (c'.dec r.2).map fun r' => ((r.1, r'.1), r'.2)
  dec_enc p rest := by
    rw [List.append_assoc, c.dec_enc, Option.bind_some, c'.dec_enc, Option.map_some]

def encOption (c : Codec α) : Option α → List UInt8
  | none => [0]
  | some a => 1 :: c.enc a

def takeOption (c : Codec α) : List UInt8 → Option (Option α × List UInt8)
  | [] => none
  | b :: bs => if b = 0 then some (none, bs) else (c.dec bs).map fun r => (some r.1, r.2)

def option (c : Codec α) : Codec (Option α) where
  enc := c.encOption
  dec := c.takeOption
  dec_enc o rest := by
    cases o with
    | none => rfl
    | some a =>
      rw [encOption, List.cons_append, takeOption, if_neg (by decide), c.dec_enc]
      rfl

/-- values that another codec holds as they are mapped into it -/
def via (c : Codec β) (f : α → β) (g : β → α) (h : ∀ a, g (f a) = a) : Codec α where
  enc a := c.enc (f a)
  dec s := (c.dec s).map fun r => (g r.1, r.2)
  dec_enc a rest := by
    rw [c.dec_enc, Option.map_some, h]

/-! ## Lengths -/

@[simp] theorem length_word (u : UInt64) : (word.enc u).length = 8 := by
  simp only [word, List.length_map, List.length_range]

@[simp] theorem length_nat (n : ℕ) : (nat.enc n).length = n + 1 := by
  simp only [nat, List.length_append, List.length_replicate, List.length_singleton]

@[simp] theorem length_bytes (b : List UInt8) : (bytes.enc b).length = 2 * b.length + 1 := by
  change (nat.enc b.length ++ b).length = _
  rw [List.length_append, length_nat]
  omega

@[simp] theorem length_prod (c : Codec α) (c' : Codec β) (p : α × β) :
    ((c.prod c').enc p).length = (c.enc p.1).length + (c'.enc p.2).length := List.length_append

@[simp] theorem length_none (c : Codec α) : (c.option.enc none).length = 1 := rfl

@[simp] theorem length_some (c : Codec α) (a : α) : (c.option.enc (some a)).length = (c.enc a).length + 1 := rfl

@[simp] theorem length_via (c : Codec β) (f : α → β) (g : β → α) (h : ∀ a, g (f a) = a) (a : α) :
    ((c.via f g h).enc a).length = (c.enc (f a)).length := rfl

end Codec

end AtFrame.Lib
