/-
A double-ended queue of memory blocks with a limit on the total size and on the number of blocks.

Each block has a fixed size, an address that no other live block has, and a count of the cells already used up from its
front. A push fails exactly when the configured total size or block count would be exceeded (a limit of 0 means none).

Results:
- `pushBack_isSome` / `pushFront_isSome`: a push succeeds exactly when the new block fits;
- `repack_fits`: replacing the first blocks by one block that is not larger than them together stays within the limits,
  so a push to the front right after those pops cannot fail;
- `addrOk_pushBack`, `addrOk_pushFront`: addresses stay below the allocation counter, so a new block never shares the
  address of a live one.
-/
import Mathlib.Tactic

namespace AtFrame.Lib

/-- one block: `used` cells of its front are already consumed (or, while receiving, already filled) -/
structure Block (α : Type) where
  addr : ℕ
  size : ℕ
  used : ℕ
  data : List α
deriving DecidableEq, Repr

structure BlockQueue (α : Type) where
  limitSize : ℕ
  limitNumber : ℕ
  blocks : List (Block α)
  next : ℕ
deriving DecidableEq, Repr

namespace BlockQueue

variable {α : Type}

def empty (limitSize limitNumber : ℕ) : BlockQueue α := ⟨limitSize, limitNumber, [], 0⟩

def costNumber (q : BlockQueue α) : ℕ := q.blocks.length

def costSize (q : BlockQueue α) : ℕ := (q.blocks.map Block.size).sum

/-- one more block of `s` cells stays within both limits -/
def Fits (q : BlockQueue α) (s : ℕ) : Prop :=
  (q.limitNumber = 0 ∨ q.costNumber + 1 ≤ q.limitNumber) ∧ (q.limitSize = 0 ∨ q.costSize + s ≤ q.limitSize)

instance (q : BlockQueue α) (s : ℕ) : Decidable (q.Fits s) := by unfold Fits; infer_instance

def front? (q : BlockQueue α) : Option (Block α) := q.blocks.head?

def back? (q : BlockQueue α) : Option (Block α) := q.blocks.getLast?

/-- push a block of `s` cells holding `d` at the back -/
def pushBack (q : BlockQueue α) (s : ℕ) (d : List α) : Option (BlockQueue α) :=
  if q.Fits s then some { q with blocks := q.blocks ++ [⟨q.next, s, 0, d⟩], next := q.next + 1 } else none

/-- push a block of `s` cells holding `d` at the front -/
def pushFront (q : BlockQueue α) (s : ℕ) (d : List α) : Option (BlockQueue α) :=
  if q.Fits s then some { q with blocks := ⟨q.next, s, 0, d⟩ :: q.blocks, next := q.next + 1 } else none

/-- free the first block -/
def popFront (q : BlockQueue α) : BlockQueue α := { q with blocks := q.blocks.tail }

/-- write `d` behind what the last block already holds and count it as used -/
def fillBack (q : BlockQueue α) (d : List α) : BlockQueue α :=
  match q.back? with
  | none => q
  | some b => { q with blocks := q.blocks.dropLast ++ [{ b with used := b.used + d.length, data := b.data ++ d }] }

/-- the queue is within its own limits -/
def Within (q : BlockQueue α) : Prop :=
  (q.limitNumber = 0 ∨ q.costNumber ≤ q.limitNumber) ∧ (q.limitSize = 0 ∨ q.costSize ≤ q.limitSize)

theorem pushBack_isSome (q : BlockQueue α) (s : ℕ) (d : List α) : (q.pushBack s d).isSome ↔ q.Fits s := by
  unfold pushBack; split_ifs with h <;> simp [h]

theorem pushFront_isSome (q : BlockQueue α) (s : ℕ) (d : List α) : (q.pushFront s d).isSome ↔ q.Fits s := by
  unfold pushFront; split_ifs with h <;> simp [h]

theorem pushBack_some {q q' : BlockQueue α} {s : ℕ} {d : List α} (h : q.pushBack s d = some q') :
    q.Fits s ∧ q' = { q with blocks := q.blocks ++ [⟨q.next, s, 0, d⟩], next := q.next + 1 } := by
  unfold pushBack at h
  split_ifs at h with hf
  exact ⟨hf, (Option.some.inj h).symm⟩

theorem pushFront_some {q q' : BlockQueue α} {s : ℕ} {d : List α} (h : q.pushFront s d = some q') :
    q.Fits s ∧ q' = { q with blocks := ⟨q.next, s, 0, d⟩ :: q.blocks, next := q.next + 1 } := by
  unfold pushFront at h
  split_ifs at h with hf
  exact ⟨hf, (Option.some.inj h).symm⟩

theorem within_pushBack {q q' : BlockQueue α} {s : ℕ} {d : List α} (h : q.pushBack s d = some q') : q'.Within := by
  obtain ⟨⟨hn, hs⟩, rfl⟩ := pushBack_some h
  simp only [Within, costNumber, costSize, List.length_append, List.map_append, List.sum_append] at *
  constructor
  · rcases hn with hn | hn
    · exact Or.inl hn
    · right; simpa using hn
  · rcases hs with hs | hs
    · exact Or.inl hs
    · right; simpa using hs

theorem within_pushFront {q q' : BlockQueue α} {s : ℕ} {d : List α} (h : q.pushFront s d = some q') : q'.Within := by
  obtain ⟨⟨hn, hs⟩, rfl⟩ := pushFront_some h
  simp only [Within, costNumber, costSize, List.length_cons, List.map_cons, List.sum_cons] at *
  exact ⟨hn, hs.imp_right fun h => by omega⟩

theorem within_popFront {q : BlockQueue α} (h : q.Within) : q.popFront.Within := by
  obtain ⟨hn, hs⟩ := h
  cases hb : q.blocks with
  | nil => simp_all [Within, popFront, costNumber, costSize]
  | cons b bs =>
    simp only [Within, popFront, costNumber, costSize, hb, List.tail_cons, List.length_cons, List.map_cons,
      List.sum_cons] at *
    omega

/-- **Repacking fits.** Popping the first blocks `pre` of a queue within its limits and pushing one block that is not
larger than them together cannot exceed a limit. -/
theorem repack_fits {q : BlockQueue α} (hq : q.Within) {pre post : List (Block α)} (hb : q.blocks = pre ++ post)
    (hpre : pre ≠ []) {s : ℕ} (hs : s ≤ (pre.map Block.size).sum) : ({ q with blocks := post } : BlockQueue α).Fits s := by
  obtain ⟨hn, hz⟩ := hq
  have hlen : 1 ≤ pre.length := List.length_pos_iff.2 hpre
  simp only [Fits, costNumber, costSize, hb, List.length_append, List.map_append, List.sum_append] at *
  omega

/-- every live address is below the allocation counter, and no two live blocks share one -/
structure AddrOk (q : BlockQueue α) : Prop where
  lt : ∀ b ∈ q.blocks, b.addr < q.next
  nodup : (q.blocks.map Block.addr).Nodup

theorem addrOk_empty (n m : ℕ) : (empty n m : BlockQueue α).AddrOk := ⟨by simp [empty], by simp [empty]⟩

theorem addrOk_pushBack {q q' : BlockQueue α} {s : ℕ} {d : List α} (hq : q.AddrOk) (h : q.pushBack s d = some q') :
    q'.AddrOk := by
  obtain ⟨-, rfl⟩ := pushBack_some h
  refine ⟨?_, ?_⟩
  · intro b hb
    simp only [List.mem_append, List.mem_singleton] at hb
    rcases hb with hb | rfl
    · exact Nat.lt_succ_of_lt (hq.lt b hb)
    · exact Nat.lt_succ_self _
  · simp only [List.map_append, List.map_cons, List.map_nil]
    refine List.nodup_append.2 ⟨hq.nodup, by simp, ?_⟩
    intro a ha b hb
    simp only [List.mem_singleton] at hb
    obtain ⟨c, hc, rfl⟩ := List.mem_map.1 ha
    have := hq.lt c hc
    omega

theorem addrOk_pushFront {q q' : BlockQueue α} {s : ℕ} {d : List α} (hq : q.AddrOk) (h : q.pushFront s d = some q') :
    q'.AddrOk := by
  obtain ⟨-, rfl⟩ := pushFront_some h
  refine ⟨?_, ?_⟩
  · intro b hb
    rcases List.mem_cons.1 hb with rfl | hb
    · exact Nat.lt_succ_self _
    · exact Nat.lt_succ_of_lt (hq.lt b hb)
  · simp only [List.map_cons, List.nodup_cons]
    refine ⟨fun hm => ?_, hq.nodup⟩
    obtain ⟨c, hc, he⟩ := List.mem_map.1 hm
    have := hq.lt c hc
    omega

theorem addrOk_of_suffix {q : BlockQueue α} (hq : q.AddrOk) {bs : List (Block α)} (h : bs <:+ q.blocks) :
    ({ q with blocks := bs } : BlockQueue α).AddrOk :=
  ⟨fun b hb => hq.lt b (h.subset hb), hq.nodup.sublist (h.sublist.map _)⟩

end BlockQueue

end AtFrame.Lib
