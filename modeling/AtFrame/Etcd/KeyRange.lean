/-
Key ranges of etcd requests (`etcd_packer::pack_key_range`) and the paths that `etcd_module` publishes a node under.

A request carries its key and the end of its range base64-encoded; here they are the bytes that etcd decodes.

- `plusOne_prefix_iff`: a request with the range end "+1" addresses the keys that start with its key, unless this key
  consists of 0xff bytes only;
- `plusOne_misses_prefix`: the request for the key 0xff leaves out a key behind it;
- `exists_ne_255_nodePath`: no published path consists of 0xff bytes only.

Premise: the key is not empty. Witness `plusOne_prefix_slash`: the key "/" with a 0xff behind it, where the last byte that can be
counted up is not the last one. The range end "\0" of a key without such a byte stands for all keys behind it, but
`pack_key_range` takes it for an empty text and leaves it out, so that the request is for the key alone.
-/
import AtFrame.Inner.Base
import AtFrame.Lib.PrefixRange

namespace AtFrame.Etcd

open AtFrame.Lib

/-! ## Ranges -/

/-- the `key` and `range_end` fields of a request, where they are present -/
structure KeyRange where
  key : Option Bytes
  rangeEnd : Option Bytes
deriving DecidableEq, Repr

/-- the range end that stands for "every key with this prefix" -/
def plusOne : Bytes := [43, 49]

/-- the loop over the back of the range end: a 0xff byte is popped, another byte is incremented -/
def bumpBack (b : Bytes) : Bytes := (bump 255 (· + 1) b.reverse).reverse

/-- `range_end` behind the first block; for a key of 0xff bytes the code assigns the literal "\0", an empty string -/
def resolveRangeEnd (key rangeEnd : Bytes) : Bytes := if rangeEnd = plusOne then bumpBack key else rangeEnd

/-- `pack_key_range` -/
def packKeyRange (key rangeEnd : Bytes) : KeyRange where
  key := if key = [] then none else some key
  rangeEnd := if resolveRangeEnd key rangeEnd = [] then none else some (resolveRangeEnd key rangeEnd)

/-- the keys that etcd applies a request to: its key alone without a range end, all keys from its key on where the range
end is a single NUL, the keys from its key up to the range end otherwise -/
def KeyRange.Covers (r : KeyRange) (k : Bytes) : Prop :=
  match r.rangeEnd with
  | none => k = r.key.getD []
  | some e => ¬ k < r.key.getD [] ∧ (e = [0] ∨ k < e)

instance (r : KeyRange) (k : Bytes) : Decidable (r.Covers k) := by
  unfold KeyRange.Covers
  split <;> infer_instance

theorem successor_byte : Successor (255 : UInt8) (· + 1) where
  not_top_lt a := by
    rw [UInt8.not_lt, UInt8.le_iff_toNat_le]
    have := a.toNat_lt
    rw [show (255 : UInt8).toNat = 255 by rfl]
    omega
  lt_succ {a} ha b := by
    rw [UInt8.not_lt, UInt8.lt_iff_toNat_lt, UInt8.le_iff_toNat_le]
    have hne : a.toNat ≠ 255 := fun h => ha (UInt8.toNat_inj.1 h)
    have := a.toNat_lt
    rw [UInt8.toNat_add, show (1 : UInt8).toNat = 1 by rfl, Nat.mod_eq_of_lt (by omega)]
    omega

/-- the end that the loop finds for a key is no empty word and not the one that means "all keys" -/
theorem bumpBack_ne {key : Bytes} (hkey : ∃ c ∈ key, c ≠ 255) : bumpBack key ≠ [] ∧ bumpBack key ≠ [0] := by
  obtain ⟨p, c, ts, -, hc, -, hbump⟩ := exists_bump_reverse (· + 1) hkey
  rw [bumpBack, hbump]
  refine ⟨List.append_ne_nil_of_right_ne_nil p (List.cons_ne_nil _ _), fun h => hc ?_⟩
  cases p with
  | nil =>
    have h0 : c + 1 = 0 := List.singleton_inj.1 h
    calc c = c + 1 - 1 := (UInt8.add_sub_cancel c 1).symm
      _ = 255 := by rw [h0]; rfl
  | cons b p =>
    have hlen := congrArg List.length h
    simp at hlen

/-- **"+1" means prefix.** -/
theorem covers_plusOne_iff {key : Bytes} (hkey : ∃ c ∈ key, c ≠ 255) (k : Bytes) :
    (packKeyRange key plusOne).Covers k ↔ key <+: k := by
  obtain ⟨hnil, hzero⟩ := bumpBack_ne hkey
  have hne : key ≠ [] := by
    rintro rfl
    obtain ⟨c, hc, -⟩ := hkey
    exact List.not_mem_nil hc
  rw [← not_lt_and_lt_bump_iff successor_byte hkey k]
  simp only [KeyRange.Covers, packKeyRange, resolveRangeEnd, if_true, if_neg hnil, if_neg hne, Option.getD_some, hzero,
    false_or]
  rfl

/-- nothing is left of a key of 0xff bytes -/
theorem bumpBack_tops {key : Bytes} (hkey : ∀ c ∈ key, c = 255) : bumpBack key = [] := by
  have hbump : ∀ cs : Bytes, (∀ c ∈ cs, c = 255) → bump 255 (· + 1) cs = [] := by
    intro cs
    induction cs with
    | nil => exact fun _ => rfl
    | cons c cs ih =>
      intro h
      rw [bump, if_pos (h c List.mem_cons_self)]
      exact ih fun d hd => h d (List.mem_cons_of_mem c hd)
  rw [bumpBack, hbump _ fun c hc => hkey c (List.mem_reverse.1 hc)]
  rfl

/-- the key itself is always addressed -/
theorem covers_self (key : Bytes) : (packKeyRange key plusOne).Covers key := by
  by_cases hkey : ∃ c ∈ key, c ≠ 255
  · exact (covers_plusOne_iff hkey key).2 List.prefix_rfl
  · have htops : bumpBack key = [] := bumpBack_tops fun c hc => not_not.1 fun hne => hkey ⟨c, hc, hne⟩
    simp only [KeyRange.Covers, packKeyRange, resolveRangeEnd, if_true, htops]
    split_ifs with hnil
    · rw [hnil]; rfl
    · rfl

/-- **"+1" means prefix, except behind a key of 0xff bytes.** The range end of such a key is left out, so the request
addresses the key alone. -/
theorem plusOne_prefix_iff {key : Bytes} (hkey : key ≠ []) :
    (∀ k, (packKeyRange key plusOne).Covers k ↔ key <+: k) ↔ ∃ c ∈ key, c ≠ 255 := by
  constructor
  · intro h
    by_contra hno
    have htops : bumpBack key = [] := bumpBack_tops fun c hc => not_not.1 fun hne => hno ⟨c, hc, hne⟩
    have hcovers : (packKeyRange key plusOne).Covers (key ++ [0]) := (h _).2 (List.prefix_append _ _)
    simp only [KeyRange.Covers, packKeyRange, resolveRangeEnd, if_true, htops, if_neg hkey, Option.getD_some] at hcovers
    have hlen := congrArg List.length hcovers
    rw [List.length_append, List.length_singleton] at hlen
    exact absurd hlen (Nat.succ_ne_self _)
  · exact fun h k => covers_plusOne_iff h k

theorem plusOne_prefix_slash :
    (∀ k, (packKeyRange [47, 255] plusOne).Covers k ↔ [47, 255] <+: k) ↔ ∃ c ∈ ([47, 255] : Bytes), c ≠ 255 :=
  plusOne_prefix_iff (by decide)

theorem plusOne_misses_prefix : [255] <+: ([255, 0] : Bytes) ∧ ¬ (packKeyRange [255] plusOne).Covers [255, 0] := by decide

example : packKeyRange [97, 255] plusOne = ⟨some [97, 255], some [98]⟩ := by decide

/-! ## Paths -/

/-- what the paths of a node are made of: `path_prefix` of the configuration and the node's own attributes -/
structure Node where
  pathPrefix : Bytes
  id : UInt64
  typeId : UInt64
  typeName : Bytes
  appName : Bytes
deriving DecidableEq, Repr

/-- a number as a stream writes it -/
def decimal (n : UInt64) : Bytes := (Nat.toDigits 10 n.toNat).map fun c => c.toNat.toUInt8

def ascii (s : String) : Bytes := s.toList.map fun c => c.toNat.toUInt8

def slash : Bytes := [47]

/-- `get_by_id_path` -/
def Node.byIdPath (n : Node) : Bytes := n.pathPrefix ++ ascii "by_id" ++ slash ++ decimal n.id

/-- `get_by_type_id_path` -/
def Node.byTypeIdPath (n : Node) : Bytes :=
  n.pathPrefix ++ ascii "by_type_id" ++ slash ++ decimal n.typeId ++ slash ++ decimal n.id

/-- `get_by_type_name_path` -/
def Node.byTypeNamePath (n : Node) : Bytes :=
  n.pathPrefix ++ ascii "by_type_name" ++ slash ++ n.typeName ++ slash ++ decimal n.id

/-- `get_by_name_path` -/
def Node.byNamePath (n : Node) : Bytes := n.pathPrefix ++ ascii "by_name" ++ slash ++ n.appName

/-- `get_by_tag_path` -/
def Node.byTagPath (n : Node) (tagName : Bytes) : Bytes :=
  n.pathPrefix ++ ascii "by_tag" ++ slash ++ tagName ++ slash ++ decimal n.id

/-- the path functions -/
inductive PathKind where
  | byId
  | byTypeId
  | byTypeName
  | byName
  | byTag (tagName : Bytes)
deriving DecidableEq, Repr

def Node.path (n : Node) : PathKind → Bytes
  | .byId => n.byIdPath
  | .byTypeId => n.byTypeIdPath
  | .byTypeName => n.byTypeNamePath
  | .byName => n.byNamePath
  | .byTag tagName => n.byTagPath tagName

theorem exists_ne_255_nodePath (n : Node) (kind : PathKind) : ∃ c ∈ n.path kind, c ≠ 255 := by
  refine ⟨47, ?_, by decide⟩
  cases kind <;>
    simp [Node.path, Node.byIdPath, Node.byTypeIdPath, Node.byTypeNamePath, Node.byNamePath, Node.byTagPath, slash]

end AtFrame.Etcd
