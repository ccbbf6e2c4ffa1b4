/-
What the watchers of `etcd_module` see: those of one type id, one type name or one tag watch the range "+1" of a path that
ends in the number or the name, without a separator behind it, those by id and by name that of a directory.

- `watches_all`: the watchers by id and by name see every node, and what else begins with their paths;
- `covers_group_iff`: such a watcher sees the nodes whose number or name starts with the watched one;
- `watches_only_iff`: it sees exactly the nodes of its type or tag unless a number or a name is longer and starts so;
- `watcher_sees_type_ten`: the watcher of type 1 sees a node of type 10.

Premises: the watcher and the node are of one path prefix, and the names watched have no slash. Whether a watcher sees too much is
decided for each node: the theorem says of which nodes it does.
-/
import AtFrame.Etcd.Watcher
import AtFrame.Lib.Digits

namespace AtFrame.EtcdModule

open AtFrame.Etcd AtFrame.EtcdWatcher AtFrame.Lib

/-! ## Watchers -/

/-- what the watchers need of `conf_t`; times in nanoseconds -/
structure Conf where
  pathPrefix : Bytes
  watcherRetryInterval : ℤ := 15000000000
  watcherRequestTimeout : ℤ := 3600000000000
deriving DecidableEq, Repr

/-- `get_by_id_watcher_path` -/
def Conf.byIdWatcherPath (conf : Conf) : Bytes := conf.pathPrefix ++ ascii "by_id"

/-- `get_by_type_id_watcher_path` -/
def Conf.byTypeIdWatcherPath (conf : Conf) (typeId : UInt64) : Bytes :=
  conf.pathPrefix ++ ascii "by_type_id" ++ slash ++ decimal typeId

/-- `get_by_type_name_watcher_path` -/
def Conf.byTypeNameWatcherPath (conf : Conf) (typeName : Bytes) : Bytes :=
  conf.pathPrefix ++ ascii "by_type_name" ++ slash ++ typeName

/-- `get_by_name_watcher_path` -/
def Conf.byNameWatcherPath (conf : Conf) : Bytes := conf.pathPrefix ++ ascii "by_name"

/-- `get_by_tag_watcher_path` -/
def Conf.byTagWatcherPath (conf : Conf) (tagName : Bytes) : Bytes := conf.pathPrefix ++ ascii "by_tag" ++ slash ++ tagName

/-- the watcher that is created for a path, with the times of the configuration -/
def Conf.watcher (conf : Conf) (watchPath : Bytes) : Watcher where
  path := watchPath
  rangeEnd := plusOne
  requestTimeout := conf.watcherRequestTimeout
  retryInterval := conf.watcherRetryInterval

/-- the watcher of `add_watcher_by_id` -/
def Conf.addWatcherById (conf : Conf) : Watcher := conf.watcher conf.byIdWatcherPath

/-- the watcher of `add_watcher_by_type_id` -/
def Conf.addWatcherByTypeId (conf : Conf) (typeId : UInt64) : Watcher := conf.watcher (conf.byTypeIdWatcherPath typeId)

/-- the watcher of `add_watcher_by_type_name` -/
def Conf.addWatcherByTypeName (conf : Conf) (typeName : Bytes) : Watcher :=
  conf.watcher (conf.byTypeNameWatcherPath typeName)

/-- the watcher of `add_watcher_by_name` -/
def Conf.addWatcherByName (conf : Conf) : Watcher := conf.watcher conf.byNameWatcherPath

/-- the watcher of `add_watcher_by_tag`, which keeps the times it is created with -/
def Conf.addWatcherByTag (conf : Conf) (tagName : Bytes) : Watcher where
  path := conf.byTagWatcherPath tagName
  rangeEnd := plusOne

/-! ## Numbers in paths -/

/-- a digit of a number as a byte -/
theorem toNat_digit {n : ℕ} {c : Char} (h : c ∈ Nat.toDigits 10 n) :
    c.toNat.toUInt8.toNat = c.toNat ∧ 48 ≤ c.toNat ∧ c.toNat ≤ 57 := by
  have hdigit : 48 ≤ c.toNat ∧ c.toNat ≤ 57 :=
    Char.isDigit_iff_toNat.1 (Nat.isDigit_of_mem_toDigits (by decide) (by decide) h)
  refine ⟨?_, hdigit⟩
  rw [Nat.toUInt8_eq, UInt8.toNat_ofNat']
  exact Nat.mod_eq_of_lt (lt_of_le_of_lt hdigit.2 (by decide))

theorem mem_decimal {n : UInt64} {c : UInt8} (h : c ∈ decimal n) : 48 ≤ c.toNat ∧ c.toNat ≤ 57 := by
  obtain ⟨d, hd, rfl⟩ := List.mem_map.1 h
  obtain ⟨hbyte, hdigit⟩ := toNat_digit hd
  rwa [hbyte]

/-- the text of a number is read back byte by byte -/
theorem map_decimal (n : UInt64) : (decimal n).map (fun c => Char.ofNat c.toNat) = Nat.toDigits 10 n.toNat := by
  rw [decimal, List.map_map]
  refine (List.map_congr_left fun c hc => ?_).trans (List.map_id _)
  rw [Function.comp_apply, (toNat_digit hc).1, Char.ofNat_toNat, id_eq]

theorem decimal_ne_nil (n : UInt64) : decimal n ≠ [] := by
  rw [decimal, Ne, List.map_eq_nil_iff]
  exact Nat.toDigits_ne_nil

/-- and so is its value -/
theorem foldl_decimal (n : UInt64) : (decimal n).foldl (fun m c => 10 * m + (c.toNat - 48)) 0 = n.toNat := by
  have hbytes : ∀ cs : List Char, (∀ c ∈ cs, c.toNat.toUInt8.toNat = c.toNat) → ∀ m : ℕ,
      (cs.map fun c => c.toNat.toUInt8).foldl (fun m c => 10 * m + (c.toNat - 48)) m = Nat.ofDigitChars 10 cs m := by
    intro cs
    induction cs with
    | nil => exact fun _ m => rfl
    | cons c cs ih =>
      intro h m
      rw [List.map_cons, List.foldl_cons, Nat.ofDigitChars_cons, ih (fun d hd => h d (List.mem_cons_of_mem c hd)),
        h c List.mem_cons_self]
      rfl
  rw [decimal, hbytes _ fun c hc => (toNat_digit hc).1]
  exact Nat.ofDigitChars_ten_toDigits

theorem decimal_prefix_iff {t m : UInt64} : decimal t <+: decimal m ↔
    t = m ∨ 0 < t.toNat ∧ ∃ j, 0 < j ∧ m.toNat / 10 ^ j = t.toNat := by
  rw [← UInt64.toNat_inj, ← toDigits_prefix_iff (by decide) (by decide)]
  constructor
  · intro h
    have hmap := h.map fun c : UInt8 => Char.ofNat c.toNat
    rwa [map_decimal, map_decimal] at hmap
  · exact fun h => h.map _

/-! ## What is seen -/

/-- a text is longer than another one and starts with it -/
def Continues (v t : Bytes) : Prop := t <+: v ∧ v ≠ t

/-- in front of a separator only the name before it counts -/
theorem prefix_slash_iff {t : Bytes} (ht : 47 ∉ t) (v rest : Bytes) : t <+: v ++ slash ++ rest ↔ t <+: v := by
  constructor
  · intro h
    rcases Nat.lt_or_ge v.length t.length with hlt | hge
    · have hslash : v ++ slash <+: t :=
        List.prefix_of_prefix_length_le (List.prefix_append _ _) h (by rwa [List.length_append])
      exact absurd (hslash.subset (List.mem_append_right v (List.mem_singleton_self 47))) ht
    · rw [List.append_assoc] at h
      exact List.prefix_of_prefix_length_le h (List.prefix_append _ _) hge
  · intro h
    rw [List.append_assoc]
    exact h.trans (List.prefix_append _ _)

/-- **A watcher of one group** sees the nodes of the groups whose name starts with the watched one. -/
theorem covers_group_iff (dir : Bytes) {t : Bytes} (ht : 47 ∉ t) (v rest : Bytes) :
    (packKeyRange (dir ++ slash ++ t) plusOne).Covers (dir ++ slash ++ v ++ slash ++ rest) ↔ t <+: v := by
  have hslash : ∃ c ∈ dir ++ slash ++ t, c ≠ 255 :=
    ⟨47, List.mem_append_left t (List.mem_append_right dir (List.mem_singleton_self 47)), by decide⟩
  rw [covers_plusOne_iff hslash, List.append_assoc (dir ++ slash) v, List.append_assoc (dir ++ slash),
    List.prefix_append_right_inj, prefix_slash_iff ht]

/-- **The watchers by id and by name** see every node below the prefix. What else they see begins with the name of the directory,
as a key of a directory whose name is longer does. -/
theorem watches_all {conf : Conf} {n : Node} (hn : n.pathPrefix = conf.pathPrefix) :
    (conf.addWatcherById.range.Covers n.byIdPath ∧
        ∀ key, conf.addWatcherById.range.Covers key ↔ conf.pathPrefix ++ ascii "by_id" <+: key) ∧
      conf.addWatcherByName.range.Covers n.byNamePath ∧
        ∀ key, conf.addWatcherByName.range.Covers key ↔ conf.pathPrefix ++ ascii "by_name" <+: key := by
  have hid : ∀ key, conf.addWatcherById.range.Covers key ↔ conf.pathPrefix ++ ascii "by_id" <+: key :=
    covers_plusOne_iff ⟨98, List.mem_append_right _ (by decide), by decide⟩
  have hname : ∀ key, conf.addWatcherByName.range.Covers key ↔ conf.pathPrefix ++ ascii "by_name" <+: key :=
    covers_plusOne_iff ⟨98, List.mem_append_right _ (by decide), by decide⟩
  refine ⟨⟨(hid _).2 ?_, hid⟩, (hname _).2 ?_, hname⟩
  · rw [Node.byIdPath, hn, List.append_assoc]
    exact List.prefix_append _ _
  · rw [Node.byNamePath, hn, List.append_assoc]
    exact List.prefix_append _ _

theorem not_mem_decimal (n : UInt64) : 47 ∉ decimal n := by
  intro h
  exact absurd (mem_decimal h).1 (by decide)

theorem sees_only_iff (v t : Bytes) : ((t <+: v) ↔ v = t) ↔ ¬ Continues v t := by
  constructor
  · exact fun h hc => hc.2 (h.1 hc.1)
  · intro h
    refine ⟨fun hp => not_not.1 fun hne => h ⟨hp, hne⟩, ?_⟩
    rintro rfl
    exact List.prefix_rfl

/-- **A watcher of one type or tag sees only this type or tag** unless the id of another type is its own with more digits
behind it, or the name of another type or tag is its own with more letters behind it. -/
theorem watches_only_iff {conf : Conf} {n : Node} (hn : n.pathPrefix = conf.pathPrefix) (typeId : UInt64)
    {typeName : Bytes} (hname : 47 ∉ typeName) {tag : Bytes} (htag : 47 ∉ tag) (nodeTag : Bytes) :
    (((conf.addWatcherByTypeId typeId).range.Covers n.byTypeIdPath ↔ n.typeId = typeId) ↔
      ¬ (0 < typeId.toNat ∧ ∃ j, 0 < j ∧ n.typeId.toNat / 10 ^ j = typeId.toNat)) ∧
    (((conf.addWatcherByTypeName typeName).range.Covers n.byTypeNamePath ↔ n.typeName = typeName) ↔
      ¬ Continues n.typeName typeName) ∧
    (((conf.addWatcherByTag tag).range.Covers (n.byTagPath nodeTag) ↔ nodeTag = tag) ↔ ¬ Continues nodeTag tag) := by
  have hid : (conf.addWatcherByTypeId typeId).range.Covers n.byTypeIdPath ↔ decimal typeId <+: decimal n.typeId := by
    rw [Node.byTypeIdPath, hn]
    exact covers_group_iff _ (not_mem_decimal typeId) _ _
  have htype : (conf.addWatcherByTypeName typeName).range.Covers n.byTypeNamePath ↔ typeName <+: n.typeName := by
    rw [Node.byTypeNamePath, hn]
    exact covers_group_iff _ hname _ _
  have hlabel : (conf.addWatcherByTag tag).range.Covers (n.byTagPath nodeTag) ↔ tag <+: nodeTag := by
    rw [Node.byTagPath, hn]
    exact covers_group_iff _ htag _ _
  rw [hid, htype, hlabel, decimal_prefix_iff]
  refine ⟨?_, sees_only_iff _ _, sees_only_iff _ _⟩
  constructor
  · rintro h ⟨hpos, j, hj, hdiv⟩
    have heq : n.typeId = typeId := h.1 (.inr ⟨hpos, j, hj, hdiv⟩)
    rw [heq] at hdiv
    exact div_pow_ne (by decide) hpos hj hdiv
  · exact fun h => ⟨fun hp => (hp.resolve_right h).symm, fun heq => .inl heq.symm⟩

/-- a node of the type 10 -/
def serverNode : Node where
  pathPrefix := ascii "/at/"
  id := 7
  typeId := 10
  typeName := ascii "gateway"
  appName := ascii "gw-7"

def serverConf : Conf := { pathPrefix := ascii "/at/" }

theorem watches_only_server :
    (((serverConf.addWatcherByTypeId 2).range.Covers serverNode.byTypeIdPath ↔ serverNode.typeId = 2) ↔
      ¬ (0 < (2 : UInt64).toNat ∧ ∃ j, 0 < j ∧ serverNode.typeId.toNat / 10 ^ j = (2 : UInt64).toNat)) ∧
    (((serverConf.addWatcherByTypeName (ascii "gate")).range.Covers serverNode.byTypeNamePath ↔
        serverNode.typeName = ascii "gate") ↔
      ¬ Continues serverNode.typeName (ascii "gate")) ∧
    (((serverConf.addWatcherByTag (ascii "eu")).range.Covers (serverNode.byTagPath (ascii "eu")) ↔ ascii "eu" = ascii "eu") ↔
      ¬ Continues (ascii "eu") (ascii "eu")) :=
  watches_only_iff rfl 2 (by decide) (by decide) (ascii "eu")

theorem watcher_sees_type_ten :
    (serverConf.addWatcherByTypeId 1).range.Covers serverNode.byTypeIdPath ∧ serverNode.typeId ≠ 1 := by
  decide +kernel

end AtFrame.EtcdModule
