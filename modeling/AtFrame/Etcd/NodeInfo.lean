/-
What `etcd_module` publishes of a node (`pack`) and what it reads of a key and its value (`unpack`).

`unpack` fills the node member by member and gives up in the middle: `Except` carries the node as far as it was filled. The
characters of a string stand for its bytes. The JSON library and the number routine are parameters.

- `unpackObject_of_id`, `unpackObject_no_id`: the id is read before anything else can fail, and where it is there the object is
  read to its end exactly when it has all mandatory members and none of them, nor an optional name, is of another type;
- `unpack_fst_iff`: what the answer "true" means;
- `unpack_key`: without a value the id comes from the last part of the path;
- `unpack_pack`: what was packed is read back.
-/
import AtFrame.Etcd.WatchPaths
import Mathlib.Data.List.TakeWhile

namespace AtFrame.EtcdModule

open AtFrame.Etcd AtFrame.EtcdWatcher

/-! ## Model -/

/-- `node_action_t` -/
inductive NodeAction where
  | unknown
  | put
  | delete
deriving DecidableEq, Repr

/-- `node_info_t` -/
structure NodeInfo where
  id : UInt64 := 0
  name : String := ""
  hostname : String := ""
  listens : List String := []
  hashCode : String := ""
  typeId : UInt64 := 0
  typeName : String := ""
  version : String := ""
  customData : String := ""
  atbusProtocolVersion : UInt64 := 0
  atbusProtocolMinVersion : UInt64 := 0
  action : NodeAction := .unknown
deriving DecidableEq, Repr

structure NodeCodec extends Codec where
  /-- the document as `rapidjson::Writer` writes it -/
  write : Json → Bytes
  /-- `util::string::str2int` for an id: what the output holds before, and the text -/
  str2id : UInt64 → Bytes → UInt64

variable {C : NodeCodec}

/-- `GetString` -/
def cText (s : String) : String := String.ofList (s.toList.takeWhile (· ≠ Char.ofNat 0))

/-- `GetUint64` where `IsUint64` -/
def uint64 : Json → Option UInt64
  | .int n => if IsUint64 n then some (UInt64.ofNat n.toNat) else none
  | _ => none

/-- `GetString` where `IsString` -/
def text : Json → Option String
  | .string s => some (cText s)
  | _ => none

/-- the id; where it is no number it is cleared -/
def readId (doc : Json) (out : NodeInfo) : Except NodeInfo NodeInfo :=
  match doc.find "id" with
  | some v =>
    match uint64 v with
    | some id => .ok { out with id := id }
    | none => .error { out with id := 0 }
  | none => .error out

/-- a member that has to be a string, and is mandatory or may be missing -/
def readText (key : String) (mandatory : Bool) (set : NodeInfo → String → NodeInfo) (doc : Json) (out : NodeInfo) :
    Except NodeInfo NodeInfo :=
  match doc.find key with
  | some v =>
    match text v with
    | some s => .ok (set out s)
    | none => .error out
  | none => if mandatory then .error out else .ok out

/-- the strings of the array "listen" -/
def readListen (doc : Json) (out : NodeInfo) : NodeInfo :=
  match doc.find "listen" with
  | some (.array values) => { out with listens := out.listens ++ values.filterMap text }
  | _ => out

/-- the type; where it is no number it is cleared -/
def readTypeId (doc : Json) (out : NodeInfo) : NodeInfo :=
  match doc.find "type_id" with
  | some v => { out with typeId := (uint64 v).getD 0 }
  | none => out

/-- what is left out where it is of another type -/
def readLenient (doc : Json) (out : NodeInfo) : NodeInfo :=
  { out with
    customData := ((doc.find "custom_data").bind text).getD out.customData
    atbusProtocolVersion := ((doc.find "atbus-protocol-version").bind uint64).getD 0
    atbusProtocolMinVersion := ((doc.find "atbus-protocol-min-version").bind uint64).getD 0 }

/-- the members in the order in which they are read; an error is a `return false` -/
def unpackObject (doc : Json) (out : NodeInfo) : Except NodeInfo NodeInfo := do
  let out ← readId doc out
  let out ← readText "name" true (fun out s => { out with name := s }) doc out
  let out ← readText "hostname" false (fun out s => { out with hostname := s }) doc out
  let out := readListen doc out
  let out ← readText "hash_code" false (fun out s => { out with hashCode := s }) doc out
  let out := readTypeId doc out
  let out ← readText "type_name" false (fun out s => { out with typeName := s }) doc out
  let out ← readText "version" true (fun out s => { out with version := s }) doc out
  return readLenient doc out

def IsSeparator (c : UInt8) : Prop := c = 47 ∨ c = 92 ∨ c = 32 ∨ c = 9 ∨ c = 13 ∨ c = 10

instance : DecidablePred IsSeparator := fun _ => inferInstanceAs (Decidable (_ ∨ _))

/-- the path behind `start_idx` -/
def lastPart (path : Bytes) : Bytes := path.foldl (fun part c => if IsSeparator c then [] else part ++ [c]) []

/-- the id of a node, "if key is a number" -/
def NodeCodec.unpackKey (C : NodeCodec) (path : Bytes) (out : NodeInfo) : NodeInfo :=
  if lastPart path = [] then out else { out with id := C.str2id out.id (cString (lastPart path)) }

/-- `unpack`: what it returns, and the node -/
def NodeCodec.unpack (C : NodeCodec) (out : NodeInfo) (path json : Bytes) (resetData : Bool) : Bool × NodeInfo :=
  let out := if resetData then {} else out
  if json = [] then (false, C.unpackKey path out)
  else
    match C.parseObject json with
    | some doc =>
      match unpackObject doc out with
      | .ok out => (true, out)
      | .error out => (false, out)
    | none => (true, out)

/-- the document of `pack` -/
def NodeInfo.document (src : NodeInfo) : Json :=
  .object ([("id", .int src.id.toNat), ("name", .string src.name), ("hostname", .string src.hostname),
      ("listen", .array (src.listens.map .string)), ("hash_code", .string src.hashCode), ("type_id", .int src.typeId.toNat),
      ("type_name", .string src.typeName), ("version", .string src.version)] ++
    (if src.customData = "" then [] else [("custom_data", .string src.customData)]) ++
    [("atbus-protocol-version", .int src.atbusProtocolVersion.toNat),
      ("atbus-protocol-min-version", .int src.atbusProtocolMinVersion.toNat)])

/-- `pack` -/
def NodeCodec.pack (C : NodeCodec) (src : NodeInfo) : Bytes := C.write src.document

/-! ## Objects -/

/-- the member is missing or a string -/
def TextOrNone (doc : Json) (key : String) : Prop := ∀ v ∈ doc.find key, (text v).isSome

/-- all mandatory members are there, and no member is of a type that is rejected -/
structure Complete (doc : Json) : Prop where
  id : ∃ v, doc.find "id" = some v ∧ (uint64 v).isSome
  name : ∃ v, doc.find "name" = some v ∧ (text v).isSome
  version : ∃ v, doc.find "version" = some v ∧ (text v).isSome
  hostname : TextOrNone doc "hostname"
  hashCode : TextOrNone doc "hash_code"
  typeName : TextOrNone doc "type_name"

/-- what a mandatory or optional string asks of the document -/
def TextFits (doc : Json) (key : String) (mandatory : Bool) : Prop :=
  TextOrNone doc key ∧ (mandatory = true → (doc.find key).isSome)

/-- a step that keeps the id and goes on exactly where something holds of the document -/
def Reads (step : NodeInfo → Except NodeInfo NodeInfo) (P : Prop) : Prop :=
  ∀ out, (∃ out', step out = .ok out' ∧ out'.id = out.id ∧ P) ∨ ∃ out', step out = .error out' ∧ out'.id = out.id ∧ ¬ P

theorem Reads.bind {s t : NodeInfo → Except NodeInfo NodeInfo} {P Q : Prop} (hs : Reads s P) (ht : Reads t Q) :
    Reads (fun out => s out >>= t) (P ∧ Q) := by
  intro out
  rcases hs out with ⟨mid, hmid, hid, hP⟩ | ⟨mid, hmid, hid, hP⟩
  · rcases ht mid with ⟨last, hlast, hid', hQ⟩ | ⟨last, hlast, hid', hQ⟩
    · exact .inl ⟨last, (congrArg (· >>= t) hmid).trans hlast, hid'.trans hid, hP, hQ⟩
    · exact .inr ⟨last, (congrArg (· >>= t) hmid).trans hlast, hid'.trans hid, fun h => hQ h.2⟩
  · exact .inr ⟨mid, congrArg (· >>= t) hmid, hid, fun h => hP h.1⟩

theorem reads_ok {f : NodeInfo → NodeInfo} (hf : ∀ out, (f out).id = out.id) : Reads (fun out => .ok (f out)) True :=
  fun out => .inl ⟨f out, rfl, hf out, trivial⟩

theorem Reads.comp {t : NodeInfo → Except NodeInfo NodeInfo} {Q : Prop} (ht : Reads t Q) {f : NodeInfo → NodeInfo}
    (hf : ∀ out, (f out).id = out.id) : Reads (fun out => t (f out)) Q := by
  intro out
  have hread := ht (f out)
  rwa [hf] at hread

theorem reads_text {key : String} {mandatory : Bool} {set : NodeInfo → String → NodeInfo} {doc : Json}
    (hset : ∀ out s, (set out s).id = out.id) : Reads (readText key mandatory set doc) (TextFits doc key mandatory) := by
  intro out
  unfold readText
  cases hfind : doc.find key with
  | none =>
    cases mandatory with
    | true =>
      refine .inr ⟨out, rfl, rfl, fun h => ?_⟩
      have hsome := h.2 rfl
      rw [hfind] at hsome
      exact nomatch hsome
    | false =>
      refine .inl ⟨out, rfl, rfl, fun v hv => ?_, fun h => nomatch h⟩
      rw [hfind] at hv
      exact nomatch hv
  | some v =>
    cases htext : text v with
    | none =>
      refine .inr ⟨out, by simp only [htext], rfl, fun h => ?_⟩
      have hsome := h.1 v hfind
      rw [htext] at hsome
      exact nomatch hsome
    | some s =>
      refine .inl ⟨set out s, by simp only [htext], hset out s, fun w hw => ?_, fun _ => by rw [hfind]; rfl⟩
      rw [hfind] at hw
      cases hw
      rw [htext]
      rfl

theorem readListen_id (doc : Json) (out : NodeInfo) : (readListen doc out).id = out.id := by
  unfold readListen
  split <;> rfl

theorem readTypeId_id (doc : Json) (out : NodeInfo) : (readTypeId doc out).id = out.id := by
  unfold readTypeId
  split <;> rfl

/-- the steps behind the id -/
theorem reads_rest (doc : Json) : Reads
    (fun out => do
      let out ← readText "name" true (fun out s => { out with name := s }) doc out
      let out ← readText "hostname" false (fun out s => { out with hostname := s }) doc out
      let out := readListen doc out
      let out ← readText "hash_code" false (fun out s => { out with hashCode := s }) doc out
      let out := readTypeId doc out
      let out ← readText "type_name" false (fun out s => { out with typeName := s }) doc out
      let out ← readText "version" true (fun out s => { out with version := s }) doc out
      return readLenient doc out)
    (TextFits doc "name" true ∧ TextFits doc "hostname" false ∧ TextFits doc "hash_code" false ∧
      TextFits doc "type_name" false ∧ TextFits doc "version" true ∧ True) := by
  have hname : Reads (readText "name" true (fun out s => { out with name := s }) doc) _ := reads_text fun _ _ => rfl
  have hhost : Reads (readText "hostname" false (fun out s => { out with hostname := s }) doc) _ :=
    reads_text fun _ _ => rfl
  have hhash : Reads (readText "hash_code" false (fun out s => { out with hashCode := s }) doc) _ :=
    reads_text fun _ _ => rfl
  have htype : Reads (readText "type_name" false (fun out s => { out with typeName := s }) doc) _ :=
    reads_text fun _ _ => rfl
  have hversion : Reads (readText "version" true (fun out s => { out with version := s }) doc) _ :=
    reads_text fun _ _ => rfl
  have hend : Reads (fun out => .ok (readLenient doc out)) True := reads_ok fun _ => rfl
  have hlast := (htype.bind (hversion.bind hend)).comp (readTypeId_id doc)
  exact hname.bind (hhost.bind ((hhash.bind hlast).comp (readListen_id doc)))

theorem textFits_true_iff {doc : Json} {key : String} :
    TextFits doc key true ↔ ∃ v, doc.find key = some v ∧ (text v).isSome := by
  constructor
  · intro h
    obtain ⟨v, hv⟩ := Option.isSome_iff_exists.1 (h.2 rfl)
    exact ⟨v, hv, h.1 v hv⟩
  · rintro ⟨v, hv, htext⟩
    refine ⟨fun w hw => ?_, fun _ => by rw [hv]; rfl⟩
    rw [hv] at hw
    cases hw
    exact htext

theorem textFits_false_iff {doc : Json} {key : String} : TextFits doc key false ↔ TextOrNone doc key :=
  ⟨fun h => h.1, fun h => ⟨h, fun hfalse => nomatch hfalse⟩⟩

/-- where the id is a number it is set, and the rest decides whether the object is read to its end -/
theorem unpackObject_of_id {doc v : Json} {id : UInt64} (hv : doc.find "id" = some v) (hid : uint64 v = some id)
    (out : NodeInfo) :
    (∃ out', unpackObject doc out = .ok out' ∧ out'.id = id ∧ Complete doc) ∨
      ∃ out', unpackObject doc out = .error out' ∧ out'.id = id ∧ ¬ Complete doc := by
  have hread : readId doc out = .ok { out with id := id } := by
    unfold readId
    simp only [hv, hid]
  have hiff : Complete doc ↔ TextFits doc "name" true ∧ TextFits doc "hostname" false ∧ TextFits doc "hash_code" false ∧
      TextFits doc "type_name" false ∧ TextFits doc "version" true ∧ True := by
    rw [textFits_true_iff, textFits_true_iff, textFits_false_iff, textFits_false_iff, textFits_false_iff]
    exact ⟨fun h => ⟨h.name, h.hostname, h.hashCode, h.typeName, h.version, trivial⟩,
      fun h => ⟨⟨v, hv, by rw [hid]; rfl⟩, h.1, h.2.2.2.2.1, h.2.1, h.2.2.1, h.2.2.2.1⟩⟩
  rw [unpackObject, hread, hiff]
  exact reads_rest doc { out with id := id }

/-- where the id is missing or no number nothing else is read -/
theorem unpackObject_no_id {doc : Json} (h : (doc.find "id").bind uint64 = none) (out : NodeInfo) :
    (∃ out', unpackObject doc out = .error out' ∧ (out.id = 0 → out'.id = 0)) ∧ ¬ Complete doc := by
  constructor
  · unfold unpackObject readId
    cases hfind : doc.find "id" with
    | none => exact ⟨out, rfl, id⟩
    | some v =>
      rw [hfind, Option.bind_some] at h
      exact ⟨{ out with id := 0 }, by simp only [h]; rfl, fun _ => rfl⟩
  · intro hcomplete
    obtain ⟨v, hv, hnum⟩ := hcomplete.id
    rw [hv, Option.bind_some] at h
    rw [h] at hnum
    exact nomatch hnum

/-! ## Ids -/

/-- the id that a value shows, 0 where it is no object with a number under "id" -/
def NodeCodec.shownId (C : NodeCodec) (json : Bytes) : UInt64 :=
  ((C.parseObject json).bind fun doc => (doc.find "id").bind uint64).getD 0

/-- the id that a key shows -/
def NodeCodec.keyId (C : NodeCodec) (path : Bytes) : UInt64 :=
  if lastPart path = [] then 0 else C.str2id 0 (cString (lastPart path))

theorem unpack_key (C : NodeCodec) (out : NodeInfo) (path : Bytes) : (C.unpack out path [] true).2.id = C.keyId path := by
  unfold NodeCodec.unpack NodeCodec.unpackKey NodeCodec.keyId
  simp only [if_true]
  split_ifs <;> rfl

theorem unpack_value (C : NodeCodec) (out : NodeInfo) (path : Bytes) {json : Bytes} (hjson : json ≠ []) :
    (C.unpack out path json true).2.id = C.shownId json := by
  unfold NodeCodec.unpack NodeCodec.shownId
  simp only [if_true, if_neg hjson]
  cases C.parseObject json with
  | none => rfl
  | some doc =>
    rw [Option.bind_some]
    cases hid : (doc.find "id").bind uint64 with
    | none =>
      obtain ⟨⟨out', hout, hzero⟩, -⟩ := unpackObject_no_id hid {}
      simp only [hout, hzero, Option.getD_none]
    | some id =>
      obtain ⟨v, hv, hnum⟩ := Option.bind_eq_some_iff.1 hid
      rcases unpackObject_of_id hv hnum {} with ⟨out', hout, hset, -⟩ | ⟨out', hout, hset, -⟩
      · simp only [hout, hset, Option.getD_some]
      · simp only [hout, hset, Option.getD_some]

/-- **What "true" means**: the value was read to its end, or it is no object at all. -/
theorem unpack_fst_iff (C : NodeCodec) (out : NodeInfo) (path : Bytes) {json : Bytes} (hjson : json ≠ []) (reset : Bool) :
    (C.unpack out path json reset).1 = true ↔ ∀ doc ∈ C.parseObject json, Complete doc := by
  unfold NodeCodec.unpack
  simp only [if_neg hjson]
  cases C.parseObject json with
  | none => exact iff_of_true rfl fun _ h => nomatch h
  | some doc =>
    simp only [Option.mem_some_iff, forall_eq']
    set start : NodeInfo := if reset = true then {} else out
    cases hid : (doc.find "id").bind uint64 with
    | none =>
      obtain ⟨⟨out', hout, -⟩, hincomplete⟩ := unpackObject_no_id hid start
      simp only [hout, hincomplete, Bool.false_eq_true]
    | some id =>
      obtain ⟨v, hv, hnum⟩ := Option.bind_eq_some_iff.1 hid
      rcases unpackObject_of_id hv hnum start with ⟨out', hout, -, hcomplete⟩ | ⟨out', hout, -, hcomplete⟩
      · simp only [hout, hcomplete]
      · simp only [hout, hcomplete, Bool.false_eq_true]

/-! ## Paths -/

/-- only what is behind a slash counts -/
theorem lastPart_slash (a b : Bytes) : lastPart (a ++ slash ++ b) = lastPart b := by
  unfold lastPart
  rw [List.foldl_append, List.foldl_append]
  rfl

theorem lastPart_plain {b : Bytes} (hb : ∀ c ∈ b, ¬ IsSeparator c) : lastPart b = b := by
  have hfold : ∀ part : Bytes, b.foldl (fun part c => if IsSeparator c then [] else part ++ [c]) part = part ++ b := by
    induction b with
    | nil => exact fun part => (List.append_nil part).symm
    | cons c b ih =>
      intro part
      rw [List.foldl_cons, if_neg (hb c List.mem_cons_self), ih (fun d hd => hb d (List.mem_cons_of_mem c hd)),
        List.append_assoc, List.singleton_append]
  exact hfold []

theorem lastPart_decimal (a : Bytes) (n : UInt64) : lastPart (a ++ slash ++ decimal n) = decimal n := by
  rw [lastPart_slash, lastPart_plain]
  rintro c hc (rfl | rfl | rfl | rfl | rfl | rfl) <;> exact absurd (mem_decimal hc) (by decide)

theorem cString_decimal (n : UInt64) : cString (decimal n) = decimal n := by
  refine List.takeWhile_eq_self_iff.2 fun c hc => ?_
  rw [decide_eq_true_eq]
  rintro rfl
  exact absurd (mem_decimal hc).1 (by decide)

/-! ## Round trip -/

/-- the document of a node is read from what was written -/
def NodeCodec.RoundTrips (C : NodeCodec) (src : NodeInfo) : Prop :=
  C.pack src ≠ [] ∧ C.parseObject (C.pack src) = some src.document

theorem uint64_toNat (n : UInt64) : uint64 (.int n.toNat) = some n := by
  have hn : IsUint64 n.toNat := ⟨Int.natCast_nonneg _, by exact_mod_cast n.toNat_lt⟩
  rw [uint64, if_pos hn, Int.toNat_natCast, UInt64.ofNat_toNat]

theorem shownId_pack {src : NodeInfo} (hsrc : C.RoundTrips src) : C.shownId (C.pack src) = src.id := by
  rw [NodeCodec.shownId, hsrc.2, Option.bind_some]
  have hfind : src.document.find "id" = some (.int src.id.toNat) := rfl
  rw [hfind, Option.bind_some, uint64_toNat, Option.getD_some]

/-- no string of the node has a NUL -/
def NodeInfo.Plain (src : NodeInfo) : Prop :=
  ∀ s ∈ [src.name, src.hostname, src.hashCode, src.typeName, src.version, src.customData] ++ src.listens,
    Char.ofNat 0 ∉ s.toList

theorem cText_plain {s : String} (hs : Char.ofNat 0 ∉ s.toList) : cText s = s := by
  rw [cText, List.takeWhile_eq_self_iff.2, String.ofList_toList]
  intro c hc
  rw [decide_eq_true_eq]
  rintro rfl
  exact hs hc

theorem text_plain {s : String} (hs : Char.ofNat 0 ∉ s.toList) : text (.string s) = some s := by rw [text, cText_plain hs]

theorem filterMap_text {ss : List String} (hss : ∀ s ∈ ss, Char.ofNat 0 ∉ s.toList) : (ss.map .string).filterMap text = ss := by
  rw [List.filterMap_map]
  refine (List.filterMap_congr fun s hs => ?_).trans List.filterMap_some
  exact text_plain (hss s hs)

/-- the last members of a document; the first of them may be left out -/
theorem find_tail (src : NodeInfo) :
    src.document.find "custom_data" = (if src.customData = "" then none else some (.string src.customData)) ∧
      src.document.find "atbus-protocol-version" = some (.int src.atbusProtocolVersion.toNat) ∧
      src.document.find "atbus-protocol-min-version" = some (.int src.atbusProtocolMinVersion.toNat) := by
  unfold NodeInfo.document
  split_ifs with hempty
  · exact ⟨rfl, rfl, rfl⟩
  · exact ⟨rfl, rfl, rfl⟩

theorem readText_found {doc : Json} {key t : String} (hfind : doc.find key = some (.string t)) (ht : text (.string t) = some t)
    (mandatory : Bool) (set : NodeInfo → String → NodeInfo) :
    readText key mandatory set doc = fun out => .ok (set out t) := by
  funext out
  simp only [readText, hfind, ht]

theorem readId_found {doc v : Json} {id : UInt64} (hfind : doc.find "id" = some v) (hnum : uint64 v = some id) :
    readId doc = fun out => .ok { out with id := id } := by
  funext out
  simp only [readId, hfind, hnum]

theorem readTypeId_found {doc v : Json} {typeId : UInt64} (hfind : doc.find "type_id" = some v)
    (hnum : uint64 v = some typeId) : readTypeId doc = fun out => { out with typeId := typeId } := by
  funext out
  simp only [readTypeId, hfind, hnum, Option.getD_some]

theorem readLenient_document {src : NodeInfo} (hcustom : text (.string src.customData) = some src.customData) {out : NodeInfo}
    (hout : out.customData = "") : readLenient src.document out =
      { out with customData := src.customData, atbusProtocolVersion := src.atbusProtocolVersion,
                 atbusProtocolMinVersion := src.atbusProtocolMinVersion } := by
  obtain ⟨hc, hv, hm⟩ := find_tail src
  have hdata : ((src.document.find "custom_data").bind text).getD out.customData = src.customData := by
    rw [hc, hout]
    split_ifs with hempty
    · exact hempty.symm
    · rw [Option.bind_some, hcustom, Option.getD_some]
  unfold readLenient
  rw [hdata, hv, hm, Option.bind_some, Option.bind_some, uint64_toNat, uint64_toNat, Option.getD_some, Option.getD_some]

/-- the steps, each with what it finds -/
theorem unpackObject_found {doc : Json} {id typeId : UInt64} {name hostname hashCode typeName version : String}
    {listens : List String} (hid : readId doc = fun out => .ok { out with id := id })
    (hname : doc.find "name" = some (.string name) ∧ text (.string name) = some name)
    (hhost : doc.find "hostname" = some (.string hostname) ∧ text (.string hostname) = some hostname)
    (hlisten : readListen doc = fun out => { out with listens := out.listens ++ listens })
    (hhash : doc.find "hash_code" = some (.string hashCode) ∧ text (.string hashCode) = some hashCode)
    (htypeId : readTypeId doc = fun out => { out with typeId := typeId })
    (htype : doc.find "type_name" = some (.string typeName) ∧ text (.string typeName) = some typeName)
    (hversion : doc.find "version" = some (.string version) ∧ text (.string version) = some version) :
    unpackObject doc {} = .ok (readLenient doc
      { id := id, name := name, hostname := hostname, listens := listens, hashCode := hashCode, typeId := typeId,
        typeName := typeName, version := version }) := by
  rw [unpackObject, hid, readText_found hname.1 hname.2, readText_found hhost.1 hhost.2, hlisten,
    readText_found hhash.1 hhash.2, htypeId, readText_found htype.1 htype.2, readText_found hversion.1 hversion.2]
  rfl

theorem unpackObject_document {src : NodeInfo} (hplain : src.Plain) :
    unpackObject src.document {} = .ok { src with action := .unknown } := by
  have hmem : ∀ s ∈ [src.name, src.hostname, src.hashCode, src.typeName, src.version, src.customData],
      text (.string s) = some s := fun s hs => text_plain (hplain s (List.mem_append_left _ hs))
  have hlist : (src.listens.map .string).filterMap text = src.listens :=
    filterMap_text fun s hs => hplain s (List.mem_append_right _ hs)
  simp only [List.forall_mem_cons, List.not_mem_nil, false_implies, implies_true, and_true] at hmem
  obtain ⟨hname, hhost, hhash, htype, hversion, hcustom⟩ := hmem
  have hlisten : readListen src.document = fun out => { out with listens := out.listens ++ src.listens } := by
    funext out
    exact congrArg (fun listens => { out with listens := out.listens ++ listens }) hlist
  have hlast := @readLenient_document src hcustom
    { id := src.id, name := src.name, hostname := src.hostname, listens := src.listens, hashCode := src.hashCode,
      typeId := src.typeId, typeName := src.typeName, version := src.version } rfl
  have hread := unpackObject_found (readId_found rfl (uint64_toNat src.id)) ⟨rfl, hname⟩ ⟨rfl, hhost⟩ hlisten ⟨rfl, hhash⟩
    (readTypeId_found rfl (uint64_toNat src.typeId)) ⟨rfl, htype⟩ ⟨rfl, hversion⟩
  exact hread.trans (congrArg Except.ok hlast)

theorem unpack_eq_of_object {json : Bytes} (hjson : json ≠ []) {doc : Json} (hdoc : C.parseObject json = some doc)
    {read : NodeInfo} (hread : unpackObject doc {} = .ok read) (out : NodeInfo) (path : Bytes) :
    C.unpack out path json true = (true, read) := by
  unfold NodeCodec.unpack
  simp only [if_true, if_neg hjson, hdoc, hread]

/-- **Round trip.** What was packed is read to its end, and all members are what they were. -/
theorem unpack_pack {src : NodeInfo} (hsrc : C.RoundTrips src) (hplain : src.Plain) (out : NodeInfo) (path : Bytes) :
    C.unpack out path (C.pack src) true = (true, { src with action := .unknown }) :=
  unpack_eq_of_object hsrc.1 hsrc.2 (unpackObject_document hplain) out path

end AtFrame.EtcdModule
