/-
Texts of documents of objects, arrays, strings and 64 bit unsigned numbers, as `rapidjson::Writer` writes them, and a reader
for them.

Nothing of the model uses either. They are routines for the parameters of a `Codec` that one can compute with.

- `readJson_writeJson`: what is written is read back;
- `zero_not_mem_writeJson`: it has no NUL.
-/
import AtFrame.Etcd.WatchPaths
import AtFrame.Lib.Reading

namespace AtFrame.EtcdWatcher

open AtFrame.Etcd AtFrame.EtcdModule AtFrame.Lib

/-! ## Characters -/

def hexDigit (d : ℕ) : UInt8 := if d < 10 then (48 + d).toUInt8 else (55 + d).toUInt8

def hexValue (c : UInt8) : ℕ := if c.toNat < 65 then c.toNat - 48 else if c.toNat < 97 then c.toNat - 55 else c.toNat - 87

/-- sixteen bits behind "\u" -/
def writeUnit (u : ℕ) : Bytes :=
  [92, 117, hexDigit (u / 4096 % 16), hexDigit (u / 256 % 16), hexDigit (u / 16 % 16), hexDigit (u % 16)]

def readUnit : Reader UInt8 ℕ
  | 92 :: 117 :: a :: b :: c :: d :: rest =>
    some (4096 * hexValue a + 256 * hexValue b + 16 * hexValue c + hexValue d, rest)
  | _ => none

/-- the characters that are written as a backslash and another one -/
def shortEscapes : List (ℕ × UInt8) := [(34, 34), (92, 92), (8, 98), (12, 102), (10, 110), (13, 114), (9, 116)]

def writeChar (c : Char) : Bytes :=
  match shortEscapes.find? fun s => s.1 = c.toNat with
  | some s => [92, s.2]
  | none =>
    if c.toNat < 32 then writeUnit c.toNat
    else if c.toNat < 256 then [c.toNat.toUInt8]
    else if c.toNat < 65536 then writeUnit c.toNat
    else writeUnit (55296 + (c.toNat - 65536) / 1024) ++ writeUnit (56320 + (c.toNat - 65536) % 1024)

def readChar (text : Bytes) : Option (Char × Bytes) :=
  match readUnit text with
  | some (u, rest) =>
    -- the first half of a pair
    if 55296 ≤ u ∧ u < 56320 then
      (readUnit rest).map fun r => (Char.ofNat (65536 + (u - 55296) * 1024 + (r.1 - 56320)), r.2)
    else some (Char.ofNat u, rest)
  | none =>
    match text with
    | [] => none
    | c :: rest =>
      if c = 92 then
        match rest with
        | [] => none
        | d :: rest => (shortEscapes.find? fun s => s.2 = d).map fun s => (Char.ofNat s.1, rest)
      else some (Char.ofNat c.toNat, rest)

theorem hexValue_hexDigit {d : ℕ} (hd : d < 16) : hexValue (hexDigit d) = d := by
  interval_cases d <;> decide

theorem readUnit_writeUnit {u : ℕ} (hu : u < 65536) (rest : Bytes) : readUnit (writeUnit u ++ rest) = some (u, rest) := by
  simp only [writeUnit, List.cons_append, List.nil_append, readUnit]
  rw [hexValue_hexDigit (Nat.mod_lt _ (by decide)), hexValue_hexDigit (Nat.mod_lt _ (by decide)),
    hexValue_hexDigit (Nat.mod_lt _ (by decide)), hexValue_hexDigit (Nat.mod_lt _ (by decide))]
  have hsum : 4096 * (u / 4096 % 16) + 256 * (u / 256 % 16) + 16 * (u / 16 % 16) + u % 16 = u := by omega
  rw [hsum]

theorem readUnit_other {c : UInt8} (hc : c ≠ 92) (rest : Bytes) : readUnit (c :: rest) = none := by
  unfold readUnit
  split
  · next heq => exact absurd (List.cons.inj heq).1 hc
  · rfl

theorem readUnit_short {c : UInt8} (hc : c ≠ 117) (rest : Bytes) : readUnit (92 :: c :: rest) = none := by
  unfold readUnit
  split
  · next heq => exact absurd (List.cons.inj (List.cons.inj heq).2).1 hc
  · rfl

theorem find_short {s : ℕ × UInt8} (hs : s ∈ shortEscapes) : s.2 ≠ 117 ∧ shortEscapes.find? (fun t => t.2 = s.2) = some s := by
  revert s
  decide

theorem readChar_unit {c : Char} (hc : c.toNat < 65536) (rest : Bytes) : readChar (writeUnit c.toNat ++ rest) = some (c, rest) := by
  have hvalid : ¬ (55296 ≤ c.toNat ∧ c.toNat < 56320) := by
    have := c.valid
    simp only [UInt32.isValidChar, Nat.isValidChar] at this
    change c.toNat < 55296 ∨ 57343 < c.toNat ∧ c.toNat < 1114112 at this
    omega
  unfold readChar
  simp only [readUnit_writeUnit hc, if_neg hvalid, Char.ofNat_toNat]

theorem readChar_pair {c : Char} (hc : ¬ c.toNat < 65536) (rest : Bytes) :
    readChar (writeUnit (55296 + (c.toNat - 65536) / 1024) ++ writeUnit (56320 + (c.toNat - 65536) % 1024) ++ rest) =
      some (c, rest) := by
  have hvalid : c.toNat < 1114112 := by
    have := c.valid
    simp only [UInt32.isValidChar, Nat.isValidChar] at this
    change c.toNat < 55296 ∨ 57343 < c.toNat ∧ c.toNat < 1114112 at this
    omega
  have hhigh : 55296 ≤ 55296 + (c.toNat - 65536) / 1024 ∧ 55296 + (c.toNat - 65536) / 1024 < 56320 := by omega
  have hsum : 65536 + (55296 + (c.toNat - 65536) / 1024 - 55296) * 1024 + (56320 + (c.toNat - 65536) % 1024 - 56320) =
      c.toNat := by omega
  unfold readChar
  rw [List.append_assoc, readUnit_writeUnit (by omega)]
  simp only [if_pos hhigh]
  rw [readUnit_writeUnit (by omega), Option.map_some, hsum, Char.ofNat_toNat]

theorem readChar_byte {c : Char} (hc : c.toNat < 256) (hplain : c.toNat ≠ 92) (rest : Bytes) :
    readChar ([c.toNat.toUInt8] ++ rest) = some (c, rest) := by
  have hbyte : c.toNat.toUInt8.toNat = c.toNat := by
    rw [Nat.toUInt8_eq, UInt8.toNat_ofNat', Nat.mod_eq_of_lt hc]
  have hother : c.toNat.toUInt8 ≠ 92 := by
    intro heq
    rw [heq] at hbyte
    exact hplain hbyte.symm
  unfold readChar
  rw [List.singleton_append, readUnit_other hother]
  simp only [if_neg hother, hbyte, Char.ofNat_toNat]

/-- **A character** is read back. -/
theorem reads_char (c : Char) : ReadsAs readChar anything (writeChar c) c := by
  intro rest _
  unfold writeChar
  split
  · next s hfind =>
    obtain ⟨hescape, hback⟩ := find_short (List.mem_of_find?_eq_some hfind)
    have hc : s.1 = c.toNat := by simpa using List.find?_some hfind
    unfold readChar
    rw [List.cons_append, List.singleton_append, readUnit_short hescape]
    simp only [if_true, hback, Option.map_some, hc, Char.ofNat_toNat]
  · next hnone =>
    have hplain : c.toNat ≠ 92 := fun heq => List.find?_eq_none.1 hnone (92, 92) (by decide) (by simpa using heq.symm)
    split_ifs with hcontrol hbyte hunit
    · exact readChar_unit (hcontrol.trans (by decide)) rest
    · exact readChar_byte hbyte hplain rest
    · exact readChar_unit hunit rest
    · exact readChar_pair hunit rest

/-! ## Values -/

def writeText (s : String) : Bytes := 34 :: s.toList.flatMap writeChar ++ [34]

/-- a string behind its first quote -/
def readText (text : Bytes) : Option (String × Bytes) :=
  (readUntil readChar 34 text.length text).map fun r => (String.ofList r.1, r.2)

mutual

/-- a number that is no integer is not written -/
def writeJson : Json → Bytes
  | .null => ascii "null"
  | .bool b => if b then ascii "true" else ascii "false"
  | .int n => if n < 0 then 45 :: decimal (.ofNat n.natAbs) else decimal (.ofNat n.natAbs)
  | .double => []
  | .string s => writeText s
  | .array values => 91 :: writeValues values ++ [93]
  | .object members => 123 :: writeMembers members ++ [125]

def writeValues : List Json → Bytes
  | [] => []
  | [v] => writeJson v
  | v :: w :: values => writeJson v ++ 44 :: writeValues (w :: values)

def writeMembers : List (String × Json) → Bytes
  | [] => []
  | [(key, v)] => writeText key ++ 58 :: writeJson v
  | (key, v) :: m :: members => writeText key ++ 58 :: writeJson v ++ 44 :: writeMembers (m :: members)

end

def IsDigit (c : UInt8) : Prop := 48 ≤ c.toNat ∧ c.toNat ≤ 57

instance : DecidablePred IsDigit := fun _ => inferInstanceAs (Decidable (_ ∧ _))

/-- a number without a sign -/
def readNatural (text : Bytes) : Option (Json × Bytes) :=
  match text.takeWhile (IsDigit ·) with
  | [] => none
  | digits => some (.int (digits.foldl (fun n c => 10 * n + (c.toNat - 48)) 0 : ℕ), text.dropWhile (IsDigit ·))

/-- a quote, the key, a colon and the value -/
def readMember (value : Reader UInt8 Json) : Reader UInt8 (String × Json)
  | 34 :: text =>
    match readText text with
    | some (key, 58 :: rest) => (value rest).map fun r => ((key, r.1), r.2)
    | _ => none
  | _ => none

/-- a value that is nested less than `n` deep -/
def readValue : ℕ → Reader UInt8 Json
  | 0, _ => none
  | _ + 1, [] => none
  | n + 1, c :: text =>
    if c = 34 then (readText text).map fun r => (.string r.1, r.2)
    else if c = 91 then (readList (readValue n) 44 93 text).map fun r => (.array r.1, r.2)
    else if c = 123 then (readList (readMember (readValue n)) 44 125 text).map fun r => (.object r.1, r.2)
    else readNatural (c :: text)

/-- the text is one value and nothing else -/
def readJson (text : Bytes) : Option Json :=
  match readValue (text.length + 1) text with
  | some (json, []) => some json
  | _ => none

/-! ## What is written -/

/-- the documents whose texts are read back -/
inductive Json.Written : Json → Prop
  | int {n : ℤ} (hn : IsUint64 n) : Written (.int n)
  | string (s : String) : Written (.string s)
  | array {values : List Json} (h : ∀ v ∈ values, Written v) : Written (.array values)
  | object {members : List (String × Json)} (h : ∀ m ∈ members, Written m.2) : Written (.object members)

def writeMember (m : String × Json) : Bytes := writeText m.1 ++ 58 :: writeJson m.2

theorem writeValues_eq (values : List Json) : writeValues values = separated writeJson 44 values := by
  induction values with
  | nil => rw [writeValues, separated]
  | cons v values ih =>
    cases values with
    | nil => rw [writeValues, separated]
    | cons w values => rw [writeValues, separated, ih]

theorem writeMembers_eq (members : List (String × Json)) : writeMembers members = separated writeMember 44 members := by
  induction members with
  | nil => rw [writeMembers, separated]
  | cons m members ih =>
    cases members with
    | nil => rw [writeMembers, separated, writeMember]
    | cons k members => rw [writeMembers, separated, ih, writeMember, List.append_assoc, List.cons_append]

theorem writeJson_int {n : ℤ} (hn : IsUint64 n) : writeJson (.int n) = decimal (.ofNat n.toNat) := by
  have habs : n.natAbs = n.toNat := by
    have := hn.1
    omega
  rw [writeJson, if_neg (not_lt.2 hn.1), habs]

/-! ## Reading -/

theorem writeChar_head (c : Char) : ∃ b rest, writeChar c = b :: rest ∧ b ≠ 34 := by
  unfold writeChar
  split
  · exact ⟨_, _, rfl, by decide⟩
  · next hnone =>
    have hquote : c.toNat ≠ 34 := fun heq => List.find?_eq_none.1 hnone (34, 34) (by decide) (by simpa using heq.symm)
    split_ifs with hcontrol hbyte
    · exact ⟨_, _, rfl, by decide⟩
    · refine ⟨_, _, rfl, fun heq => hquote ?_⟩
      have hnat := congrArg UInt8.toNat heq
      rwa [Nat.toUInt8_eq, UInt8.toNat_ofNat', Nat.mod_eq_of_lt hbyte] at hnat
    · exact ⟨_, _, rfl, by decide⟩
    · exact ⟨_, _, rfl, by decide⟩

/-- **A string** is read back. -/
theorem reads_string (s : String) : ReadsAs readText anything (s.toList.flatMap writeChar ++ [34]) s := by
  intro rest hrest
  have hlength : s.toList.length ≤ (s.toList.flatMap writeChar).length := by
    rw [List.length_flatMap]
    refine (Nat.le_of_eq ?_).trans (List.length_le_sum_of_one_le _ fun n hn => ?_)
    · rw [List.length_map]
    · obtain ⟨c, -, rfl⟩ := List.mem_map.1 hn
      obtain ⟨b, tail, hwrite, -⟩ := writeChar_head c
      rw [hwrite]
      exact Nat.succ_pos _
  have hfuel : s.toList.length < (s.toList.flatMap writeChar ++ [34] ++ rest).length := by
    rw [List.length_append, List.length_append, List.length_singleton]
    omega
  have hread := reads_until (fun c _ => reads_char c) (fun c _ => writeChar_head c) hfuel
  rw [readText, hread rest hrest, Option.map_some, String.ofList_toList]

/-- **A number** is read back. -/
theorem reads_natural (n : UInt64) : ReadsAs readNatural (fun c => ¬ IsDigit c) (decimal n) (.int n.toNat) := by
  intro rest hrest
  have hdigits : ∀ c ∈ decimal n, decide (IsDigit c) = true := fun c hc => decide_eq_true (mem_decimal hc)
  have htake : (decimal n ++ rest).takeWhile (IsDigit ·) = decimal n := by
    rw [List.takeWhile_append_of_pos hdigits]
    cases rest with
    | nil => exact List.append_nil _
    | cons c rest => rw [List.takeWhile_cons_of_neg (by simpa using hrest c rfl), List.append_nil]
  have hdrop : (decimal n ++ rest).dropWhile (IsDigit ·) = rest := by
    rw [List.dropWhile_append_of_pos hdigits]
    cases rest with
    | nil => rfl
    | cons c rest => exact List.dropWhile_cons_of_neg (by simpa using hrest c rfl)
  unfold readNatural
  rw [htake, hdrop]
  split
  · next hnil => exact absurd hnil (decimal_ne_nil n)
  · rw [foldl_decimal]

theorem reads_member {value : Reader UInt8 Json} {m : String × Json} {follows : UInt8 → Prop}
    (hvalue : ReadsAs value follows (writeJson m.2) m.2) : ReadsAs (readMember value) follows (writeMember m) m := by
  intro rest hrest
  have hkey := reads_string m.1 (58 :: (writeJson m.2 ++ rest)) fun _ _ => trivial
  have htext : writeMember m ++ rest = 34 :: (m.1.toList.flatMap writeChar ++ [34] ++ 58 :: (writeJson m.2 ++ rest)) := by
    simp only [writeMember, writeText, List.cons_append, List.append_assoc]
  rw [htext, readMember, hkey]
  simp only [hvalue rest hrest, Option.map_some]

theorem writeJson_head {doc : Json} (hdoc : doc.Written) : ∃ c rest, writeJson doc = c :: rest ∧ c ≠ 93 := by
  cases hdoc with
  | int hn =>
    obtain ⟨c, rest, hdecimal⟩ := List.exists_cons_of_ne_nil (decimal_ne_nil _)
    refine ⟨c, rest, (writeJson_int hn).trans hdecimal, ?_⟩
    rintro rfl
    have hmem := mem_decimal (hdecimal ▸ List.mem_cons_self)
    exact absurd hmem.2 (by decide)
  | string s => exact ⟨34, _, by rw [writeJson, writeText, List.cons_append], by decide⟩
  | array h => exact ⟨91, _, by rw [writeJson, List.cons_append], by decide⟩
  | object h => exact ⟨123, _, by rw [writeJson, List.cons_append], by decide⟩

theorem writeMember_head (m : String × Json) : ∃ c rest, writeMember m = c :: rest ∧ c ≠ 125 :=
  ⟨34, _, by rw [writeMember, writeText, List.cons_append, List.cons_append], by decide⟩

theorem readValue_other {c : UInt8} (hc : c ≠ 34 ∧ c ≠ 91 ∧ c ≠ 123) (n : ℕ) (text : Bytes) :
    readValue (n + 1) (c :: text) = readNatural (c :: text) := by
  rw [readValue, if_neg hc.1, if_neg hc.2.1, if_neg hc.2.2]

theorem digit_no_opening {n : UInt64} {c : UInt8} (hc : c ∈ decimal n) : c ≠ 34 ∧ c ≠ 91 ∧ c ≠ 123 := by
  have hdigit := mem_decimal hc
  refine ⟨?_, ?_, ?_⟩ <;> rintro rfl <;> exact absurd hdigit (by decide)

theorem separator_no_digit {c close : UInt8} (hclose : ¬ IsDigit close) (hc : c = 44 ∨ c = close) : ¬ IsDigit c := by
  rcases hc with rfl | rfl
  · decide
  · exact hclose

theorem exists_level {doc : Json} (hdoc : doc.Written) {n : ℕ} (hn : (writeJson doc).length ≤ n) : ∃ m, n = m + 1 := by
  obtain ⟨c, tail, hwrite, -⟩ := writeJson_head hdoc
  rw [hwrite, List.length_cons] at hn
  exact Nat.exists_eq_add_of_le' (Nat.le_of_add_left_le hn)

/-- a value is read with as many levels as its text has characters -/
theorem reads_value {doc : Json} (hdoc : doc.Written) {n : ℕ} (hn : (writeJson doc).length ≤ n) :
    ReadsAs (readValue n) (fun c => ¬ IsDigit c) (writeJson doc) doc := by
  induction hdoc generalizing n with
  | @int k hint =>
    obtain ⟨n, rfl⟩ := exists_level (.int hint) hn
    intro rest hrest
    have hread := reads_natural (.ofNat k.toNat) rest hrest
    obtain ⟨c, tail, hdecimal⟩ := List.exists_cons_of_ne_nil (decimal_ne_nil (.ofNat k.toNat))
    have hother := digit_no_opening (hdecimal ▸ List.mem_cons_self)
    have hvalue : ((UInt64.ofNat k.toNat).toNat : ℤ) = k := by
      have := hint.1
      have := hint.2
      rw [UInt64.toNat_ofNat']
      omega
    rw [hvalue, hdecimal, List.cons_append] at hread
    rw [writeJson_int hint, hdecimal, List.cons_append, readValue_other hother, hread]
  | string s =>
    obtain ⟨n, rfl⟩ := exists_level (.string s) hn
    intro rest hrest
    have hread := reads_string s rest fun _ _ => trivial
    rw [writeJson, writeText, List.cons_append, List.cons_append, readValue, if_pos rfl, hread, Option.map_some]
  | @array values hvalues ih =>
    obtain ⟨n, rfl⟩ := exists_level (.array hvalues) hn
    intro rest hrest
    have hitem : ∀ v ∈ values, ReadsAs (readValue n) (fun c => c = 44 ∨ c = 93) (writeJson v) v := by
      intro v hv
      have hlength := length_item_le writeJson 44 hv
      have hlevel : (writeJson v).length ≤ n := by
        rw [writeJson, writeValues_eq, List.cons_append, List.length_cons, List.length_append] at hn
        omega
      exact (ih v hv hlevel).mono fun c hc => separator_no_digit (by decide) hc
    have hread := reads_list (by decide) (fun v hv => writeJson_head (hvalues v hv)) hitem rest fun _ _ => trivial
    rw [← writeValues_eq] at hread
    rw [writeJson, List.cons_append, List.cons_append, readValue, if_neg (by decide), if_pos rfl, hread, Option.map_some]
  | @object members hmembers ih =>
    obtain ⟨n, rfl⟩ := exists_level (.object hmembers) hn
    intro rest hrest
    have hitem : ∀ m ∈ members, ReadsAs (readMember (readValue n)) (fun c => c = 44 ∨ c = 125) (writeMember m) m := by
      intro m hm
      have hlength := length_item_le writeMember 44 hm
      have hlevel : (writeJson m.2).length ≤ n := by
        rw [writeJson, writeMembers_eq, List.cons_append, List.length_cons, List.length_append] at hn
        rw [writeMember, List.length_append, List.length_cons] at hlength
        omega
      exact reads_member ((ih m hm hlevel).mono fun c hc => separator_no_digit (by decide) hc)
    have hread := reads_list (by decide) (fun m _ => writeMember_head m) hitem rest fun _ _ => trivial
    rw [← writeMembers_eq] at hread
    rw [writeJson, List.cons_append, List.cons_append, readValue, if_neg (by decide), if_neg (by decide), if_pos rfl, hread,
      Option.map_some]

/-- **What is written is read back.** -/
theorem readJson_writeJson {doc : Json} (hdoc : doc.Written) : readJson (writeJson doc) = some doc := by
  have hread := reads_value hdoc (Nat.le_succ _) [] fun c hc => nomatch hc
  rw [List.append_nil] at hread
  rw [readJson, hread]

example : writeJson (.object [("id", .int 7), ("listen", .array [.string "a\"\n", .string "b"])]) =
    ascii "\x7b\"id\":7,\"listen\":[\"a\\\"\\n\",\"b\"]\x7d" := by decide +kernel

/-! ## Texts without NUL -/

theorem hexDigit_ne_zero {d : ℕ} (hd : d < 16) : hexDigit d ≠ 0 := by
  interval_cases d <;> decide

theorem zero_not_mem_writeUnit (u : ℕ) : 0 ∉ writeUnit u := by
  have h : ∀ v : ℕ, (0 : UInt8) ≠ hexDigit (v % 16) := fun v => (hexDigit_ne_zero (Nat.mod_lt v (by decide))).symm
  simp only [writeUnit, List.mem_cons, List.not_mem_nil, or_false, h]
  decide

theorem zero_not_mem_writeChar (c : Char) : 0 ∉ writeChar c := by
  unfold writeChar
  split
  · next s hfind =>
    have hs : ∀ s ∈ shortEscapes, (0 : UInt8) ∉ [92, s.2] := by decide
    exact hs s (List.mem_of_find?_eq_some hfind)
  · split_ifs with hcontrol hbyte
    · exact zero_not_mem_writeUnit _
    · rw [List.mem_singleton]
      intro heq
      have hnat := congrArg UInt8.toNat heq
      rw [Nat.toUInt8_eq, UInt8.toNat_ofNat', Nat.mod_eq_of_lt hbyte] at hnat
      exact hcontrol (hnat ▸ by decide)
    · exact zero_not_mem_writeUnit _
    · rw [List.mem_append, not_or]
      exact ⟨zero_not_mem_writeUnit _, zero_not_mem_writeUnit _⟩

theorem zero_not_mem_writeText (s : String) : 0 ∉ writeText s := by
  rw [writeText, List.cons_append, List.mem_cons, List.mem_append, List.mem_flatMap]
  rintro (h | ⟨c, -, hc⟩ | h)
  · exact absurd h (by decide)
  · exact zero_not_mem_writeChar c hc
  · exact absurd h (by decide)

theorem zero_not_mem_writeJson {doc : Json} (hdoc : doc.Written) : 0 ∉ writeJson doc := by
  induction hdoc with
  | int hn =>
    rw [writeJson_int hn]
    intro h
    exact absurd (mem_decimal h).1 (by decide)
  | string s =>
    rw [writeJson]
    exact zero_not_mem_writeText s
  | @array values hvalues ih =>
    rw [writeJson, writeValues_eq, List.cons_append, List.mem_cons, List.mem_append]
    rintro (h | h | h)
    · exact absurd h (by decide)
    · rcases mem_separated h with h | ⟨v, hv, h⟩
      · exact absurd h (by decide)
      · exact ih v hv h
    · exact absurd h (by decide)
  | @object members hmembers ih =>
    rw [writeJson, writeMembers_eq, List.cons_append, List.mem_cons, List.mem_append]
    rintro (h | h | h)
    · exact absurd h (by decide)
    · rcases mem_separated h with h | ⟨m, hm, h⟩
      · exact absurd h (by decide)
      · rw [writeMember, List.mem_append, List.mem_cons] at h
        rcases h with h | h | h
        · exact zero_not_mem_writeText m.1 h
        · exact absurd h (by decide)
        · exact ih m hm h
    · exact absurd h (by decide)

end AtFrame.EtcdWatcher
