/-
A node that is published and read back: `pack` writes its document, `unpack` reads the text.

The assumption is on rapidjson: `Document::Parse` reads what `Writer` wrote of a document of objects, arrays, strings and 64 bit
unsigned numbers.

- `document_written`: the document of a node is one of these;
- `publication_survives`: a node is read back as it was, up to its action;
- `inverse_jsonCodec`: the routines that write and read JSON text are as assumed.

Premises: no string of the node has a NUL (`NodeInfo.Plain`), and `NodeCodec.Inverse` for the library. `jsonCodec`, which writes
and parses JSON text, meets the second one; the witness `publication_survives_quotedNode` publishes a node with it.
-/
import AtFrame.Etcd.JsonText
import AtFrame.Etcd.NodeInfo

namespace AtFrame.EtcdModule

open AtFrame.Etcd AtFrame.EtcdWatcher

variable {C : NodeCodec}

/-- `Writer` and `Document::Parse` are inverse; an empty text is an error -/
structure NodeCodec.Inverse (C : NodeCodec) : Prop where
  parse_write : ∀ doc : Json, doc.Written → C.parse (cString (C.write doc)) = some doc
  parse_nil : C.parse [] = none

theorem document_written (src : NodeInfo) : src.document.Written := by
  have hlisten : Json.Written (.array (src.listens.map .string)) := by
    refine .array fun v hv => ?_
    obtain ⟨s, -, rfl⟩ := List.mem_map.1 hv
    exact .string s
  have hnumber : ∀ n : UInt64, Json.Written (.int n.toNat) :=
    fun n => .int ⟨Int.natCast_nonneg _, by exact_mod_cast n.toNat_lt⟩
  refine .object fun m hm => ?_
  simp only [List.mem_append, List.mem_cons, List.not_mem_nil, or_false] at hm
  rcases hm with ((rfl | rfl | rfl | rfl | rfl | rfl | rfl | rfl) | hcustom) | rfl | rfl
  case inl.inr =>
    -- the member that is left out where it is empty
    split_ifs at hcustom with hempty
    · exact absurd hcustom List.not_mem_nil
    · rw [List.mem_singleton.1 hcustom]
      exact .string _
  all_goals first | exact hnumber _ | exact .string _ | exact hlisten

/-- what was written is no empty text, and an object is read from it -/
theorem roundTrips_of_inverse (hC : C.Inverse) (src : NodeInfo) : C.RoundTrips src := by
  have hparse := hC.parse_write src.document (document_written src)
  constructor
  · intro hnil
    have hempty : C.write src.document = [] := hnil
    rw [hempty] at hparse
    exact absurd (hC.parse_nil.symm.trans hparse) (by simp)
  · rw [Codec.parseObject, NodeCodec.pack, hparse]
    rfl

/-- **A node survives publication.** Whatever the key and whatever the output held before, all members are read back as they
were. -/
theorem publication_survives (hC : C.Inverse) {src : NodeInfo} (hplain : src.Plain) (out : NodeInfo) (path : Bytes) :
    C.unpack out path (C.pack src) true = (true, { src with action := .unknown }) :=
  unpack_pack (roundTrips_of_inverse hC src) hplain out path

/-! ## Routines that write and read JSON text -/

/-- `unpack` uses no number routine and no base64 where there is a value -/
def jsonCodec : NodeCodec where
  parse := readJson
  str2int _ _ := 0
  base64Decode _ := none
  write := writeJson
  str2id out _ := out

theorem inverse_jsonCodec : jsonCodec.Inverse where
  parse_write doc hdoc := by
    have hplain : cString (writeJson doc) = writeJson doc := by
      refine List.takeWhile_eq_self_iff.2 fun c hc => ?_
      rw [decide_eq_true_eq]
      rintro rfl
      exact zero_not_mem_writeJson hdoc hc
    change readJson (cString (writeJson doc)) = some doc
    rw [hplain]
    exact readJson_writeJson hdoc
  parse_nil := rfl

/-- a node with a quote in its name, the largest id, two addresses and no custom data -/
def quotedNode : NodeInfo where
  id := 18446744073709551615
  name := "gw \"7\""
  listens := ["ipv4://10.0.0.7:21437", ""]
  typeId := 10
  typeName := "gateway"
  version := "1.0.0.0"
  atbusProtocolVersion := 2
  action := .put

theorem publication_survives_quotedNode : jsonCodec.Inverse ∧ quotedNode.Plain ∧
    jsonCodec.unpack { id := 5, customData := "stale", listens := ["x"] } (ascii "/by_id/5") (jsonCodec.pack quotedNode) true =
      (true, { quotedNode with action := .unknown }) := by
  have hplain : quotedNode.Plain := by
    unfold NodeInfo.Plain
    decide
  exact ⟨inverse_jsonCodec, hplain, publication_survives inverse_jsonCodec hplain _ _⟩

end AtFrame.EtcdModule
