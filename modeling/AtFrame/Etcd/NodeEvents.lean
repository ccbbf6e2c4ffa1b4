/-
What the watchers of `etcd_module` tell of the nodes: `watcher_callback_list_wrapper_t`, which is behind the watchers by id and
by name, and `watcher_callback_one_wrapper_t`, which is behind the others.

A wrapper reads the node of an event from its value or, where this is empty, from the previous value or the key. It looks at
nothing but the id of the node, and `unpack` sets the id before it gives up.

- `eventNode_cases`: what a wrapper makes of an event;
- `loss_reported_iff`: a removed node is reported under its id unless its name is all there is to read the id from;
- `loss_by_name_silent`: the removal of a node with a name of letters is reported to nobody;
- `puts_complete_iff`: only values that were read to their end are reported as put unless a rejected value, or what stands in
  for an empty one, shows an id;
- `put_without_version_reported`: a value without a version is reported.

Premises of the first result: the id is not 0, and `str2int` reads a decimal number back and leaves its result alone where there
is no digit (`ReadsNumbers`). The second one asks nothing of the routines. Witness `loss_reported_by_id`.
-/
import AtFrame.Etcd.NodeInfo

namespace AtFrame.EtcdWatcher

/-- `kv.key` -/
def Event.key (ev : Event) : Bytes := (ev.kv.map KeyValue.key).getD []

/-- `kv.value` -/
def Event.value (ev : Event) : Bytes := (ev.kv.map KeyValue.value).getD []

/-- `prev_kv.value` -/
def Event.prevValue (ev : Event) : Bytes := (ev.prevKv.map KeyValue.value).getD []

end AtFrame.EtcdWatcher

namespace AtFrame.EtcdModule

open AtFrame.Etcd AtFrame.EtcdWatcher

variable {ι : Type} {C : NodeCodec}

/-! ## Wrappers -/

/-- the node that a wrapper reads of an event, unless it skips the event -/
def NodeCodec.eventNode (C : NodeCodec) (ev : Event) : Option NodeInfo :=
  let node := (C.unpack {} ev.key (if ev.value = [] then ev.prevValue else ev.value) true).2
  if node.id = 0 then none
  else some { node with action := if ev.evtType = some .delete then .delete else .put }

/-- a call of a callback with its sender -/
structure Call (ι : Type) where
  callback : ι
  event : Event
  node : NodeInfo

/-- a wrapper; a callback that is empty is `none` -/
inductive Wrapper (ι : Type) where
  | list (callbacks : List (Option ι))
  | one (callback : Option ι)

/-- the callbacks that are not empty -/
def Wrapper.callbacks : Wrapper ι → List ι
  | .list callbacks => callbacks.filterMap id
  | .one callback => callback.toList

/-- the calls that a wrapper makes for the events of a response -/
def Wrapper.calls (w : Wrapper ι) (C : NodeCodec) (events : List Event) : List (Call ι) :=
  events.flatMap fun ev =>
    match C.eventNode ev with
    | some node => w.callbacks.map fun callback => ⟨callback, ev, node⟩
    | none => []

theorem calls_append (w : Wrapper ι) (before after : List Event) :
    w.calls C (before ++ after) = w.calls C before ++ w.calls C after := List.flatMap_append

theorem calls_cons (w : Wrapper ι) (ev : Event) (after : List Event) :
    w.calls C (ev :: after) = w.calls C [ev] ++ w.calls C after := calls_append w [ev] after

theorem calls_some (w : Wrapper ι) {ev : Event} {node : NodeInfo} (h : C.eventNode ev = some node) :
    w.calls C [ev] = w.callbacks.map fun callback => ⟨callback, ev, node⟩ := by
  rw [Wrapper.calls, List.flatMap_singleton, h]

theorem calls_none (w : Wrapper ι) {ev : Event} (h : C.eventNode ev = none) : w.calls C [ev] = [] := by
  rw [Wrapper.calls, List.flatMap_singleton, h]

theorem mem_calls {w : Wrapper ι} {events : List Event} {call : Call ι} (h : call ∈ w.calls C events) :
    call.event ∈ events ∧ C.eventNode call.event = some call.node := by
  obtain ⟨ev, hev, hcall⟩ := List.mem_flatMap.1 h
  cases hnode : C.eventNode ev with
  | none =>
    rw [hnode] at hcall
    exact absurd hcall List.not_mem_nil
  | some node =>
    rw [hnode] at hcall
    obtain ⟨callback, -, rfl⟩ := List.mem_map.1 hcall
    exact ⟨hev, hnode⟩

/-! ## The id of an event -/

/-- where the id of the node comes from -/
def NodeCodec.eventId (C : NodeCodec) (ev : Event) : UInt64 :=
  if ev.value ≠ [] then C.shownId ev.value
  else if ev.prevValue ≠ [] then C.shownId ev.prevValue
  else C.keyId ev.key

theorem unpack_event_id (C : NodeCodec) (ev : Event) :
    (C.unpack {} ev.key (if ev.value = [] then ev.prevValue else ev.value) true).2.id =
      C.eventId ev := by
  unfold NodeCodec.eventId
  by_cases hvalue : ev.value = []
  · rw [if_pos hvalue, if_neg (not_not.2 hvalue)]
    by_cases hprev : ev.prevValue = []
    · rw [if_neg (not_not.2 hprev), hprev]
      exact unpack_key C {} _
    · rw [if_pos hprev]
      exact unpack_value C {} _ hprev
  · rw [if_neg hvalue, if_pos hvalue]
    exact unpack_value C {} _ hvalue

/-- an event without an id is skipped, any other is passed on with its id and with what has happened -/
theorem eventNode_cases (C : NodeCodec) (ev : Event) :
    C.eventId ev = 0 ∧ C.eventNode ev = none ∨
      C.eventId ev ≠ 0 ∧ ∃ node, C.eventNode ev = some node ∧ node.id = C.eventId ev ∧
        node.action = if ev.evtType = some .delete then .delete else .put := by
  have hid := unpack_event_id C ev
  unfold NodeCodec.eventNode
  simp only [hid]
  by_cases hzero : C.eventId ev = 0
  · exact .inl ⟨hzero, if_pos hzero⟩
  · exact .inr ⟨hzero, _, if_neg hzero, rfl, rfl⟩

/-! ## Losses -/

/-- what is assumed of `str2int`: it reads a number, and leaves its output where there is none -/
structure NodeCodec.ReadsNumbers (C : NodeCodec) : Prop where
  str2id_decimal : ∀ out n, C.str2id out (decimal n) = n
  str2id_other : ∀ out s, (∀ c ∈ s.head?, ¬ (48 ≤ c ∧ c ≤ 57)) → C.str2id out s = out

/-- etcd tells that the key of a node was removed, with or without what it published -/
structure LossOf (C : NodeCodec) (n : Node) (kind : PathKind) (ev : Event) : Prop where
  deleted : ev.evtType = some .delete
  key : ev.key = n.path kind
  value : ev.value = []
  prev : ∀ kv ∈ ev.prevKv, ∃ src : NodeInfo, src.id = n.id ∧ kv.value = C.pack src ∧ C.RoundTrips src

/-- the callbacks hear of a removed node under an id, between what they hear of the events around it -/
def Reported (w : Wrapper ι) (C : NodeCodec) (id : UInt64) (ev : Event) (before after : List Event) : Prop :=
  ∃ node, node.action = .delete ∧ node.id = id ∧
    w.calls C (before ++ ev :: after) =
      w.calls C before ++ (w.callbacks.map fun callback => ⟨callback, ev, node⟩) ++ w.calls C after

/-- the key of every kind but one ends in the node's id -/
theorem lastPart_path (n : Node) {kind : PathKind} (hkind : kind ≠ .byName) : lastPart (n.path kind) = decimal n.id := by
  cases kind with
  | byName => exact absurd rfl hkind
  | byId => exact lastPart_decimal _ n.id
  | byTypeId => exact lastPart_decimal _ n.id
  | byTypeName => exact lastPart_decimal _ n.id
  | byTag tagName => exact lastPart_decimal _ n.id

theorem keyId_path (hC : C.ReadsNumbers) (n : Node) {kind : PathKind} (hkind : kind ≠ .byName) :
    C.keyId (n.path kind) = n.id := by
  unfold NodeCodec.keyId
  rw [lastPart_path n hkind, if_neg (decimal_ne_nil n.id), cString_decimal, hC.str2id_decimal]

/-- under a name, the id is what the name starts with -/
theorem keyId_byName (hC : C.ReadsNumbers) (n : Node) :
    C.keyId (n.path .byName) = C.str2id 0 (cString (lastPart n.appName)) := by
  have hlast : lastPart (n.path .byName) = lastPart n.appName := lastPart_slash _ _
  unfold NodeCodec.keyId
  rw [hlast]
  split_ifs with hempty
  · rw [hempty]
    exact (hC.str2id_other 0 [] fun c hc => nomatch hc).symm
  · rfl

theorem LossOf.eventId {n : Node} {kind : PathKind} {ev : Event} (h : LossOf C n kind ev) :
    C.eventId ev = if ev.prevKv.isSome then n.id else C.keyId (n.path kind) := by
  unfold NodeCodec.eventId
  rw [if_neg (not_not.2 h.value), h.key]
  cases hprev : ev.prevKv with
  | none =>
    have hempty : ev.prevValue = [] := by rw [Event.prevValue, hprev]; rfl
    rw [if_neg (not_not.2 hempty), if_neg (by decide)]
  | some kv =>
    obtain ⟨src, hsrc, hvalue, hround⟩ := h.prev kv hprev
    have hprevValue : ev.prevValue = C.pack src := by rw [Event.prevValue, hprev, ← hvalue]; rfl
    rw [hprevValue, if_pos hround.1, shownId_pack hround, hsrc]
    rfl

/-- an event is reported under an id where this is the id that it shows -/
theorem reported_iff {w : Wrapper ι} (hw : w.callbacks ≠ []) {ev : Event} (hdeleted : ev.evtType = some .delete)
    {id : UInt64} (hid : id ≠ 0) (before after : List Event) : Reported w C id ev before after ↔ C.eventId ev = id := by
  have hcalls : w.calls C (before ++ ev :: after) = w.calls C before ++ w.calls C [ev] ++ w.calls C after := by
    rw [calls_append, calls_cons w ev after, List.append_assoc]
  unfold Reported
  rw [hcalls]
  rcases eventNode_cases C ev with ⟨hzero, hnone⟩ | ⟨-, node, hsome, hnode, haction⟩
  · rw [hzero, calls_none w hnone]
    refine iff_of_false ?_ fun h => hid h.symm
    rintro ⟨node, -, -, hsame⟩
    have hlen := List.append_cancel_left (List.append_cancel_right hsame)
    exact hw (List.map_eq_nil_iff.1 hlen.symm)
  · rw [if_pos hdeleted] at haction
    rw [calls_some w hsome]
    constructor
    · rintro ⟨node', -, hnode', hsame⟩
      have hmap := List.append_cancel_left (List.append_cancel_right hsame)
      obtain ⟨callback, hcallback⟩ := List.exists_mem_of_ne_nil _ hw
      have heq : (⟨callback, ev, node⟩ : Call ι) = ⟨callback, ev, node'⟩ := List.map_inj_left.1 hmap callback hcallback
      rw [← hnode, ← hnode']
      exact congrArg (fun call => call.node.id) heq
    · exact fun h => ⟨node, haction, hnode.trans h, rfl⟩

/-- **Every loss is reported, for the right node**, unless the key is under a name, etcd has not told what was published, and
the name does not start with the id. -/
theorem loss_reported_iff (hC : C.ReadsNumbers) {n : Node} (hn : n.id ≠ 0) {kind : PathKind} {ev : Event}
    (hev : LossOf C n kind ev) (w : Wrapper ι) (before after : List Event) :
    Reported w C n.id ev before after ↔
      w.callbacks = [] ∨ ev.prevKv.isSome ∨ kind ≠ .byName ∨ C.str2id 0 (cString (lastPart n.appName)) = n.id := by
  by_cases hw : w.callbacks = []
  · refine iff_of_true ⟨{ id := n.id, action := .delete }, rfl, rfl, ?_⟩ (.inl hw)
    rw [calls_append, calls_cons w ev after, hw, List.map_nil, List.append_nil]
    have hnone : w.calls C [ev] = [] := by
      rcases eventNode_cases C ev with ⟨-, hnone⟩ | ⟨-, node, hsome, -⟩
      · exact calls_none w hnone
      · rw [calls_some w hsome, hw, List.map_nil]
    rw [hnone, List.nil_append]
  · rw [reported_iff hw hev.deleted hn, hev.eventId, or_iff_right hw]
    by_cases hprev : ev.prevKv.isSome
    · exact iff_of_true (if_pos hprev) (.inl hprev)
    · rw [if_neg hprev, or_iff_right hprev]
      by_cases hkind : kind = .byName
      · rw [hkind, keyId_byName hC, or_iff_right (not_not.2 rfl)]
      · exact iff_of_true (keyId_path hC n hkind) (.inl hkind)

/-- a routine that reads the digits at the front of a text -/
def readNumber (out : UInt64) (s : Bytes) : UInt64 :=
  match s.takeWhile fun c => 48 ≤ c ∧ c ≤ 57 with
  | [] => out
  | digits => UInt64.ofNat (digits.foldl (fun n c => 10 * n + (c.toNat - 48)) 0)

/-- routines that know one document and its text -/
def oneDocument (text : Bytes) (doc : Json) : NodeCodec where
  parse t := if t = text then some doc else none
  str2int _ _ := 0
  base64Decode _ := none
  write _ := text
  str2id := readNumber

theorem readsNumbers_oneDocument (text : Bytes) (doc : Json) : (oneDocument text doc).ReadsNumbers where
  str2id_decimal out n := by
    have hdigits : (decimal n).takeWhile (fun c => 48 ≤ c ∧ c ≤ 57) = decimal n := by
      refine List.takeWhile_eq_self_iff.2 fun c hc => ?_
      rw [decide_eq_true_eq, UInt8.le_iff_toNat_le, UInt8.le_iff_toNat_le]
      exact mem_decimal hc
    change readNumber out (decimal n) = n
    unfold readNumber
    rw [hdigits]
    split
    · next hnil => exact absurd hnil (decimal_ne_nil n)
    · rw [foldl_decimal, UInt64.ofNat_toNat]
  str2id_other out s hs := by
    change readNumber out s = out
    unfold readNumber
    cases s with
    | nil => rfl
    | cons c s =>
      rw [List.takeWhile_cons_of_neg (by simpa only [decide_eq_true_eq] using hs c rfl)]

/-- the node `serverNode` is gone from under a path; the watch does not ask for previous values -/
def gone (kind : PathKind) : Event where
  evtType := some .delete
  kv := some ⟨serverNode.path kind, 3, 9, 0, [], 0⟩
  prevKv := none

theorem lossOf_gone (C : NodeCodec) (kind : PathKind) : LossOf C serverNode kind (gone kind) :=
  ⟨rfl, rfl, rfl, fun _ h => nomatch h⟩

theorem loss_reported_by_id :
    Reported (.list [some ()]) (oneDocument [] .null) serverNode.id (gone .byId) [] [] ↔
      (Wrapper.list [some ()]).callbacks = [] ∨ (gone .byId).prevKv.isSome ∨ PathKind.byId ≠ .byName ∨
        (oneDocument [] .null).str2id 0 (cString (lastPart serverNode.appName)) = serverNode.id :=
  loss_reported_iff (readsNumbers_oneDocument [] .null) (by decide) (lossOf_gone _ .byId) (.list [some ()]) [] []

/-- the node "gw-7" is not reported as gone to the callbacks of `add_watcher_by_name` -/
theorem loss_by_name_silent :
    serverNode.id ≠ 0 ∧ 47 ∉ serverNode.appName ∧ LossOf (oneDocument [] .null) serverNode .byName (gone .byName) ∧
      ¬ Reported (.list [some ()]) (oneDocument [] .null) serverNode.id (gone .byName) [] [] := by
  refine ⟨by decide, by decide, lossOf_gone _ .byName, ?_⟩
  rintro ⟨node, -, -, hcalls⟩
  have hnone : (oneDocument [] .null).eventNode (gone .byName) = none := by decide +kernel
  rw [List.nil_append, calls_none _ hnone] at hcalls
  exact nomatch hcalls

/-! ## Puts -/

/-- the value is an object that `unpack` reads to its end -/
def NodeCodec.ReadsCompletely (C : NodeCodec) (value : Bytes) : Prop := ∃ doc ∈ C.parseObject value, Complete doc

/-- only complete values are told of as put; a rejected one is told to nobody, and the events around it are told of as if it
was not there -/
structure PutsComplete (w : Wrapper ι) (C : NodeCodec) (events : List Event) : Prop where
  complete : ∀ call ∈ w.calls C events, call.node.action = .put → C.ReadsCompletely call.event.value
  rejected : ∀ before ev after, events = before ++ ev :: after → ev.evtType ≠ some .delete →
    ¬ C.ReadsCompletely ev.value → w.calls C events = w.calls C before ++ w.calls C after

/-- a value that is not empty shows no id, or neither the previous value nor the key does -/
def NodeCodec.ShowsNoId (C : NodeCodec) (ev : Event) : Prop :=
  (ev.value ≠ [] → C.shownId ev.value = 0) ∧
    (ev.value = [] → (ev.prevValue ≠ [] → C.shownId ev.prevValue = 0) ∧ (ev.prevValue = [] → C.keyId ev.key = 0))

theorem eventId_eq_zero_iff (C : NodeCodec) (ev : Event) : C.eventId ev = 0 ↔ C.ShowsNoId ev := by
  unfold NodeCodec.eventId NodeCodec.ShowsNoId
  by_cases hvalue : ev.value = []
  · rw [if_neg (not_not.2 hvalue)]
    by_cases hprev : ev.prevValue = []
    · rw [if_neg (not_not.2 hprev)]
      exact ⟨fun h => ⟨fun hne => absurd hvalue hne, fun _ => ⟨fun hne => absurd hprev hne, fun _ => h⟩⟩,
        fun h => (h.2 hvalue).2 hprev⟩
    · rw [if_pos hprev]
      exact ⟨fun h => ⟨fun hne => absurd hvalue hne, fun _ => ⟨fun _ => h, fun heq => absurd heq hprev⟩⟩,
        fun h => (h.2 hvalue).1 hprev⟩
  · rw [if_pos hvalue]
    exact ⟨fun h => ⟨fun _ => h, fun heq => absurd heq hvalue⟩, fun h => h.1 hvalue⟩

/-- **A node update is delivered only when it was read completely**, unless a value that was rejected shows an id or, where
the value is empty, the previous value or the key does. -/
theorem puts_complete_iff (w : Wrapper ι) (C : NodeCodec) (events : List Event) :
    PutsComplete w C events ↔ w.callbacks = [] ∨
      ∀ ev ∈ events, ev.evtType ≠ some .delete → ¬ C.ReadsCompletely ev.value → C.ShowsNoId ev := by
  constructor
  · intro h
    rw [or_iff_not_imp_left]
    intro hw ev hev hput hincomplete
    rw [← eventId_eq_zero_iff]
    rcases eventNode_cases C ev with ⟨hzero, -⟩ | ⟨-, node, hsome, -, haction⟩
    · exact hzero
    · rw [if_neg hput] at haction
      obtain ⟨callback, hcallback⟩ := List.exists_mem_of_ne_nil _ hw
      have hmem : (⟨callback, ev, node⟩ : Call ι) ∈ w.calls C events := by
        refine List.mem_flatMap.2 ⟨ev, hev, ?_⟩
        rw [hsome]
        exact List.mem_map_of_mem hcallback
      exact absurd (h.complete _ hmem haction) hincomplete
  · rintro (hw | h)
    · have hnone : ∀ evs : List Event, w.calls C evs = [] := by
        intro evs
        refine List.flatMap_eq_nil_iff.2 fun ev _ => ?_
        cases C.eventNode ev with
        | none => rfl
        | some node => exact List.map_eq_nil_iff.2 hw
      refine ⟨fun call hcall => ?_, fun before ev after _ _ _ => ?_⟩
      · rw [hnone] at hcall
        exact absurd hcall List.not_mem_nil
      · rw [hnone, hnone, hnone, List.append_nil]
    · refine ⟨fun call hcall hput => ?_, fun before ev after hsplit hput hincomplete => ?_⟩
      · obtain ⟨hev, hnode⟩ := mem_calls hcall
        by_contra hincomplete
        rcases eventNode_cases C call.event with ⟨-, hnone⟩ | ⟨hid, node, hsome, -, haction⟩
        · rw [hnone] at hnode
          exact nomatch hnode
        · rw [hsome] at hnode
          cases hnode
          rw [hput] at haction
          have hnot : call.event.evtType ≠ some .delete := by
            intro hdeleted
            rw [if_pos hdeleted] at haction
            exact nomatch haction
          exact hid ((eventId_eq_zero_iff C _).2 (h _ hev hnot hincomplete))
      · have hev : ev ∈ events := by rw [hsplit]; exact List.mem_append_right _ List.mem_cons_self
        have hzero := (eventId_eq_zero_iff C ev).2 (h ev hev hput hincomplete)
        rcases eventNode_cases C ev with ⟨-, hnone⟩ | ⟨hid, -⟩
        · rw [hsplit, calls_append, calls_cons w ev after, calls_none w hnone, List.nil_append]
        · exact absurd hzero hid

def noVersionText : Bytes := ascii "\x7b\"id\":7,\"name\":\"gw-7\"\x7d"

def noVersionCodec : NodeCodec := oneDocument noVersionText (.object [("id", .int 7), ("name", .string "gw-7")])

/-- a value without a version is put -/
def noVersionPut : Event where
  evtType := some .put
  kv := some ⟨serverNode.byIdPath, 3, 3, 1, noVersionText, 0⟩
  prevKv := none

theorem put_without_version_reported : ¬ PutsComplete (.one (some ())) noVersionCodec [noVersionPut] := by
  intro h
  have hactions : ((Wrapper.one (some ())).calls noVersionCodec [noVersionPut]).map (fun call => call.node.action) = [.put] := by
    decide +kernel
  obtain ⟨call, hcall, hput⟩ := List.mem_map.1 (hactions ▸ List.mem_singleton_self NodeAction.put)
  obtain ⟨doc, hdoc, hcomplete⟩ := h.complete call hcall hput
  rw [List.mem_singleton.1 (mem_calls hcall).1] at hdoc
  have hread : (noVersionCodec.unpack {} [] noVersionText true).1 = true :=
    (unpack_fst_iff _ _ _ (by decide +kernel) _).2 fun doc' hdoc' => Option.some.inj (hdoc.symm.trans hdoc') ▸ hcomplete
  exact absurd hread (by decide +kernel)

end AtFrame.EtcdModule
