/-
What a watcher was told, replayed.

Every call of `evt_handle_` writes over a table of keys: a snapshot and a put write an entry, a delete takes it away. Changes may
be told twice, where a connection ended behind changes whose revision no header had told, and then the table goes back for a
while. `Replays` allows for that: a key may differ while a change of it is still to be told.

- `Replays.hear`: changes that are told in order;
- `Tracks.caughtUp`: the end of a connection under the condition `CaughtUp`;
- `Follows.event`: every event keeps the invariant;
- `watch_replays`: behind all that etcd has to send, the table is the content of the store.

Premises (`Faithful`): those of `Delivery`; and the answer to a range request of a watcher that starts anew has all that was in
the range at its revision, and no key is missing that was told of before and not told to be gone. Compaction is not modelled: etcd
sends what is due from any revision on.
Witness `watch_replays_cutInside`: a connection ends inside the response that tells of a delete, and the next one tells of it.
-/
import AtFrame.Etcd.Delivery
import AtFrame.Lib.Overlay
import AtFrame.Lib.Steps

namespace AtFrame.EtcdWatcher

open AtFrame.Etcd AtFrame.Lib

variable {C : Codec} {e : EtcdEnv} {w w' : State} {c : Connection}

/-! ## Statement -/

/-- what is under its key behind a change -/
def Change.stored (ch : Change) : Option KeyValue := if ch.evtType = .put then some ch.kv else none

/-- what is under each key behind some changes -/
def content : List Change → Bytes → Option KeyValue := overlay (fun ch => ch.kv.key) Change.stored fun _ => none

/-- the changes that a notice tells of -/
def Notice.changes : Notice → List Change
  | .snapshot _ r | .response _ r => r.events.filterMap Event.change
  | .watch _ => []

def toldChanges (log : List Notice) : List Change := log.flatMap Notice.changes

/-- the changes of the range before a revision -/
def State.earlier (w : State) (revision : ℤ) : List Change :=
  w.store.history.filter fun ch => w.range.Covers ch.kv.key ∧ ch.kv.modRevision < revision

/-- the answer to a range request has all that was in the range at its revision, and every key that was told of and not told
to be gone -/
structure State.Snapshot (w : State) (header : ResponseHeader) (r : Response) : Prop where
  found : ∀ ch ∈ r.events.filterMap Event.change, content (w.earlier (header.revision + 1)) ch.kv.key = some ch.kv
  complete : ∀ ch ∈ w.earlier (header.revision + 1), ∀ kv ∈ content (w.earlier (header.revision + 1)) ch.kv.key,
    (⟨.put, kv⟩ : Change) ∈ r.events.filterMap Event.change
  known : ∀ ch ∈ toldChanges w.log, content (toldChanges w.log) ch.kv.key ≠ none →
    ∃ ch' ∈ r.events.filterMap Event.change, ch'.kv.key = ch.kv.key

instance (w : State) (header : ResponseHeader) (r : Response) : Decidable (w.Snapshot header r) :=
  decidable_of_iff
    ((∀ ch ∈ r.events.filterMap Event.change, content (w.earlier (header.revision + 1)) ch.kv.key = some ch.kv) ∧
      (∀ ch ∈ w.earlier (header.revision + 1), ∀ kv ∈ content (w.earlier (header.revision + 1)) ch.kv.key,
        (⟨.put, kv⟩ : Change) ∈ r.events.filterMap Event.change) ∧
      ∀ ch ∈ toldChanges w.log, content (toldChanges w.log) ch.kv.key ≠ none →
        ∃ ch' ∈ r.events.filterMap Event.change, ch'.kv.key = ch.kv.key)
    ⟨fun h => ⟨h.1, h.2.1, h.2.2⟩, fun h => ⟨h.found, h.complete, h.known⟩⟩

/-- what is required of an event -/
def Faithful (C : Codec) (w : State) : WatcherEvent → Prop
  | .watchCompleted _ _ => w.CaughtUp
  | .rangeCompleted reply => w.isRetryMode = false → ∀ answer ∈ C.rangeResponse reply.content, ∀ header ∈ answer.1,
      w.Snapshot header answer.2
  | _ => True

instance (C : Codec) (w : State) (ev : WatcherEvent) : Decidable (Faithful C w ev) := by
  rcases ev with _ | _ <;> dsimp only [Faithful] <;> infer_instance

/-! ## Replaying -/

/-- what was told leads to what `l` leads to, but for keys of the changes `rest`, which are still to be told -/
def State.Replays (w : State) (l rest : List Change) : Prop :=
  ∀ key, content (toldChanges w.log) key = content l key ∨ ∃ ch ∈ rest, ch.kv.key = key

theorem content_append (l l' : List Change) (key : Bytes) :
    content (l ++ l') key = overlay (fun ch => ch.kv.key) Change.stored (content l) l' key := congrFun (overlay_append _ l l') key

theorem toldChanges_append (log new : List Notice) : toldChanges (log ++ new) = toldChanges log ++ toldChanges new :=
  List.flatMap_append

/-- **Changes are told in order.** -/
theorem State.Replays.hear {l new rest : List Change} (h : w.Replays l (new ++ rest))
    (hlog : toldChanges w'.log = toldChanges w.log ++ new) : w'.Replays (l ++ new) rest := by
  intro key
  rw [hlog, content_append, content_append]
  rcases h key with heq | ⟨ch, hch, rfl⟩
  · exact .inl (overlay_congr heq new)
  · rcases List.mem_append.1 hch with hch | hch
    · exact .inl (overlay_eq_of_mem hch _ _)
    · exact .inr ⟨ch, hch, rfl⟩

theorem State.Replays.congr {l rest rest' : List Change} (h : w.Replays l rest) (hlog : toldChanges w'.log = toldChanges w.log)
    (hrest : ∀ ch ∈ rest, ch ∈ rest') : w'.Replays l rest' := fun key =>
  hlog ▸ (h key).imp_right fun ⟨ch, hch, hkey⟩ => ⟨ch, hrest ch hch, hkey⟩

/-! ## The changes of the range -/

/-- the changes of the range -/
def State.covered (w : State) : List Change := w.store.history.filter fun ch => w.range.Covers ch.kv.key

theorem content_covered {key : Bytes} (hkey : w.range.Covers key) : content w.covered key = content w.store.history key :=
  overlay_filter (fun _ _ heq => decide_eq_true (heq ▸ hkey)) _

theorem earlier_eq (w : State) (revision : ℤ) : w.earlier revision = w.covered.filter fun ch => ch.kv.modRevision < revision := by
  rw [State.covered, List.filter_filter, State.earlier]
  exact List.filter_congr fun ch _ => by rw [Bool.decide_and, Bool.and_comm]

theorem due_eq (w : State) (revision : ℤ) : w.due revision = w.covered.filter fun ch => revision ≤ ch.kv.modRevision := by
  rw [State.covered, List.filter_filter, State.due]
  exact List.filter_congr fun ch _ => by rw [Bool.decide_and, Bool.and_comm]

theorem mem_due {revision : ℤ} {ch : Change} :
    ch ∈ w.due revision ↔ ch ∈ w.store.history ∧ w.range.Covers ch.kv.key ∧ revision ≤ ch.kv.modRevision := by
  rw [State.due, List.mem_filter, decide_eq_true_eq]

theorem mem_earlier {revision : ℤ} {ch : Change} :
    ch ∈ w.earlier revision ↔ ch ∈ w.store.history ∧ w.range.Covers ch.kv.key ∧ ch.kv.modRevision < revision := by
  rw [State.earlier, List.mem_filter, decide_eq_true_eq]

/-- no change comes before one of an earlier revision -/
def InOrder (l : List Change) : Prop := l.Pairwise fun a b => a.kv.modRevision ≤ b.kv.modRevision

theorem InOrder.split {l : List Change} (h : InOrder l) (revision : ℤ) :
    (l.filter fun ch => ch.kv.modRevision < revision) ++ (l.filter fun ch => revision ≤ ch.kv.modRevision) = l := by
  induction l with
  | nil => rfl
  | cons ch l ih =>
    obtain ⟨hch, hl⟩ := List.pairwise_cons.1 h
    by_cases hlt : ch.kv.modRevision < revision
    · simp only [List.filter_cons, hlt, not_le.2 hlt, decide_true, decide_false, if_true, Bool.false_eq_true, if_false,
        List.cons_append, ih hl]
    · have hle := not_lt.1 hlt
      have hnone : (l.filter fun ch => ch.kv.modRevision < revision) = [] :=
        List.filter_eq_nil_iff.2 fun a ha => by simpa using hle.trans (hch a ha)
      have hall : (l.filter fun ch => revision ≤ ch.kv.modRevision) = l :=
        List.filter_eq_self.2 fun a ha => decide_eq_true (hle.trans (hch a ha))
      simp only [List.filter_cons, hlt, hle, decide_true, decide_false, if_true, Bool.false_eq_true, if_false, hnone, hall,
        List.nil_append]

theorem earlier_append_due (h : InOrder w.store.history) (revision : ℤ) : w.earlier revision ++ w.due revision = w.covered := by
  rw [earlier_eq, due_eq]
  exact InOrder.split (h.filter _) revision

/-- the revision to go on from may be set later, up to changes that are still to be told -/
theorem State.Replays.later {before behind heard rest : List Change} {start revision : ℤ} (hsorted : InOrder w.store.history)
    (h : w.Replays (w.earlier start ++ heard) rest) (hheard : w.due start = heard ++ rest) (hdue : w.due start = before ++ behind)
    (hbefore : before <+: heard) (hbehind : ∀ ch ∈ behind, revision ≤ ch.kv.modRevision) :
    w.Replays (w.earlier revision) (w.due revision) := by
  have hrest : ∀ ch ∈ rest, revision ≤ ch.kv.modRevision := by
    obtain ⟨more, rfl⟩ := hbefore
    rw [hheard, List.append_assoc] at hdue
    exact fun ch hch => hbehind ch (List.append_cancel_left hdue ▸ List.mem_append_right more hch)
  have hlate : ∀ ch ∈ rest, ch ∈ w.due revision := fun ch hch => by
    have hmem : ch ∈ w.due start := hheard ▸ List.mem_append_right heard hch
    exact mem_due.2 ⟨(mem_due.1 hmem).1, (mem_due.1 hmem).2.1, hrest ch hch⟩
  intro key
  refine or_iff_not_imp_right.2 fun hnone => ?_
  have hother : ∀ ch ∈ w.due revision, ch.kv.key ≠ key := fun ch hch heq => hnone ⟨ch, hch, heq⟩
  rcases h key with heq | ⟨ch, hch, hkey⟩
  · have hall : content (w.earlier start ++ heard) key = content w.covered key := by
      rw [← earlier_append_due hsorted start, hheard, ← List.append_assoc, content_append _ rest]
      exact (overlay_other fun ch hch => hother ch (hlate ch hch)).symm
    rw [heq, hall, earlier_eq]
    refine (overlay_filter (fun ch hch hkey => decide_eq_true ?_) _).symm
    by_contra hle
    obtain ⟨hmem, hcov⟩ := List.mem_filter.1 hch
    exact hother ch (mem_due.2 ⟨hmem, of_decide_eq_true hcov, not_lt.1 hle⟩) hkey
  · exact absurd hkey (hother ch (hlate ch hch))

/-! ## The invariant -/

/-- the changes that have come in -/
def Connection.heard (c : Connection) : List Change := c.arrived.flatMap Piece.changes

/-- what was told over a connection -/
structure Tracks (w : State) (c : Connection) : Prop where
  replays : w.Replays (w.earlier c.startRevision ++ c.heard) ((w.due c.startRevision).drop c.heard.length)
  /-- behind a response that left nothing to send there are later changes only -/
  late : EachPast (fun past p => p.behind = 0 → ∀ h ∈ p.header,
    ∀ ch ∈ (w.due c.startRevision).drop ((past ++ [p]).flatMap Piece.changes).length, h.revision < ch.kv.modRevision) c.pieces

structure Follows (w : State) : Prop where
  sorted : InOrder w.store.history
  told : ∀ ch ∈ toldChanges w.log, ch ∈ w.store.history ∧ w.range.Covers ch.kv.key
  idle : w.connection = none → w.Replays (w.earlier (w.lastRevision + 1)) (w.due (w.lastRevision + 1))
  tracks : ∀ c ∈ w.connection, Tracks w c

/-- a step that leaves what the invariant speaks of -/
structure Alike (w w' : State) : Prop where
  range : w'.range = w.range
  store : w'.store = w.store
  lastRevision : w'.lastRevision = w.lastRevision
  log : w'.log = w.log
  connection : w'.connection = w.connection

theorem earlier_congr (hrange : w'.range = w.range) (hstore : w'.store = w.store) (revision : ℤ) :
    w'.earlier revision = w.earlier revision := by
  rw [State.earlier, State.earlier, hrange, hstore]

theorem Tracks.congr (h : Tracks w c) (hrange : w'.range = w.range) (hstore : w'.store = w.store) (hlog : w'.log = w.log) :
    Tracks w' c := by
  have hdue := due_congr hrange hstore c.startRevision
  refine ⟨?_, hdue ▸ h.late⟩
  rw [earlier_congr hrange hstore, hdue]
  exact h.replays.congr (congrArg toldChanges hlog) fun _ hch => hch

theorem Follows.alike (hf : Follows w) (h : Alike w w') : Follows w' where
  sorted := h.store ▸ hf.sorted
  told := by rw [h.log, h.store, h.range]; exact hf.told
  idle hnone := by
    rw [h.lastRevision, earlier_congr h.range h.store, due_congr h.range h.store]
    exact (hf.idle (h.connection ▸ hnone)).congr (congrArg toldChanges h.log) fun _ hch => hch
  tracks c hc := (hf.tracks c (h.connection ▸ hc)).congr h.range h.store h.log

/-! ## Requests -/

/-- `active` makes no watch request, or makes one from behind the last revision -/
theorem active_cases (e : EtcdEnv) (w : State) : Alike w (active e w) ∨
    w.rpcOpr = none ∧ ∃ w₁ request, Alike w w₁ ∧ active e w = w₁.watch request := by
  unfold active process
  simp only
  split_ifs with hrpc
  · exact .inl ⟨rfl, rfl, rfl, rfl, rfl⟩
  · exact .inl ⟨rfl, rfl, rfl, rfl, rfl⟩
  · refine .inl ?_
    unfold processRange createRequest startRequest
    simp only
    split_ifs <;> exact ⟨rfl, rfl, rfl, rfl, rfl⟩
  · unfold processWatch createRequest startRequest
    simp only
    split_ifs
    · set w₁ : State := { w with isActived := false, creates := w.creates + 1, starts := w.starts + 1 }
      exact .inr ⟨Option.not_isSome_iff_eq_none.1 hrpc, w₁, _, ⟨rfl, rfl, rfl, rfl, rfl⟩, rfl⟩
    · exact .inl ⟨rfl, rfl, rfl, rfl, rfl⟩
    · exact .inl ⟨rfl, rfl, rfl, rfl, rfl⟩

theorem Follows.watch (hf : Follows w) (hnone : w.connection = none) (request : Request) : Follows (w.watch request) := by
  have htold : toldChanges (w.watch request).log = toldChanges w.log := (toldChanges_append w.log _).trans (List.append_nil _)
  refine ⟨hf.sorted, fun ch hch => hf.told ch (htold ▸ hch), (fun h => nomatch h), fun c hc => ?_⟩
  obtain rfl := Option.some.inj hc
  refine ⟨?_, eachPast_nil⟩
  rw [show Connection.heard ⟨w.lastRevision + 1, [], false, 0, false⟩ = [] from rfl, List.append_nil]
  exact (hf.idle hnone).congr htold fun _ hch => hch

theorem Follows.active (hf : Follows w) (hnone : w.rpcOpr = none → w.connection = none) : Follows (active e w) := by
  rcases active_cases e w with h | ⟨hrpc, w₁, request, h, heq⟩
  · exact hf.alike h
  · rw [heq]
    exact (hf.alike h).watch (h.connection.trans (hnone hrpc)) request

/-- no key is shown that no change of the range was for -/
theorem Follows.close (hf : Follows w) (hi : Inv C w) : Follows (close w) := by
  refine ⟨hf.sorted, hf.told, fun _ key => ?_, fun c hc => nomatch hc⟩
  cases hkey : content (toldChanges w.log) key with
  | none =>
    have hother : content ((EtcdWatcher.close w).earlier ((EtcdWatcher.close w).lastRevision + 1)) key = none := by
      refine overlay_other fun ch hch => ?_
      obtain ⟨hmem, -, hlt⟩ := mem_earlier.1 hch
      exact absurd (hi.history ch hmem).1 (not_le.2 hlt)
    exact .inl (hkey.trans hother.symm)
  | some kv =>
    rcases overlay_mem hkey with hnone | ⟨ch, hch, rfl, -⟩
    · exact nomatch hnone
    · obtain ⟨hmem, hcov⟩ := hf.told ch hch
      exact .inr ⟨ch, mem_due.2 ⟨hmem, hcov, (hi.history ch hmem).1⟩, rfl⟩

/-! ## The store -/

theorem Follows.write (hf : Follows w) (hi : Inv C w) {changes : List Change}
    (h : ∀ ch ∈ changes, ch.kv.modRevision = w.store.revision + 1) :
    Follows { w with store := ⟨w.store.revision + 1, w.store.history ++ changes⟩ } := by
  set w' : State := { w with store := ⟨w.store.revision + 1, w.store.history ++ changes⟩ }
  have hearlier : ∀ revision, revision ≤ w.store.revision + 1 → w'.earlier revision = w.earlier revision := by
    intro revision hrev
    have hnone : (changes.filter fun ch => w.range.Covers ch.kv.key ∧ ch.kv.modRevision < revision) = [] :=
      List.filter_eq_nil_iff.2 fun ch hch => by
        rw [decide_eq_true_eq, h ch hch]
        exact fun hlt => absurd hlt.2 (not_lt.2 hrev)
    exact (List.filter_append ..).trans ((congrArg _ hnone).trans (List.append_nil _))
  have hdue : ∀ revision, ∃ new, w'.due revision = w.due revision ++ new ∧ ∀ ch ∈ new, ch ∈ changes := fun revision =>
    ⟨_, List.filter_append .., fun ch hch => (List.mem_filter.1 hch).1⟩
  refine ⟨?_, ?_, fun hnone => ?_, fun c hc => ⟨?_, ?_⟩⟩
  · refine List.pairwise_append.2 ⟨hf.sorted, List.pairwise_of_forall_mem_list fun a ha b hb => ?_, fun a ha b hb => ?_⟩
    · rw [h a ha, h b hb]
    · rw [h b hb]
      exact (hi.history a ha).2.trans (Int.le_add_one le_rfl)
  · exact fun ch hch => ⟨List.mem_append_left _ (hf.told ch hch).1, (hf.told ch hch).2⟩
  · obtain ⟨new, hnew, -⟩ := hdue (w.lastRevision + 1)
    rw [hearlier (w'.lastRevision + 1) (Int.add_le_add_right hi.last.2 1), show w'.lastRevision = w.lastRevision from rfl, hnew]
    exact (hf.idle hnone).congr rfl fun ch hch => List.mem_append_left new hch
  · obtain ⟨new, hnew, -⟩ := hdue c.startRevision
    rw [hearlier c.startRevision (hi.carries c hc).start.2, hnew]
    refine (hf.tracks c hc).replays.congr rfl fun ch hch => ?_
    rw [List.drop_append]
    exact List.mem_append_left _ hch
  · obtain ⟨new, hnew, hmem⟩ := hdue c.startRevision
    intro past p later hpieces hbehind header hheader ch hch
    rw [hnew, List.drop_append] at hch
    rcases List.mem_append.1 hch with hch | hch
    · exact (hf.tracks c hc).late past p later hpieces hbehind header hheader ch hch
    · rw [h ch (hmem ch (List.mem_of_mem_drop hch))]
      have hp : p ∈ c.pieces := hpieces ▸ List.mem_append_right past List.mem_cons_self
      exact Int.lt_add_one_of_le ((hi.carries c hc).header p hp header hheader).2

/-! ## The connection -/

/-- what was sent so far is the front of what is due -/
theorem Carries.drop_due (hc : Carries C w c) {ps qs : List Piece} (h : ps ++ qs <+: c.pieces) :
    (w.due c.startRevision).drop (ps.flatMap Piece.changes).length =
      qs.flatMap Piece.changes ++ (w.due c.startRevision).drop ((ps ++ qs).flatMap Piece.changes).length := by
  obtain ⟨later, hlater⟩ := h
  obtain ⟨rest, hrest⟩ := hc.order
  have hdue : w.due c.startRevision = (ps ++ qs).flatMap Piece.changes ++ (later.flatMap Piece.changes ++ rest) := by
    rw [hrest, Connection.sent, ← hlater, List.flatMap_append, List.append_assoc]
  rw [hdue, List.drop_left, List.flatMap_append, List.append_assoc, List.drop_left]

theorem Carries.due_eq (hc : Carries C w c) {ps : List Piece} (h : ps <+: c.pieces) :
    w.due c.startRevision = ps.flatMap Piece.changes ++ (w.due c.startRevision).drop (ps.flatMap Piece.changes).length := by
  have hall : [] ++ ps <+: c.pieces := h
  exact hc.drop_due hall

theorem Follows.push (hf : Follows w) (hi : Inv C w) (gap object : Bytes) : Follows (push C gap object w) := by
  unfold EtcdWatcher.push
  cases hconn : w.connection with
  | none => exact hf
  | some c =>
    cases hr : C.watchResponse object with
    | none => exact hf
    | some hr' =>
      obtain ⟨header, r⟩ := hr'
      simp only
      split_ifs with hsends
      · have hc := hi.carries c hconn
        have ht := hf.tracks c hconn
        set p : Piece := ⟨gap, object, header, (w.pending c).take r.events.length, ((w.pending c).drop r.events.length).length⟩
        refine ⟨hf.sorted, hf.told, (fun hnone => nomatch hnone), fun c' hc' => ?_⟩
        obtain rfl := Option.some.inj hc'
        have hsize : 0 < p.size := List.length_pos_iff.2 (List.append_ne_nil_of_right_ne_nil _ hsends.1.encloses.ne_nil)
        have harrived : Lib.arrived Piece.size (c.pieces ++ [p]) c.received = c.arrived :=
          arrived_concat _ (length_wire c.pieces ▸ hc.received) hsize
        refine ⟨?_, eachPast_snoc.2 ⟨ht.late, fun hbehind _ _ ch hch => ?_⟩⟩
        · rw [Connection.heard, Connection.arrived, harrived]
          exact ht.replays
        · -- nothing was left to send
          have hnone : (w.due c.startRevision).drop ((c.pieces ++ [p]).flatMap Piece.changes).length = [] := by
            have hall : (w.pending c).length ≤ r.events.length := List.drop_eq_nil_iff.1 (List.length_eq_zero_iff.1 hbehind)
            rw [List.flatMap_append, List.flatMap_singleton, List.length_append, ← List.drop_drop]
            exact List.drop_eq_nil_iff.2 (congrArg List.length (List.take_of_length_le hall)).ge
          have hch : ch ∈ (w.due c.startRevision).drop ((c.pieces ++ [p]).flatMap Piece.changes).length := hch
          rw [hnone] at hch
          exact absurd hch List.not_mem_nil
      · exact hf

/-- the objects of some pieces tell of their changes -/
theorem told_foldl {ps : List Piece} (h : ∀ p ∈ ps, ∃ r, p.Means C r) (w : State) :
    toldChanges ((ps.map Piece.object).foldl (fun w text => onObject C text w) w).log =
      toldChanges w.log ++ ps.flatMap Piece.changes := by
  induction ps generalizing w with
  | nil => exact (List.append_nil _).symm
  | cons p ps ih =>
    obtain ⟨r, hr, hchanges⟩ := h p List.mem_cons_self
    have htold : Notice.changes (.response p.header r) = p.changes := by
      have hmap : r.events.filterMap Event.change = (r.events.map Event.change).filterMap id := by
        rw [List.filterMap_map]
        rfl
      have hall : (p.changes.map some).filterMap id = p.changes := by
        rw [List.filterMap_map]
        exact List.filterMap_some
      exact hmap.trans ((congrArg _ hchanges).trans hall)
    rw [List.map_cons, List.foldl_cons, onObject_eq hr, ih (fun q hq => h q (List.mem_cons_of_mem p hq)), List.flatMap_cons,
      ← List.append_assoc]
    refine congrArg (· ++ _) ?_
    rw [State.hear, toldChanges_append, ← htold]
    exact congrArg (_ ++ ·) (List.flatMap_singleton ..)

theorem Follows.receive (hf : Follows w) (hi : Inv C w) (n : ℕ) : Follows (receive C n w) := by
  unfold EtcdWatcher.receive
  cases hconn : w.connection with
  | none => exact hf
  | some c =>
    simp only
    split_ifs with hstop
    · exact hf
    have hc := hi.carries c hconn
    have ht := hf.tracks c hconn
    obtain ⟨new, hnew, hpieces, hobjects, -⟩ := hc.receive n
    set c' : Connection := { c with received := c.received + n }
    set w₁ : State := { w with connection := some c' }
    rw [onWatchWrite, watchWriteRounds_eq le_rfl w₁, show w₁.buffer = w.buffer from rfl, hobjects]
    have hmeans : ∀ p ∈ new, ∃ r, p.Means C r := fun p hp => hc.means p (hpieces p hp)
    have hh := hears_foldl hmeans w₁
    have htold := told_foldl hmeans w₁
    set w₂ := (new.map Piece.object).foldl (fun w text => onObject C text w) w₁
    set s := (w.buffer.split jsonBrackets ((c.wire.drop c.received).take n)).1
    obtain ⟨stopped, hconn₂⟩ := hh.connection
    have hrange : (w₂.setBuffer s).range = w.range := hh.range
    have hstore : (w₂.setBuffer s).store = w.store := hh.store
    have hprefix : c.arrived ++ new <+: c.pieces := hnew ▸ arrived_initial Piece.size c.pieces (c.received + n)
    refine ⟨hstore ▸ hf.sorted, ?_, fun hnone => ?_, fun c₂ hc₂ => ?_⟩
    · intro ch hch
      rw [hstore, hrange]
      rcases List.mem_append.1 (htold ▸ hch : ch ∈ toldChanges w₁.log ++ new.flatMap Piece.changes) with hch | hch
      · exact hf.told ch hch
      · have hdue : ch ∈ w.due c.startRevision := by
          rw [hc.due_eq hprefix, List.flatMap_append]
          exact List.mem_append_left _ (List.mem_append_right _ hch)
        exact ⟨(mem_due.1 hdue).1, (mem_due.1 hdue).2.1⟩
    · rw [show (w₂.setBuffer s).connection = _ from hconn₂] at hnone
      exact absurd hnone (Option.some_ne_none _)
    · rw [show (w₂.setBuffer s).connection = _ from hconn₂] at hc₂
      obtain rfl := Option.some.inj hc₂
      refine ⟨?_, due_congr hrange hstore c.startRevision ▸ ht.late⟩
      have hheard : Connection.heard { c' with stopped := stopped c' } = c.heard ++ new.flatMap Piece.changes := by
        rw [Connection.heard, Connection.heard, ← List.flatMap_append]
        exact congrArg (List.flatMap Piece.changes) hnew
      rw [earlier_congr hrange hstore, due_congr hrange hstore, hheard, ← List.append_assoc]
      refine State.Replays.hear (w := w) ?_ htold
      have hdrop := hc.drop_due hprefix
      rw [List.flatMap_append] at hdrop
      exact hdrop ▸ ht.replays

/-! ## Answers -/

/-- **Where the last header was not ahead**, the next watch starts in front of all that is still to be told. -/
theorem Tracks.caughtUp (hf : Follows w) (ht : Tracks w c) (hc : Carries C w c) (h : ∀ p ∈ lastHeader c.arrived, p.behind = 0) :
    w.Replays (w.earlier (w.lastRevision + 1)) (w.due (w.lastRevision + 1)) := by
  have hinitial : c.arrived <+: c.pieces := arrived_initial Piece.size c.pieces c.received
  have hheard := hc.due_eq hinitial
  have hpos : ∀ p ∈ c.arrived, ∀ h ∈ p.header, 0 < h.revision := fun p hp header hh =>
    (hc.header p (hinitial.subset hp) header hh).1
  rw [hc.revision]
  rcases foldl_lastHeader hpos (c.startRevision - 1) with heq | ⟨past, p, rest, header, harrived, hlast, hheader, heq⟩ <;>
    rw [heq]
  · rw [sub_add_cancel]
    exact ht.replays.later hf.sorted hheard (List.nil_append _).symm List.nil_prefix fun ch hch => (mem_due.1 hch).2.2
  · have hbefore : past ++ [p] <+: c.arrived := ⟨rest, by rw [harrived, List.append_assoc, List.singleton_append]⟩
    have hpieces : ∃ later, c.pieces = past ++ p :: later := by
      obtain ⟨later, hlater⟩ := hinitial
      exact ⟨rest ++ later, by rw [← hlater, harrived, List.append_assoc, List.cons_append]⟩
    obtain ⟨later, hpieces⟩ := hpieces
    refine ht.replays.later hf.sorted hheard (hc.due_eq (hbefore.trans hinitial)) ?_ fun ch hch =>
      Int.add_one_le_of_lt (ht.late past p _ hpieces (h p hlast) header hheader ch hch)
    obtain ⟨more, hmore⟩ := hbefore
    exact ⟨more.flatMap Piece.changes, by rw [Connection.heard, ← hmore, @List.flatMap_append _ _ (past ++ [p])]⟩

theorem Follows.watchCompleted (hf : Follows w) (hi : Inv C w) (hup : w.CaughtUp) (errorCode responseCode : ℤ) :
    Follows (onWatchCompleted e errorCode responseCode w) := by
  have hreplays : w.Replays (w.earlier (w.lastRevision + 1)) (w.due (w.lastRevision + 1)) := by
    cases hconn : w.connection with
    | none => exact hf.idle hconn
    | some c => exact (hf.tracks c hconn).caughtUp hf (hi.carries c hconn) (hup c hconn)
  have hdone : ∀ time,
      Follows { w with rpcOpr := none, connection := none, isRetryMode := true, watcherNextRequestTime := time } :=
    fun _ => ⟨hf.sorted, hf.told, fun _ => hreplays, fun _ hc => nomatch hc⟩
  unfold onWatchCompleted State.later State.immediately
  simp only
  split_ifs
  all_goals exact (hdone _).active fun _ => rfl

theorem content_mem {l : List Change} {key : Bytes} {kv : KeyValue} (h : content l key = some kv) :
    ⟨.put, kv⟩ ∈ l ∧ kv.key = key := by
  rcases overlay_mem h with hnone | ⟨⟨evtType, kv'⟩, hch, hkey, hstored⟩
  · exact nomatch hnone
  · unfold Change.stored at hstored
    split_ifs at hstored with hput
    cases hput
    cases hstored
    exact ⟨hch, hkey⟩

/-- all keys of a snapshot count as put -/
theorem rangeResponse_put {text : Bytes} {header : Option ResponseHeader} {r : Response}
    (h : C.rangeResponse text = some (header, r)) {ch : Change} (hch : ch ∈ r.events.filterMap Event.change) :
    ch.evtType = .put := by
  obtain ⟨doc, -, heq⟩ := Option.map_eq_some_iff.1 h
  obtain ⟨ev, hev, hchange⟩ := List.mem_filterMap.1 hch
  cases heq
  obtain ⟨kv, -, rfl⟩ := List.mem_map.1 hev
  exact (Option.some.inj hchange) ▸ rfl

/-- a snapshot writes every key that was in the range, and every key that was shown -/
theorem State.Snapshot.replays {header : ResponseHeader} {r : Response} (h : w.Snapshot header r)
    (hput : ∀ ch ∈ r.events.filterMap Event.change, ch.evtType = .put) (key : Bytes) :
    content (toldChanges w.log ++ r.events.filterMap Event.change) key = content (w.earlier (header.revision + 1)) key := by
  by_cases hkey : ∃ ch ∈ r.events.filterMap Event.change, ch.kv.key = key
  · obtain ⟨ch, hch, rfl⟩ := hkey
    have hwritten : ∃ last ∈ r.events.filterMap Event.change, last.kv.key = ch.kv.key ∧
        overlay (fun ch => ch.kv.key) Change.stored (content (toldChanges w.log)) (r.events.filterMap Event.change) ch.kv.key =
          last.stored := overlay_of_mem hch _
    obtain ⟨last, hlast, hsame, heq⟩ := hwritten
    rw [content_append, heq, Change.stored, if_pos (hput last hlast), ← hsame]
    exact (h.found last hlast).symm
  · have hother : content (toldChanges w.log ++ r.events.filterMap Event.change) key = content (toldChanges w.log) key := by
      rw [content_append]
      exact overlay_other fun ch hch heq => hkey ⟨ch, hch, heq⟩
    have hpast : content (w.earlier (header.revision + 1)) key = none := by
      refine Option.eq_none_iff_forall_ne_some.2 fun kv hkv => ?_
      obtain ⟨hmem, rfl⟩ := content_mem hkv
      exact hkey ⟨_, h.complete _ hmem kv hkv, rfl⟩
    rw [hother, hpast]
    refine Option.eq_none_iff_forall_ne_some.2 fun kv hkv => ?_
    obtain ⟨hmem, rfl⟩ := content_mem hkv
    exact hkey (h.known _ hmem (Option.ne_none_iff_exists'.2 ⟨kv, hkv⟩))

theorem Follows.snapshot (hf : Follows w) (hnone : w.connection = none) {header : ResponseHeader} {r : Response}
    (h : w.Snapshot header r) (hput : ∀ ch ∈ r.events.filterMap Event.change, ch.evtType = .put) (time : ℤ) :
    Follows { w with lastRevision := header.revision, log := w.log ++ [.snapshot header r], watcherNextRequestTime := time } := by
  have htold : toldChanges (w.log ++ [.snapshot header r]) = toldChanges w.log ++ r.events.filterMap Event.change := by
    rw [toldChanges_append]
    exact congrArg (_ ++ ·) (List.flatMap_singleton ..)
  refine ⟨hf.sorted, fun ch hch => ?_, fun _ key => .inl ?_, fun c hc => nomatch hnone.symm.trans hc⟩
  · rcases List.mem_append.1 (htold ▸ hch : ch ∈ toldChanges w.log ++ _) with hch | hch
    · exact hf.told ch hch
    · obtain ⟨evtType, kv⟩ := ch
      obtain rfl : evtType = .put := hput _ hch
      have hmem := mem_earlier.1 (content_mem (h.found _ hch)).1
      exact ⟨hmem.1, hmem.2.1⟩
  · exact (congrArg (content · key) htold).trans (h.replays hput key)

theorem Follows.rangeCompleted (hf : Follows w) (hi : Inv C w) (hidle : w.Watching = false) {reply : HttpReply}
    (h : Faithful C w (.rangeCompleted reply)) : Follows (onRangeCompleted C e reply w) := by
  have hnone := hi.connection_none hidle
  have hdone : ∀ mode time, Follows { w with rpcOpr := none, isRetryMode := mode, watcherNextRequestTime := time } :=
    fun _ _ => hf.alike ⟨rfl, rfl, rfl, rfl, rfl⟩
  unfold onRangeCompleted State.later State.immediately
  simp only
  split_ifs with hsuccess hretry
  · exact (hdone false _).active fun _ => hnone
  · rcases hr : C.rangeResponse reply.content with _ | ⟨header | header, response⟩
    · exact (hdone _ _).active fun _ => hnone
    · exact (hdone _ _).active fun _ => hnone
    · simp only
      split_ifs
      · exact (hdone _ _).active fun _ => hnone
      · have hsnapshot : w.Snapshot header response := h (Bool.not_eq_true _ ▸ hretry) _ hr header rfl
        refine Follows.active ?_ fun _ => hnone
        exact (hdone w.isRetryMode w.watcherNextRequestTime).snapshot hnone
          ⟨hsnapshot.found, hsnapshot.complete, hsnapshot.known⟩
          (fun ch hch => rangeResponse_put hr hch) _
  · exact hdone _ _

/-! ## Runs -/

theorem Follows.event (hf : Follows w) (hi : Inv C w) (ev : WatcherEvent) (h : Faithful C w ev) :
    Follows (watcherEvent C e w ev) := by
  cases ev with
  | write changes =>
    simp only [watcherEvent]
    split_ifs with hwrite
    · exact hf.write hi hwrite
    · exact hf
  | clock now => exact hf.alike ⟨rfl, rfl, rfl, rfl, rfl⟩
  | active => exact hf.active fun hrpc => hi.connection_none (by rw [State.Watching, hrpc])
  | close => exact hf.close hi
  | push gap object => exact hf.push hi gap object
  | receive n => exact hf.receive hi n
  | rangeCompleted reply =>
    simp only [watcherEvent]
    split
    · next hrpc =>
      split_ifs
      · exact hf.rangeCompleted hi (by rw [State.Watching, hrpc]) h
      · exact hf
    · exact hf
  | watchCompleted errorCode responseCode =>
    simp only [watcherEvent]
    split
    · exact hf.watchCompleted hi h errorCode responseCode
    · exact hf

theorem stepOk_of_faithful {ev : WatcherEvent} (h : Faithful C w ev) : StepOk w ev := by
  cases ev with
  | watchCompleted => exact h
  | write | clock | active | close | push | receive | rangeCompleted => exact trivial

theorem follows_start (watcher : Watcher) : Follows (.start watcher) :=
  ⟨.nil, (fun _ hch => nomatch hch), fun _ _ => .inl rfl, fun _ hc => nomatch hc⟩

theorem run_follows (watcher : Watcher) {events : List WatcherEvent}
    (h : Meets (watcherEvent C e) (Faithful C) (.start watcher) events) :
    Inv C (watcherRun C e (.start watcher) events) ∧ Follows (watcherRun C e (.start watcher) events) :=
  h.invariant (I := fun w => Inv C w ∧ Follows w)
    (fun _ ev hw hev => ⟨hw.1.event ev (stepOk_of_faithful hev), hw.2.event hw.1 ev hev⟩)
    ⟨inv_start C watcher, follows_start watcher⟩

/-- a connection over which all that is due was sent and has come in -/
def State.Drained (w : State) : Prop := ∃ c ∈ w.connection, w.pending c = [] ∧ c.received = c.wire.length

instance (w : State) : Decidable w.Drained :=
  inferInstanceAs (Decidable (∃ c ∈ w.connection, w.pending c = [] ∧ c.received = c.wire.length))

theorem Follows.drained (hf : Follows w) (hi : Inv C w) (hdrained : w.Drained) {key : Bytes} (hkey : w.range.Covers key) :
    content (toldChanges w.log) key = content w.store.history key := by
  obtain ⟨c, hconn, hpending, hreceived⟩ := hdrained
  have hc := hi.carries c hconn
  have hheard : c.heard = c.sent := by
    have hall : c.arrived = c.pieces := arrived_all Piece.size (hreceived.trans (length_wire c.pieces)).ge
    rw [Connection.heard, hall]
    rfl
  have hdue : w.due c.startRevision = c.heard := by
    have hall := hc.due_eq List.prefix_rfl
    rw [show (w.due c.startRevision).drop (c.pieces.flatMap Piece.changes).length = [] from hpending, List.append_nil] at hall
    exact hall.trans hheard.symm
  rcases (hf.tracks c hconn).replays key with heq | ⟨ch, hch, -⟩
  · rw [heq, ← hdue, earlier_append_due hf.sorted]
    exact content_covered hkey
  · rw [hdue, List.drop_length] at hch
    exact absurd hch List.not_mem_nil

/-- **What was told, replayed, is the store**, once all that is due has come in: for each key of the range the last of the
changes told is the last in the store. Every connection must end behind a header that was not ahead, and every snapshot must have
the keys that are shown. -/
theorem watch_replays (C : Codec) (e : EtcdEnv) (watcher : Watcher) (events : List WatcherEvent)
    (h : Meets (watcherEvent C e) (Faithful C) (.start watcher) events)
    (hdrained : (watcherRun C e (.start watcher) events).Drained) (key : Bytes)
    (hkey : (watcherRun C e (.start watcher) events).range.Covers key) :
    content (toldChanges (watcherRun C e (.start watcher) events).log) key =
      content (watcherRun C e (.start watcher) events).store.history key := by
  obtain ⟨hi, hf⟩ := run_follows watcher h
  exact hf.drained hi hdrained hkey

/-- the library knows a delete at revision 3, too -/
@[reducible] def deleteCodec : Codec where
  parse b :=
    if b = [123, 3, 125] then
      some (.object [("result", .object [("header", .object [("revision", .int 3)]), ("events", .array
        [.object [("type", .int 1), ("kv", .object [("key", .string "Lw=="), ("mod_revision", .int 3)])]])])])
    else sampleCodec.parse b
  str2int := sampleCodec.str2int
  base64Decode := sampleCodec.base64Decode

/-- A put comes in. The connection ends inside the response that tells of the delete behind it; the watcher tries again, and is
told on the next connection. -/
def cutInside : List WatcherEvent :=
  (cutBehind [123, 2, 125]).take 5 ++ [.write [⟨.delete, ⟨[47], 0, 3, 0, [], 0⟩⟩], .push [10] [123, 3, 125], .receive 2] ++
    (cutBehind [123, 2, 125]).drop 5 ++ [.push [10] [123, 3, 125], .receive 4]

theorem watch_replays_cutInside :
    .watch 2 ∈ (watcherRun deleteCodec .steady .sample cutInside).log ∧
      .watch 3 ∈ (watcherRun deleteCodec .steady .sample cutInside).log ∧
      content (watcherRun deleteCodec .steady .sample cutInside).store.history [47] = none ∧
      (toldChanges (watcherRun deleteCodec .steady .sample cutInside).log).map (fun ch => (ch.evtType, ch.kv.modRevision)) =
        [(.put, 2), (.delete, 3)] ∧
      content (toldChanges (watcherRun deleteCodec .steady .sample cutInside).log) [47] =
        content (watcherRun deleteCodec .steady .sample cutInside).store.history [47] :=
  ⟨by decide +kernel, by decide +kernel, by decide +kernel, by decide +kernel,
    watch_replays deleteCodec .steady { path := [47], rangeEnd := plusOne } cutInside (by decide +kernel) (by decide +kernel) [47]
      (by decide +kernel)⟩

/-! ## What an event adds -/

/-- where a notice comes from -/
def Notice.AddedBy (C : Codec) (w : State) (ev : WatcherEvent) : Notice → Prop
  | .watch _ => True
  | .snapshot header r => ∃ reply, ev = .rangeCompleted reply ∧ w.isRetryMode = false ∧
      C.rangeResponse reply.content = some (some header, r)
  | .response header r => ∃ c ∈ w.connection, ∃ p ∈ c.pieces, C.watchResponse p.object = some (header, r)

/-- where a piece of the connection comes from -/
def Piece.AddedBy (C : Codec) (w : State) (ev : WatcherEvent) (p : Piece) : Prop :=
  (∃ c ∈ w.connection, p ∈ c.pieces) ∨
    ∃ gap, ev = .push gap p.object ∧ ∃ c ∈ w.connection, ∃ r, C.watchResponse p.object = some (p.header, r) ∧
      w.Sends c gap p.object p.header r

structure Adds (C : Codec) (w : State) (ev : WatcherEvent) (w' : State) : Prop where
  range : w'.range = w.range
  store : w'.store = w.store ∨ ∃ changes, ev = .write changes ∧ w'.store.history = w.store.history ++ changes
  log : ∃ new, w'.log = w.log ++ new ∧ ∀ n ∈ new, n.AddedBy C w ev
  pieces : ∀ c ∈ w'.connection, ∀ p ∈ c.pieces, p.AddedBy C w ev

variable {ev : WatcherEvent}

/-- nobody is told of anything -/
theorem Adds.quiet (hrange : w'.range = w.range)
    (hstore : w'.store = w.store ∨ ∃ changes, ev = .write changes ∧ w'.store.history = w.store.history ++ changes)
    (hlog : w'.log = w.log) (hpieces : ∀ c ∈ w'.connection, ∀ p ∈ c.pieces, p.AddedBy C w ev) : Adds C w ev w' :=
  ⟨hrange, hstore, ⟨[], hlog.trans (List.append_nil _).symm, fun _ hn => absurd hn List.not_mem_nil⟩, hpieces⟩

theorem Alike.adds (h : Alike w w') : Adds C w ev w' :=
  .quiet h.range (.inl h.store) h.log fun c hc _ hp => .inl ⟨c, h.connection ▸ hc, hp⟩

theorem Adds.active (h : Adds C w ev w') : Adds C w ev (active e w') := by
  rcases active_cases e w' with hsame | ⟨-, w₁, request, hsame, heq⟩
  · exact ⟨hsame.range.trans h.range, hsame.store ▸ h.store, hsame.log ▸ h.log,
      fun c hc => h.pieces c (hsame.connection ▸ hc)⟩
  · rw [heq]
    obtain ⟨new, hnew, hadded⟩ := h.log
    refine ⟨hsame.range.trans h.range, hsame.store ▸ h.store,
      ⟨new ++ [.watch (w₁.lastRevision + 1)], ?_, ?_⟩, fun c hc p hp => ?_⟩
    · exact (congrArg (· ++ _) (hsame.log.trans hnew)).trans (List.append_assoc ..)
    · intro n hn
      rcases List.mem_append.1 hn with hn | hn
      · exact hadded n hn
      · rw [List.mem_singleton.1 hn]
        exact trivial
    · obtain rfl := Option.some.inj hc
      exact absurd hp List.not_mem_nil

theorem log_foldl {ps : List Piece} (h : ∀ p ∈ ps, ∃ r, p.Means C r) (w : State) :
    ∃ new, ((ps.map Piece.object).foldl (fun w text => onObject C text w) w).log = w.log ++ new ∧
      ∀ n ∈ new, ∃ p ∈ ps, ∃ header r, n = .response header r ∧ C.watchResponse p.object = some (header, r) := by
  induction ps generalizing w with
  | nil => exact ⟨[], (List.append_nil _).symm, fun _ hn => absurd hn List.not_mem_nil⟩
  | cons p ps ih =>
    obtain ⟨r, hr, -⟩ := h p List.mem_cons_self
    obtain ⟨new, hnew, hadded⟩ := ih (fun q hq => h q (List.mem_cons_of_mem p hq)) (w.hear p.header r)
    refine ⟨.response p.header r :: new, ?_, fun n hn => ?_⟩
    · rw [List.map_cons, List.foldl_cons, onObject_eq hr, hnew, State.hear, List.append_assoc, List.singleton_append]
    · rcases List.mem_cons.1 hn with rfl | hn
      · exact ⟨p, List.mem_cons_self, p.header, r, rfl, hr⟩
      · obtain ⟨q, hq, hresponse⟩ := hadded n hn
        exact ⟨q, List.mem_cons_of_mem p hq, hresponse⟩

theorem Adds.receive (hi : Inv C w) (n : ℕ) : Adds C w ev (receive C n w) := by
  have hsame : Alike w w := ⟨rfl, rfl, rfl, rfl, rfl⟩
  unfold EtcdWatcher.receive
  cases hconn : w.connection with
  | none => exact hsame.adds
  | some c =>
    simp only
    split_ifs with hstop
    · exact hsame.adds
    have hc := hi.carries c hconn
    obtain ⟨new, -, hpieces, hobjects, -⟩ := hc.receive n
    set w₁ : State := { w with connection := some { c with received := c.received + n } }
    rw [onWatchWrite, watchWriteRounds_eq le_rfl w₁, show w₁.buffer = w.buffer from rfl, hobjects]
    have hmeans : ∀ p ∈ new, ∃ r, p.Means C r := fun p hp => hc.means p (hpieces p hp)
    have hh := hears_foldl hmeans w₁
    obtain ⟨notices, hlog, hadded⟩ := log_foldl hmeans w₁
    obtain ⟨stopped, hconn₂⟩ := hh.connection
    refine ⟨hh.range, .inl hh.store, ⟨notices, hlog, fun n hn => ?_⟩, fun c₂ hc₂ p hp => .inl ?_⟩
    · obtain ⟨p, hp, header, r, rfl, hr⟩ := hadded n hn
      exact ⟨c, hconn, p, hpieces p hp, hr⟩
    · obtain rfl := Option.some.inj (hconn₂.symm.trans hc₂)
      exact ⟨c, hconn, hp⟩

theorem Adds.rangeCompleted {reply : HttpReply} : Adds C w (.rangeCompleted reply) (onRangeCompleted C e reply w) := by
  have hdone : ∀ mode time, Adds C w (.rangeCompleted reply)
      { w with rpcOpr := none, isRetryMode := mode, watcherNextRequestTime := time } :=
    fun _ _ => Alike.adds ⟨rfl, rfl, rfl, rfl, rfl⟩
  unfold onRangeCompleted State.later State.immediately
  simp only
  split_ifs with hsuccess hretry
  · exact (hdone false _).active
  · rcases hr : C.rangeResponse reply.content with _ | ⟨header | header, response⟩
    · exact (hdone _ _).active
    · exact (hdone _ _).active
    · simp only
      split_ifs
      · exact (hdone _ _).active
      · refine Adds.active ⟨rfl, .inl rfl, ⟨[.snapshot header response], rfl, fun n hn => ?_⟩,
          fun c hc _ hp => .inl ⟨c, hc, hp⟩⟩
        rw [List.mem_singleton.1 hn]
        exact ⟨reply, rfl, Bool.not_eq_true _ ▸ hretry, hr⟩
  · exact hdone _ _

theorem Adds.push {gap object : Bytes} : Adds C w (.push gap object) (push C gap object w) := by
  have hsame : Alike w w := ⟨rfl, rfl, rfl, rfl, rfl⟩
  unfold EtcdWatcher.push
  cases hconn : w.connection with
  | none => exact hsame.adds
  | some c =>
    cases hr : C.watchResponse object with
    | none => exact hsame.adds
    | some hr' =>
      obtain ⟨header, r⟩ := hr'
      simp only
      split_ifs with hsends
      · refine .quiet rfl (.inl rfl) rfl fun c' hc' p hp => ?_
        obtain rfl := Option.some.inj hc'
        rcases List.mem_append.1 hp with hp | hp
        · exact .inl ⟨c, hconn, hp⟩
        · rw [List.mem_singleton.1 hp]
          exact .inr ⟨gap, rfl, c, hconn, r, hr, hsends⟩
      · exact hsame.adds

theorem event_adds (hi : Inv C w) (ev : WatcherEvent) : Adds C w ev (watcherEvent C e w ev) := by
  have hsame : Alike w w := ⟨rfl, rfl, rfl, rfl, rfl⟩
  cases ev with
  | write changes =>
    simp only [watcherEvent]
    split_ifs
    · exact .quiet rfl (.inr ⟨changes, rfl, rfl⟩) rfl fun c hc _ hp => .inl ⟨c, hc, hp⟩
    · exact hsame.adds
  | clock now => exact Alike.adds ⟨rfl, rfl, rfl, rfl, rfl⟩
  | active => exact hsame.adds.active
  | close =>
    exact .quiet rfl (.inl rfl) rfl fun c hc => absurd hc (Option.not_mem_none c)
  | push gap object => exact .push
  | receive n => exact .receive hi n
  | rangeCompleted reply =>
    simp only [watcherEvent]
    split
    · split_ifs
      · exact .rangeCompleted
      · exact hsame.adds
    · exact hsame.adds
  | watchCompleted errorCode responseCode =>
    have hdone : ∀ time, Adds C w (.watchCompleted errorCode responseCode)
        { w with rpcOpr := none, connection := none, isRetryMode := true, watcherNextRequestTime := time } := fun _ =>
      .quiet rfl (.inl rfl) rfl fun c hc => absurd hc (Option.not_mem_none c)
    simp only [watcherEvent]
    split
    · unfold onWatchCompleted State.later State.immediately
      simp only
      split_ifs
      all_goals exact (hdone _).active
    · exact hsame.adds

end AtFrame.EtcdWatcher
