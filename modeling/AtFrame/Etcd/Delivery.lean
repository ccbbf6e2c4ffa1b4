/-
What a watcher misses across reconnections.

The revision to go on from is taken from the header of every response, and a header may be ahead of the changes that were sent:
the first response of a watch, a progress report or a cancellation tells the revision of the store. Where the connection ends
behind such a response the next watch starts beyond changes that nobody has seen.

- `watchWriteRounds_eq`: the callback hands on the objects of the stream, however it is cut into chunks;
- `Carries`: what a connection and the watcher's buffer have to do with each other;
- `Inv.event`: every event keeps the invariant, the end of a connection under the condition `CaughtUp`;
- `watch_gapless`: the statement over runs; `watch_gap`: a run with a lost change.

Premise: where a watch connection ends, the header that came last was not ahead of the changes that were sent (`CaughtUp`). The
store, the cuts of the stream, the ends of connections and the answers to range requests are otherwise arbitrary, but what etcd
sends are the changes of the range in order (`State.Sends`).
Witness `watch_gapless_sample`: a connection ends behind a put that was told of. In `watch_gap` it ends behind the first response
of the watch, whose header has the revision of that put, and the next watch starts beyond it.
-/
import AtFrame.Etcd.Watcher
import AtFrame.Lib.Past
import AtFrame.Lib.Steps

namespace AtFrame.EtcdWatcher

open AtFrame.Etcd AtFrame.Lib

variable {C : Codec} {e : EtcdEnv} {w w' : State} {c : Connection}

/-! ## Statement -/

/-- `evt_handle_` was told of a change, or was given a snapshot that has it -/
def Heard (log : List Notice) (ch : Change) : Prop :=
  (∃ header r, .snapshot header r ∈ log ∧ ch.kv.modRevision ≤ header.revision) ∨
    ∃ header r, .response header r ∈ log ∧ some ch ∈ r.changes

/-- every change of the range up to a revision has been heard of -/
def State.Told (w : State) (log : List Notice) (revision : ℤ) : Prop :=
  ∀ ch ∈ w.store.history, w.range.Covers ch.kv.key → ch.kv.modRevision ≤ revision → Heard log ch

/-- no watch was requested from beyond a change that was not heard of -/
def State.Gapless (w : State) : Prop :=
  EachPast (fun past n => ∀ startRevision, n = .watch startRevision → w.Told past (startRevision - 1)) w.log

/-- the last response with a header among some -/
def lastHeader (ps : List Piece) : Option Piece := (ps.filter fun p => p.header.isSome).getLast?

/-- the last header that has come in belongs to a response behind which nothing was left to send -/
def State.CaughtUp (w : State) : Prop := ∀ c ∈ w.connection, ∀ p ∈ lastHeader c.arrived, p.behind = 0

instance (w : State) : Decidable w.CaughtUp := inferInstanceAs (Decidable (∀ c ∈ w.connection, ∀ p ∈ lastHeader c.arrived, _))

/-- what is required of an event -/
def StepOk (w : State) : WatcherEvent → Prop
  | .watchCompleted _ _ => w.CaughtUp
  | _ => True

instance (w : State) (ev : WatcherEvent) : Decidable (StepOk w ev) := by
  rcases ev with _ | _ <;> dsimp only [StepOk] <;> infer_instance

/-! ## The stream -/

def State.buffer (w : State) : Splitter UInt8 := ⟨w.rpcDataBrackets, w.rpcDataStream⟩

def State.setBuffer (s : Splitter UInt8) (w : State) : State := { w with rpcDataStream := s.pending, rpcDataBrackets := s.depth }

/-- the revision behind a header -/
def nextRevision (revision : ℤ) : Option ResponseHeader → ℤ
  | some h => if h.revision ≠ 0 then h.revision else revision
  | none => revision

/-- a response stops the request -/
def Response.stops (r : Response) (c : Connection) : Connection := { c with stopped := c.stopped || r.canceled = some true }

/-- the world behind a response -/
def State.hear (header : Option ResponseHeader) (r : Response) (w : State) : State :=
  { w with lastRevision := nextRevision w.lastRevision header, log := w.log ++ [.response header r],
           connection := w.connection.map r.stops }

theorem onObject_eq {text : Bytes} {header : Option ResponseHeader} {r : Response}
    (h : C.watchResponse text = some (header, r)) (w : State) : onObject C text w = w.hear header r := by
  have hstops : r.canceled ≠ some true → w.connection.map r.stops = w.connection := by
    intro hc
    have hid : r.stops = id := funext fun c => by
      rw [Response.stops, decide_eq_false hc, Bool.or_false]
      rfl
    rw [hid, Option.map_id, id]
  have hstopped : r.canceled = some true → r.stops = fun c => { c with stopped := true } := by
    intro hc
    exact funext fun c => by rw [Response.stops, decide_eq_true hc, Bool.or_true]
  unfold onObject State.hear
  rw [h]
  simp only
  cases header with
  | none =>
    split_ifs with hc
    · rw [hstopped hc]; rfl
    · rw [hstops hc]; rfl
  | some h =>
    simp only [nextRevision]
    split_ifs with hc hrev hrev
    · rw [hstopped hc]
    · rw [hstopped hc]
    · rw [hstops hc]
    · rw [hstops hc]

theorem onObject_setBuffer (s : Splitter UInt8) (text : Bytes) (w : State) :
    onObject C text (w.setBuffer s) = (onObject C text w).setBuffer s := by
  cases h : C.watchResponse text with
  | none => simp only [onObject, h]
  | some hr =>
    rw [onObject_eq h, onObject_eq h]
    rfl

theorem foldl_onObject_setBuffer (s : Splitter UInt8) (texts : List Bytes) (w : State) :
    texts.foldl (fun w text => onObject C text w) (w.setBuffer s) =
      (texts.foldl (fun w text => onObject C text w) w).setBuffer s := by
  induction texts generalizing w with
  | nil => rfl
  | cons text texts ih => rw [List.foldl_cons, List.foldl_cons, onObject_setBuffer, ih]

/-- dropped bytes leave the buffer -/
theorem split_skipBytes {s : Splitter UInt8} (hs : s.depth ≤ 0) (inbuf : Bytes) :
    s.split jsonBrackets inbuf = s.split jsonBrackets (skipBytes inbuf) := by
  have hskip : ∀ a ∈ inbuf.takeWhile fun a => decide (jsonBrackets.Skips a), jsonBrackets.Skips a :=
    fun a ha => of_decide_eq_true (List.all_eq_true.1 List.all_takeWhile a ha)
  conv_lhs => rw [← List.takeWhile_append_dropWhile (p := fun a => decide (jsonBrackets.Skips a)) (l := inbuf)]
  rw [split_append, split_gap hs hskip]
  rfl

/-- the bytes of an object, the first of which is not dropped -/
theorem split_scanBytes {s : Splitter UInt8} {inbuf : Bytes}
    (hs : 0 < s.depth ∨ ∀ a ∈ inbuf.head?, ¬ jsonBrackets.Skips a) :
    s.split jsonBrackets inbuf =
      match scanBytes s.depth inbuf with
      | .inl depth => (⟨depth, s.pending ++ inbuf⟩, [])
      | .inr (object, rest) =>
        ((Splitter.split jsonBrackets .fresh rest).1, (s.pending ++ object) :: (Splitter.split jsonBrackets .fresh rest).2) := by
  induction inbuf generalizing s with
  | nil => simp only [Splitter.split, scanBytes, List.append_nil]
  | cons a inbuf ih =>
    have hfeed : s.feed jsonBrackets a = _ := if_neg fun hskip => by
      rcases hs with hs | hs
      · exact absurd hskip.1 (not_le.2 hs)
      · exact hs a (by rw [List.head?_cons, Option.mem_some]) hskip.2
    simp only [Splitter.split, scanBytes, hfeed]
    split_ifs with hclosed
    · rfl
    · have hrest := ih (s := ⟨jsonBrackets.next s.depth a, s.pending ++ [a]⟩) (.inl (not_le.1 hclosed))
      simp only [hrest]
      cases scanBytes (jsonBrackets.next s.depth a) inbuf with
      | inl depth => simp only [Option.toList_none, List.nil_append, List.append_assoc, List.cons_append]
      | inr r => simp only [Option.toList_none, List.nil_append, List.append_assoc, List.cons_append]

theorem length_scanBytes {depth : ℤ} {inbuf object rest : Bytes} (h : scanBytes depth inbuf = .inr (object, rest)) :
    rest.length < inbuf.length := by
  induction inbuf generalizing depth object with
  | nil => cases h
  | cons a inbuf ih =>
    simp only [scanBytes] at h
    split_ifs at h with hclosed
    · cases h
      exact Nat.lt_succ_self _
    · cases hscan : scanBytes (jsonBrackets.next depth a) inbuf with
      | inl d => rw [hscan] at h; cases h
      | inr r =>
        rw [hscan] at h
        cases h
        exact Nat.lt_succ_of_lt (ih hscan)

theorem head_skipBytes (inbuf : Bytes) : ∀ a ∈ (skipBytes inbuf).head?, ¬ jsonBrackets.Skips a := by
  intro a ha
  have hnot := List.head?_dropWhile_not (fun a => decide (jsonBrackets.Skips a)) inbuf
  rw [show (inbuf.dropWhile fun a => decide (jsonBrackets.Skips a)).head? = some a from ha] at hnot
  exact of_decide_eq_false hnot

/-- **The callback** handles the objects that end in a chunk, in order, and keeps the rest. -/
theorem watchWriteRounds_eq {n : ℕ} {inbuf : Bytes} (hn : inbuf.length ≤ n) (w : State) :
    watchWriteRounds C n inbuf w =
      ((w.buffer.split jsonBrackets inbuf).2.foldl (fun w text => onObject C text w) w).setBuffer
        (w.buffer.split jsonBrackets inbuf).1 := by
  induction n generalizing inbuf w with
  | zero =>
    rw [List.length_eq_zero_iff.1 (Nat.le_zero.1 hn)]
    rfl
  | succ n ih =>
    have hround : ∀ buf : Bytes, buf.length ≤ n + 1 → (0 < w.buffer.depth ∨ ∀ a ∈ buf.head?, ¬ jsonBrackets.Skips a) →
        (match scanBytes w.rpcDataBrackets buf with
          | .inl depth => { w with rpcDataStream := w.rpcDataStream ++ buf, rpcDataBrackets := depth }
          | .inr (object, rest) =>
            watchWriteRounds C n rest (onObject C (w.rpcDataStream ++ object) (w.setBuffer .fresh))) =
        ((w.buffer.split jsonBrackets buf).2.foldl (fun w text => onObject C text w) w).setBuffer
          (w.buffer.split jsonBrackets buf).1 := by
      intro buf hbuf hs
      rw [split_scanBytes hs]
      cases hscan : scanBytes w.rpcDataBrackets buf with
      | inl depth =>
        rw [show scanBytes w.buffer.depth buf = .inl depth from hscan]
        rfl
      | inr r =>
        obtain ⟨object, rest⟩ := r
        rw [show scanBytes w.buffer.depth buf = .inr (object, rest) from hscan]
        have hrest : rest.length ≤ n := Nat.le_of_lt_succ ((length_scanBytes hscan).trans_le hbuf)
        simp only [onObject_setBuffer, ih hrest]
        rw [show ((onObject C (w.rpcDataStream ++ object) w).setBuffer .fresh).buffer = Splitter.fresh from rfl,
          foldl_onObject_setBuffer]
        rfl
    simp only [watchWriteRounds]
    split_ifs with hnil hdepth
    · rw [hnil]
      rfl
    · rw [split_skipBytes (s := w.buffer) hdepth]
      exact hround (skipBytes inbuf) ((List.dropWhile_suffix _).length_le.trans hn) (.inr (head_skipBytes inbuf))
    · exact hround inbuf hn (.inl (not_le.1 hdepth))

/-! ## Responses -/

/-- the response that a piece stands for -/
def Piece.Means (C : Codec) (p : Piece) (r : Response) : Prop :=
  C.watchResponse p.object = some (p.header, r) ∧ r.changes = p.changes.map some

/-- what handling some pieces leads to -/
structure Hears (ps : List Piece) (w w' : State) : Prop where
  range : w'.range = w.range
  store : w'.store = w.store
  rpcOpr : w'.rpcOpr = w.rpcOpr
  connection : ∃ stopped : Connection → Bool, w'.connection = w.connection.map fun c => { c with stopped := stopped c }
  log : ∃ new, w'.log = w.log ++ new ∧ ∀ n ∈ new, ∀ r, n ≠ .watch r
  heard : ∀ p ∈ ps, ∀ ch ∈ p.changes, Heard w'.log ch
  lastRevision : w'.lastRevision = ps.foldl (fun revision p => nextRevision revision p.header) w.lastRevision

theorem Heard.append {log : List Notice} {ch : Change} (h : Heard log ch) (new : List Notice) : Heard (log ++ new) ch :=
  h.imp (fun ⟨header, r, hmem, hle⟩ => ⟨header, r, List.mem_append_left new hmem, hle⟩)
    fun ⟨header, r, hmem, hch⟩ => ⟨header, r, List.mem_append_left new hmem, hch⟩

theorem State.Told.append {log : List Notice} {revision : ℤ} (h : w.Told log revision) (new : List Notice) :
    w.Told (log ++ new) revision := fun ch hch hcov hle => (h ch hch hcov hle).append new

theorem hears_foldl {ps : List Piece} (h : ∀ p ∈ ps, ∃ r, p.Means C r) (w : State) :
    Hears ps w ((ps.map Piece.object).foldl (fun w text => onObject C text w) w) := by
  induction ps generalizing w with
  | nil =>
    refine ⟨rfl, rfl, rfl, ⟨Connection.stopped, ?_⟩, ⟨[], (List.append_nil _).symm, fun _ hn => absurd hn List.not_mem_nil⟩,
      fun _ hp => absurd hp List.not_mem_nil, rfl⟩
    exact (Option.map_id' ..).symm
  | cons p ps ih =>
    obtain ⟨r, hr, hchanges⟩ := h p List.mem_cons_self
    rw [List.map_cons, List.foldl_cons, onObject_eq hr]
    have hrest := ih (fun q hq => h q (List.mem_cons_of_mem p hq)) (w.hear p.header r)
    obtain ⟨stopped, hstopped⟩ := hrest.connection
    obtain ⟨new, hnew, hno⟩ := hrest.log
    refine ⟨hrest.range, hrest.store, hrest.rpcOpr, ⟨fun c => stopped (r.stops c), ?_⟩,
      ⟨.response p.header r :: new, ?_, ?_⟩, ?_, hrest.lastRevision⟩
    · rw [hstopped, State.hear, Option.map_map]
      rfl
    · rw [hnew, State.hear, List.append_assoc, List.singleton_append]
    · intro n hn
      rcases List.mem_cons.1 hn with rfl | hn
      · exact fun r h => Notice.noConfusion h
      · exact hno n hn
    · intro q hq ch hch
      rcases List.mem_cons.1 hq with rfl | hq
      · rw [hnew]
        refine Heard.append (.inr ⟨q.header, r, List.mem_append_right _ (List.mem_singleton_self _), ?_⟩) new
        rw [hchanges]
        exact List.mem_map_of_mem hch
      · exact hrest.heard q hq ch hch

/-! ## The invariant -/

def State.Watching (w : State) : Bool :=
  match w.rpcOpr with
  | some (.watch ..) => true
  | _ => false

/-- a connection and what the watcher has made of it -/
structure Carries (C : Codec) (w : State) (c : Connection) : Prop where
  told : w.Told w.log (c.startRevision - 1)
  start : 1 ≤ c.startRevision ∧ c.startRevision ≤ w.store.revision + 1
  framed : ∀ p ∈ c.pieces, Framed jsonBrackets p.gap p.object
  means : ∀ p ∈ c.pieces, ∃ r, p.Means C r
  header : ∀ p ∈ c.pieces, ∀ h ∈ p.header, 0 < h.revision ∧ h.revision ≤ w.store.revision
  /-- the changes are sent in order -/
  order : ∃ rest, w.due c.startRevision = c.sent ++ rest
  /-- a response behind which nothing was left has, with those before it, every change up to its revision -/
  complete : EachPast (fun past p => p.behind = 0 → ∀ h ∈ p.header, ∀ ch ∈ w.due c.startRevision,
    ch.kv.modRevision ≤ h.revision → ch ∈ (past ++ [p]).flatMap Piece.changes) c.pieces
  received : c.received ≤ c.wire.length
  buffer : w.buffer = (Splitter.split jsonBrackets .fresh (c.wire.take c.received)).1
  heard : ∀ p ∈ c.arrived, ∀ ch ∈ p.changes, Heard w.log ch
  revision : w.lastRevision = c.arrived.foldl (fun revision p => nextRevision revision p.header) (c.startRevision - 1)

structure Inv (C : Codec) (w : State) : Prop where
  revision : 1 ≤ w.store.revision
  history : ∀ ch ∈ w.store.history, 1 ≤ ch.kv.modRevision ∧ ch.kv.modRevision ≤ w.store.revision
  last : 0 ≤ w.lastRevision ∧ w.lastRevision ≤ w.store.revision
  watches : ∀ r, .watch r ∈ w.log → r ≤ w.store.revision + 1
  gapless : w.Gapless
  watching : w.Watching = w.connection.isSome
  idle : w.connection = none → w.Told w.log w.lastRevision
  carries : ∀ c ∈ w.connection, Carries C w c

/-- a step that leaves what the invariant speaks of -/
structure Same (w w' : State) : Prop where
  range : w'.range = w.range
  store : w'.store = w.store
  lastRevision : w'.lastRevision = w.lastRevision
  log : w'.log = w.log
  watching : w'.Watching = w.Watching
  connection : w'.connection = w.connection
  buffer : w'.buffer = w.buffer

theorem told_congr {log : List Notice} {revision : ℤ} (hrange : w'.range = w.range) (hstore : w'.store = w.store)
    (h : w.Told log revision) : w'.Told log revision := by
  intro ch hch
  rw [hstore] at hch
  rw [hrange]
  exact h ch hch

theorem due_congr (hrange : w'.range = w.range) (hstore : w'.store = w.store) (startRevision : ℤ) :
    w'.due startRevision = w.due startRevision := by
  rw [State.due, State.due, hrange, hstore]

theorem Carries.congr (hc : Carries C w c) (hrange : w'.range = w.range) (hstore : w'.store = w.store) (hlog : w'.log = w.log)
    (hbuffer : w'.buffer = w.buffer) (hlast : w'.lastRevision = w.lastRevision) : Carries C w' c where
  told := hlog ▸ told_congr hrange hstore hc.told
  start := hstore ▸ hc.start
  framed := hc.framed
  means := hc.means
  header := hstore ▸ hc.header
  order := due_congr hrange hstore c.startRevision ▸ hc.order
  complete := due_congr hrange hstore c.startRevision ▸ hc.complete
  received := hc.received
  buffer := hbuffer.trans hc.buffer
  heard := hlog ▸ hc.heard
  revision := hlast.trans hc.revision

theorem Inv.same (hi : Inv C w) (h : Same w w') : Inv C w' where
  revision := h.store ▸ hi.revision
  history := h.store ▸ hi.history
  last := by rw [h.store, h.lastRevision]; exact hi.last
  watches := by rw [h.store, h.log]; exact hi.watches
  gapless := by
    rw [State.Gapless, h.log]
    exact hi.gapless.mono fun _ _ hpast r hr => told_congr h.range h.store (hpast r hr)
  watching := by rw [h.watching, h.connection]; exact hi.watching
  idle hnone := by
    rw [h.log, h.lastRevision]
    exact told_congr h.range h.store (hi.idle (h.connection ▸ hnone))
  carries c hc := (hi.carries c (h.connection ▸ hc)).congr h.range h.store h.log h.buffer h.lastRevision

/-! ## Requests -/

theorem Inv.connection_none (hi : Inv C w) (h : w.Watching = false) : w.connection = none :=
  Option.not_isSome_iff_eq_none.1 (by rw [← hi.watching, h]; exact Bool.false_ne_true)

theorem same_processRange (hrpc : w.rpcOpr = none) : Same w (processRange e w) := by
  have hidle : w.Watching = false := by rw [State.Watching, hrpc]
  unfold processRange createRequest startRequest
  generalize packKeyRange w.path _ = range
  simp only
  split_ifs
  · exact ⟨rfl, rfl, rfl, rfl, hidle.symm, rfl, rfl⟩
  · exact ⟨rfl, rfl, rfl, rfl, hidle.symm, rfl, rfl⟩
  · exact ⟨rfl, rfl, rfl, rfl, rfl, rfl, rfl⟩

/-- the world behind a watch request that was started -/
def State.watch (w : State) (request : Request) : State :=
  { w with rpcOpr := some request, rpcDataStream := [], rpcDataBrackets := 0,
           connection := some ⟨w.lastRevision + 1, [], false, 0, false⟩, log := w.log ++ [.watch (w.lastRevision + 1)] }

/-- a watch request from behind the last revision is made when everything up to it has been heard of -/
theorem Inv.watch (hi : Inv C w) (htold : w.Told w.log w.lastRevision) (range : KeyRange) (start : ℤ) (prevKv notify : Bool)
    (timeout : ℤ) : Inv C (w.watch (.watch range start prevKv notify timeout)) where
  revision := hi.revision
  history := hi.history
  last := hi.last
  watches r hr := by
    rcases List.mem_append.1 hr with hr | hr
    · exact hi.watches r hr
    · cases List.mem_singleton.1 hr
      exact Int.add_le_add_right hi.last.2 1
  gapless := by
    refine eachPast_snoc.2 ⟨hi.gapless.mono fun _ _ hpast r hr => told_congr rfl rfl (hpast r hr), fun r hr => ?_⟩
    cases hr
    rw [add_sub_cancel_right]
    exact told_congr rfl rfl htold
  watching := rfl
  idle hnone := absurd hnone (Option.some_ne_none _)
  carries c hc := by
    obtain rfl := Option.some.inj hc
    refine ⟨?_, ⟨?_, Int.add_le_add_right hi.last.2 1⟩, fun _ hp => absurd hp List.not_mem_nil,
      fun _ hp => absurd hp List.not_mem_nil, fun _ hp => absurd hp List.not_mem_nil, ⟨_, rfl⟩, eachPast_nil, Nat.zero_le _, rfl,
      fun _ hp => absurd hp List.not_mem_nil, ?_⟩
    · rw [add_sub_cancel_right]
      exact (told_congr rfl rfl htold).append _
    · exact Int.le_add_of_nonneg_left hi.last.1
    · exact (add_sub_cancel_right _ _).symm

theorem Inv.processWatch (hi : Inv C w) (hrpc : w.rpcOpr = none) : Inv C (processWatch e w) := by
  have hidle : w.Watching = false := by rw [State.Watching, hrpc]
  have htold := hi.idle (hi.connection_none hidle)
  unfold EtcdWatcher.processWatch createRequest startRequest
  simp only
  split_ifs
  · set w₁ : State := { w with creates := w.creates + 1, starts := w.starts + 1 }
    have hsame : Same w w₁ := ⟨rfl, rfl, rfl, rfl, rfl, rfl, rfl⟩
    exact (hi.same hsame).watch htold _ _ _ _ _
  · set w₁ : State := { w with creates := w.creates + 1, rpcDataStream := [], rpcDataBrackets := 0, starts := w.starts + 1,
                               rpcOpr := none }
    have hnone := hi.connection_none hidle
    exact { revision := hi.revision, history := hi.history, last := hi.last, watches := hi.watches, gapless := hi.gapless,
            watching := by rw [hnone]; rfl, idle := fun _ => htold,
            carries := fun c hc => absurd (hnone.symm.trans hc) (Option.some_ne_none c).symm }
  · exact hi.same ⟨rfl, rfl, rfl, rfl, rfl, rfl, rfl⟩

theorem Inv.process (hi : Inv C w) : Inv C (process e w) := by
  unfold EtcdWatcher.process
  simp only
  have hsame : Same w { w with isActived := false } := ⟨rfl, rfl, rfl, rfl, rfl, rfl, rfl⟩
  split_ifs with hrpc
  · exact hi
  · exact hi.same hsame
  all_goals rw [Option.not_isSome_iff_eq_none] at hrpc
  · exact (hi.same hsame).same (same_processRange hrpc)
  · exact (hi.same hsame).processWatch hrpc

theorem Inv.active (hi : Inv C w) : Inv C (active e w) :=
  have hsame : Same w { w with isActived := true } := ⟨rfl, rfl, rfl, rfl, rfl, rfl, rfl⟩
  (hi.same hsame).process

/-- no revision is known -/
theorem told_zero (hi : Inv C w) (log : List Notice) : w.Told log 0 :=
  fun ch hch _ hle => absurd ((hi.history ch hch).1.trans hle) (by decide)

theorem Inv.close (hi : Inv C w) : Inv C (close w) where
  revision := hi.revision
  history := hi.history
  last := ⟨le_rfl, zero_le_one.trans hi.revision⟩
  watches := hi.watches
  gapless := hi.gapless
  watching := rfl
  idle _ := told_zero hi w.log
  carries _ hc := absurd hc (Option.some_ne_none _).symm

/-! ## The store -/

theorem Inv.write (hi : Inv C w) {changes : List Change} (h : ∀ ch ∈ changes, ch.kv.modRevision = w.store.revision + 1) :
    Inv C { w with store := ⟨w.store.revision + 1, w.store.history ++ changes⟩ } := by
  set w' : State := { w with store := ⟨w.store.revision + 1, w.store.history ++ changes⟩ }
  have htold : ∀ log revision, revision ≤ w.store.revision → w.Told log revision → w'.Told log revision := by
    intro log revision hrev ht ch hch hcov hle
    rcases List.mem_append.1 hch with hch | hch
    · exact ht ch hch hcov hle
    · rw [h ch hch] at hle
      exact absurd (hle.trans hrev) (by omega)
  refine ⟨by simp only [w']; linarith [hi.revision], ?_, ⟨hi.last.1, hi.last.2.trans (Int.le_add_one le_rfl)⟩, ?_, ?_, hi.watching,
    fun hnone => htold _ _ hi.last.2 (hi.idle hnone), ?_⟩
  · intro ch hch
    rcases List.mem_append.1 hch with hch | hch
    · exact ⟨(hi.history ch hch).1, (hi.history ch hch).2.trans (Int.le_add_one le_rfl)⟩
    · rw [h ch hch]
      exact ⟨by linarith [hi.revision], le_rfl⟩
  · exact fun r hr => (hi.watches r hr).trans (Int.le_add_one le_rfl)
  · intro pre n post hlog r hr
    have hle := hi.watches r (by rw [show w.log = pre ++ n :: post from hlog, hr]; exact List.mem_append_right _ List.mem_cons_self)
    exact htold _ _ (sub_le_iff_le_add.2 hle) (hi.gapless pre n post hlog r hr)
  · intro c hc
    have hc := hi.carries c hc
    have hdue : w'.due c.startRevision = w.due c.startRevision ++ changes.filter fun ch =>
        w.range.Covers ch.kv.key ∧ c.startRevision ≤ ch.kv.modRevision := List.filter_append ..
    refine { hc with told := ?_, start := ?_, header := ?_, order := ?_, complete := ?_ }
    · exact htold _ _ (sub_le_iff_le_add.2 hc.start.2) hc.told
    · exact ⟨hc.start.1, hc.start.2.trans (Int.le_add_one le_rfl)⟩
    · exact fun p hp h hh => ⟨(hc.header p hp h hh).1, (hc.header p hp h hh).2.trans (Int.le_add_one le_rfl)⟩
    · obtain ⟨rest, hrest⟩ := hc.order
      exact ⟨_, by rw [hdue, hrest, List.append_assoc]⟩
    · intro past p later hpieces hbehind header hheader ch hch hle
      rw [hdue] at hch
      rcases List.mem_append.1 hch with hch | hch
      · exact hc.complete past p later hpieces hbehind header hheader ch hch hle
      · rw [h ch (List.mem_filter.1 hch).1] at hle
        have hbound := (hc.header p (by rw [hpieces]; exact List.mem_append_right _ List.mem_cons_self) header hheader).2
        exact absurd (hle.trans hbound) (by omega)

/-! ## The connection -/

theorem length_wire (ps : List Piece) : (ps.flatMap Piece.bytes).length = (ps.map Piece.size).sum := List.length_flatMap ..

theorem Carries.push (hc : Carries C w c) (hrev : 1 ≤ w.store.revision) {gap object : Bytes} {header : Option ResponseHeader}
    {r : Response} (hr : C.watchResponse object = some (header, r)) (h : w.Sends c gap object header r) (canceled : Bool) :
    Carries C w { c with
      pieces := c.pieces ++
        [⟨gap, object, header, (w.pending c).take r.events.length, ((w.pending c).drop r.events.length).length⟩]
      canceled := canceled } := by
  obtain ⟨hframed, -, hheader, hchanges⟩ := h
  set n := r.events.length
  set p : Piece := ⟨gap, object, header, (w.pending c).take n, ((w.pending c).drop n).length⟩
  obtain ⟨rest, hrest⟩ := hc.order
  have hpending : w.pending c = rest := by rw [State.pending, hrest, List.drop_left]
  have hsum : (c.wire).length = (c.pieces.map Piece.size).sum := length_wire c.pieces
  have hsize : 0 < p.size := List.length_pos_iff.2 (List.append_ne_nil_of_right_ne_nil _ hframed.encloses.ne_nil)
  have harrived : Lib.arrived Piece.size (c.pieces ++ [p]) c.received = c.arrived := arrived_concat _ (hsum ▸ hc.received) hsize
  have hmem : ∀ {P : Piece → Prop}, (∀ q ∈ c.pieces, P q) → P p → ∀ q ∈ c.pieces ++ [p], P q := by
    intro P hpieces hp q hq
    exact (List.mem_append.1 hq).elim (hpieces q) fun hq => List.mem_singleton.1 hq ▸ hp
  have hwire : (c.pieces ++ [p]).flatMap Piece.bytes = c.wire ++ p.bytes := by
    rw [List.flatMap_append, List.flatMap_singleton]
    rfl
  have hsent : (c.pieces ++ [p]).flatMap Piece.changes = c.sent ++ (w.pending c).take n := by
    rw [List.flatMap_append, List.flatMap_singleton]
    rfl
  refine { hc with
    framed := hmem hc.framed hframed, means := hmem hc.means ⟨r, hr, hchanges⟩
    header := hmem hc.header fun h hh => ?_, order := ⟨rest.drop n, ?_⟩, complete := eachPast_snoc.2 ⟨hc.complete, ?_⟩
    received := ?_, buffer := ?_, heard := ?_, revision := ?_ }
  · rw [hheader h hh]
    exact ⟨zero_lt_one.trans_le hrev, le_rfl⟩
  · rw [Connection.sent, hsent, hpending, List.append_assoc, List.take_append_drop]
    exact hrest
  · intro hbehind header hheader ch hch _
    have htake : (w.pending c).take n = rest := by
      rw [hpending, List.take_of_length_le (List.drop_eq_nil_iff.1 (hpending ▸ List.length_eq_zero_iff.1 hbehind))]
    rw [hsent, htake]
    exact hrest ▸ hch
  · rw [Connection.wire, hwire, List.length_append]
    exact hc.received.trans (Nat.le_add_right ..)
  · rw [Connection.wire, hwire, List.take_append_of_le_length hc.received]
    exact hc.buffer
  · rw [Connection.arrived, harrived]
    exact hc.heard
  · rw [Connection.arrived, harrived]
    exact hc.revision

theorem Inv.push (hi : Inv C w) (gap object : Bytes) : Inv C (push C gap object w) := by
  unfold EtcdWatcher.push
  cases hconn : w.connection with
  | none => exact hi
  | some c =>
    cases hr : C.watchResponse object with
    | none => exact hi
    | some hr' =>
      obtain ⟨header, r⟩ := hr'
      simp only
      split_ifs with hsends
      · refine { hi with watching := ?_, idle := fun hnone => absurd hnone (Option.some_ne_none _), carries := fun c' hc' => ?_ }
        · exact hi.watching.trans (by rw [hconn]; rfl)
        · obtain rfl := Option.some.inj hc'
          exact ((hi.carries c hconn).push hi.revision hr hsends _).congr rfl rfl rfl rfl rfl
      · exact hi

/-- the revision stays one that the store has had -/
theorem foldl_nextRevision {ps : List Piece} {bound revision : ℤ}
    (h : ∀ p ∈ ps, ∀ h ∈ p.header, 0 < h.revision ∧ h.revision ≤ bound) (hrev : 0 ≤ revision ∧ revision ≤ bound) :
    0 ≤ ps.foldl (fun revision p => nextRevision revision p.header) revision ∧
      ps.foldl (fun revision p => nextRevision revision p.header) revision ≤ bound := by
  induction ps generalizing revision with
  | nil => exact hrev
  | cons p ps ih =>
    refine ih (fun q hq => h q (List.mem_cons_of_mem p hq)) ?_
    cases hp : p.header with
    | none => simpa only [hp, nextRevision] using hrev
    | some header =>
      obtain ⟨hpos, hle⟩ := h p List.mem_cons_self header hp
      simp only [hp, nextRevision]
      split_ifs
      · exact ⟨hpos.le, hle⟩
      · exact hrev

/-- bytes that come in complete some pieces -/
theorem Carries.receive (hc : Carries C w c) (n : ℕ) :
    ∃ new, Lib.arrived Piece.size c.pieces (c.received + n) = c.arrived ++ new ∧ (∀ p ∈ new, p ∈ c.pieces) ∧
      (w.buffer.split jsonBrackets ((c.wire.drop c.received).take n)).2 = new.map Piece.object ∧
      (w.buffer.split jsonBrackets ((c.wire.drop c.received).take n)).1 =
        (Splitter.split jsonBrackets .fresh (c.wire.take (c.received + n))).1 := by
  obtain ⟨new, hnew⟩ := arrived_grows Piece.size c.pieces c.received n
  have hobjects := split_arrived (g := Piece.gap) (o := Piece.object) hc.framed
  have hsplit := split_append (B := jsonBrackets) .fresh (c.wire.take c.received) ((c.wire.drop c.received).take n)
  rw [← List.take_add, ← hc.buffer] at hsplit
  refine ⟨new, hnew.symm, fun p hp => ?_, ?_, ?_⟩
  · exact (arrived_initial Piece.size c.pieces (c.received + n)).subset (hnew ▸ List.mem_append_right _ hp)
  · have hall : (Splitter.split jsonBrackets .fresh (c.wire.take (c.received + n))).2 = _ := hobjects (c.received + n)
    have hpast : (Splitter.split jsonBrackets .fresh (c.wire.take c.received)).2 = _ := hobjects c.received
    rw [hsplit, hpast] at hall
    have hmap := congrArg (List.map Piece.object) hnew
    rw [List.map_append] at hmap
    exact List.append_cancel_left (hall.trans hmap.symm)
  · rw [hsplit]

theorem Inv.receive (hi : Inv C w) (n : ℕ) : Inv C (receive C n w) := by
  unfold EtcdWatcher.receive
  cases hconn : w.connection with
  | none => exact hi
  | some c =>
    simp only
    split_ifs with hstop
    · exact hi
    have hc := hi.carries c hconn
    rw [not_or, not_lt] at hstop
    obtain ⟨new, hnew, hpieces, hobjects, hbuffer⟩ := hc.receive n
    set c' : Connection := { c with received := c.received + n }
    set w₁ : State := { w with connection := some c' }
    have hlen : ((c.wire.drop c.received).take n).length ≤ ((c.wire.drop c.received).take n).length := le_rfl
    rw [onWatchWrite, watchWriteRounds_eq hlen w₁, show w₁.buffer = w.buffer from rfl, hobjects, hbuffer]
    have hh := hears_foldl (C := C) (fun p hp => hc.means p (hpieces p hp)) w₁
    set w₂ := (new.map Piece.object).foldl (fun w text => onObject C text w) w₁
    set s := (Splitter.split jsonBrackets .fresh (c.wire.take (c.received + n))).1
    obtain ⟨stopped, hconn₂⟩ := hh.connection
    obtain ⟨notices, hlog, hno⟩ := hh.log
    have htold : ∀ log revision, w.Told log revision → (w₂.setBuffer s).Told log revision :=
      fun log revision => told_congr hh.range hh.store
    have hlast : w₂.lastRevision = c'.arrived.foldl (fun revision p => nextRevision revision p.header) (c.startRevision - 1) := by
      rw [hh.lastRevision, show c'.arrived = c.arrived ++ new from hnew, List.foldl_append, ← hc.revision]
    refine ⟨hh.store ▸ hi.revision, ?_, ?_, ?_, ?_, ?_, ?_, ?_⟩
    · exact fun ch hch => hh.store ▸ hi.history ch (hh.store ▸ hch)
    · rw [show (w₂.setBuffer s).lastRevision = w₂.lastRevision from rfl, hh.lastRevision, show (w₂.setBuffer s).store = w.store from hh.store]
      exact foldl_nextRevision (fun p hp => hc.header p (hpieces p hp)) hi.last
    · intro r hr
      rw [show (w₂.setBuffer s).store = w.store from hh.store]
      rw [show (w₂.setBuffer s).log = _ from hlog] at hr
      exact hi.watches r ((List.mem_append.1 hr).resolve_right fun hr => hno _ hr r rfl)
    · rw [State.Gapless, show (w₂.setBuffer s).log = _ from hlog]
      refine EachPast.append (hi.gapless.mono fun _ _ hpast r hr => htold _ _ (hpast r hr)) fun x hx pre r hr => ?_
      exact absurd hr (hno x hx r)
    · have hwatching : (w₂.setBuffer s).Watching = w.Watching := by
        unfold State.Watching
        rw [show (w₂.setBuffer s).rpcOpr = w.rpcOpr from hh.rpcOpr]
      rw [hwatching, hi.watching, hconn, show (w₂.setBuffer s).connection = _ from hconn₂]
      rfl
    · intro hnone
      rw [show (w₂.setBuffer s).connection = _ from hconn₂] at hnone
      exact absurd hnone (Option.some_ne_none _)
    · intro c₂ hc₂
      rw [show (w₂.setBuffer s).connection = _ from hconn₂] at hc₂
      obtain rfl := Option.some.inj hc₂
      refine { hc with told := ?_, start := ?_, header := ?_, order := ?_, complete := ?_, received := hstop.2, buffer := ?_,
                       heard := ?_, revision := hlast }
      · rw [show (w₂.setBuffer s).log = _ from hlog]
        exact (htold _ _ hc.told).append notices
      · exact hh.store ▸ hc.start
      · exact hh.store ▸ hc.header
      · exact due_congr hh.range hh.store c.startRevision ▸ hc.order
      · exact due_congr hh.range hh.store c.startRevision ▸ hc.complete
      · rfl
      · intro p hp ch hch
        have hp : p ∈ c.arrived ++ new := hnew ▸ hp
        rcases List.mem_append.1 hp with hp | hp
        · rw [show (w₂.setBuffer s).log = _ from hlog]
          exact (hc.heard p hp ch hch).append notices
        · exact hh.heard p hp ch hch

/-- the revision that some pieces lead to is that of the last header -/
theorem foldl_lastHeader {ps : List Piece} (h : ∀ p ∈ ps, ∀ h ∈ p.header, 0 < h.revision) (revision : ℤ) :
    (ps.foldl (fun revision p => nextRevision revision p.header) revision = revision) ∨
      ∃ past p rest header, ps = past ++ p :: rest ∧ lastHeader ps = some p ∧ p.header = some header ∧
        ps.foldl (fun revision p => nextRevision revision p.header) revision = header.revision := by
  induction ps using List.reverseRecOn with
  | nil => exact .inl rfl
  | append_singleton ps q ih =>
    rw [List.foldl_append, List.foldl_cons, List.foldl_nil]
    cases hq : q.header with
    | none =>
      have hlast : lastHeader (ps ++ [q]) = lastHeader ps := by
        rw [lastHeader, List.filter_append, List.filter_cons_of_neg (by rw [hq]; exact Bool.false_ne_true), List.filter_nil,
          List.append_nil]
        rfl
      rw [hlast]
      refine (ih fun p hp => h p (List.mem_append_left _ hp)).imp id ?_
      rintro ⟨past, p, rest, header, hps, hp, hheader, heq⟩
      exact ⟨past, p, rest ++ [q], header, by rw [hps, List.append_assoc, List.cons_append], hp, hheader, heq⟩
    | some header =>
      have hpos := h q (List.mem_append_right _ (List.mem_singleton_self q)) header hq
      refine .inr ⟨ps, q, [], header, rfl, ?_, hq, ?_⟩
      · rw [lastHeader, List.filter_append, List.filter_cons_of_pos (by rw [hq]; rfl), List.filter_nil, List.getLast?_concat]
      · rw [nextRevision, if_pos hpos.ne']

/-- **Where the last header was not ahead**, everything up to it has been heard of. -/
theorem Carries.caughtUp (hc : Carries C w c) (h : ∀ p ∈ lastHeader c.arrived, p.behind = 0) : w.Told w.log w.lastRevision := by
  have hsub : ∀ p ∈ c.arrived, p ∈ c.pieces := fun p hp => (arrived_initial Piece.size c.pieces c.received).subset hp
  rw [hc.revision]
  rcases foldl_lastHeader (fun p hp header hh => (hc.header p (hsub p hp) header hh).1) (c.startRevision - 1) with
    heq | ⟨past, p, rest, header, harrived, hlast, hheader, heq⟩ <;> rw [heq]
  · exact hc.told
  intro ch hch hcov hle
  by_cases hstart : c.startRevision ≤ ch.kv.modRevision
  · obtain ⟨later, hlater⟩ := arrived_initial Piece.size c.pieces c.received
    have hpieces : c.pieces = past ++ p :: (rest ++ later) := by
      rw [← hlater, ← Connection.arrived, harrived, List.append_assoc, List.cons_append]
    have hdue : ch ∈ w.due c.startRevision := List.mem_filter.2 ⟨hch, decide_eq_true ⟨hcov, hstart⟩⟩
    obtain ⟨q, hq, hchq⟩ := List.mem_flatMap.1 (hc.complete past p _ hpieces (h p hlast) header hheader ch hdue hle)
    refine hc.heard q ?_ ch hchq
    rw [harrived]
    refine (List.mem_append.1 hq).elim (List.mem_append_left _) fun hq => ?_
    exact List.mem_singleton.1 hq ▸ List.mem_append_right _ List.mem_cons_self
  · exact hc.told ch hch hcov (Int.le_sub_one_of_lt (not_le.1 hstart))

/-! ## Answers -/

/-- the connection is over and everything up to the last revision has been heard of -/
theorem Inv.disconnect (hi : Inv C w) (htold : w.Told w.log w.lastRevision) (hrange : w'.range = w.range) (hstore : w'.store = w.store)
    (hlast : w'.lastRevision = w.lastRevision) (hlog : w'.log = w.log) (hwatching : w'.Watching = false)
    (hconn : w'.connection = none) : Inv C w' where
  revision := hstore ▸ hi.revision
  history := hstore ▸ hi.history
  last := by rw [hstore, hlast]; exact hi.last
  watches := by rw [hstore, hlog]; exact hi.watches
  gapless := by
    rw [State.Gapless, hlog]
    exact hi.gapless.mono fun _ _ hpast r hr => told_congr hrange hstore (hpast r hr)
  watching := by rw [hwatching, hconn]; rfl
  idle _ := by
    rw [hlog, hlast]
    exact told_congr hrange hstore htold
  carries _ hc := absurd (hconn.symm.trans hc) (Option.some_ne_none _).symm

theorem Inv.watchCompleted (hi : Inv C w) (hup : w.CaughtUp) (errorCode responseCode : ℤ) :
    Inv C (onWatchCompleted e errorCode responseCode w) := by
  have htold : w.Told w.log w.lastRevision := by
    cases hconn : w.connection with
    | none => exact hi.idle hconn
    | some c => exact (hi.carries c hconn).caughtUp (hup c hconn)
  have hdone : ∀ time, Inv C { w with rpcOpr := none, connection := none, isRetryMode := true, watcherNextRequestTime := time } :=
    fun _ => hi.disconnect htold rfl rfl rfl rfl rfl rfl
  unfold onWatchCompleted State.later State.immediately
  simp only
  split_ifs
  all_goals exact (hdone _).active

theorem Inv.snapshot (hi : Inv C w) (hidle : w.Watching = false) {header : ResponseHeader} (r : Response)
    (hrev : 0 ≤ header.revision ∧ header.revision ≤ w.store.revision) (time : ℤ) :
    Inv C { w with lastRevision := header.revision, log := w.log ++ [.snapshot header r], watcherNextRequestTime := time } where
  revision := hi.revision
  history := hi.history
  last := hrev
  watches startRevision hr :=
    hi.watches startRevision ((List.mem_append.1 hr).resolve_right fun hr => Notice.noConfusion (List.mem_singleton.1 hr))
  gapless := eachPast_snoc.2 ⟨hi.gapless.mono fun _ _ hpast r hr => told_congr rfl rfl (hpast r hr), fun _ h => Notice.noConfusion h⟩
  watching := hi.watching
  idle _ _ _ _ hle := .inl ⟨header, r, List.mem_append_right _ (List.mem_singleton_self _), hle⟩
  carries c hc := absurd ((hi.connection_none hidle).symm.trans hc) (Option.some_ne_none c).symm

theorem Inv.rangeCompleted (hi : Inv C w) (hidle : w.Watching = false) {r : HttpReply} (h : w.Answers C r) :
    Inv C (onRangeCompleted C e r w) := by
  have hdone : ∀ mode time, Same w { w with rpcOpr := none, isRetryMode := mode, watcherNextRequestTime := time } :=
    fun _ _ => ⟨rfl, rfl, rfl, rfl, hidle.symm, rfl, rfl⟩
  unfold onRangeCompleted State.later State.immediately
  simp only
  split_ifs
  · exact (hi.same (hdone false _)).active
  · unfold State.Answers at h
    rcases hr : C.rangeResponse r.content with _ | ⟨header | header, response⟩
    · exact (hi.same (hdone _ _)).active
    · exact (hi.same (hdone _ _)).active
    · rw [hr] at h
      simp only at h ⊢
      split_ifs
      · exact (hi.same (hdone _ _)).active
      · exact ((hi.same (hdone w.isRetryMode w.watcherNextRequestTime)).snapshot rfl response h _).active
  · exact hi.same (hdone _ _)

/-! ## Runs -/

theorem Inv.event (hi : Inv C w) (ev : WatcherEvent) (hok : StepOk w ev) : Inv C (watcherEvent C e w ev) := by
  cases ev with
  | write changes =>
    simp only [watcherEvent]
    split_ifs with h
    · exact hi.write h
    · exact hi
  | clock now => exact hi.same ⟨rfl, rfl, rfl, rfl, rfl, rfl, rfl⟩
  | active => exact hi.active
  | close => exact hi.close
  | push gap object => exact hi.push gap object
  | receive n => exact hi.receive n
  | rangeCompleted r =>
    simp only [watcherEvent]
    split
    · next hrpc =>
      split_ifs with h
      · exact hi.rangeCompleted (by rw [State.Watching, hrpc]) h
      · exact hi
    · exact hi
  | watchCompleted errorCode responseCode =>
    simp only [watcherEvent]
    split
    · exact hi.watchCompleted hok errorCode responseCode
    · exact hi

theorem inv_start (C : Codec) (watcher : Watcher) : Inv C (.start watcher) where
  revision := le_rfl
  history _ h := absurd h List.not_mem_nil
  last := ⟨le_rfl, zero_le_one⟩
  watches _ h := absurd h List.not_mem_nil
  gapless := eachPast_nil
  watching := rfl
  idle _ _ h := absurd h List.not_mem_nil
  carries _ h := absurd h (Option.some_ne_none _).symm

theorem Inv.run (hi : Inv C w) {events : List WatcherEvent} (hok : Meets (watcherEvent C e) StepOk w events) :
    Inv C (watcherRun C e w events) :=
  hok.invariant (fun _ ev hi hok => hi.event ev hok) hi

/-- **No change is lost** in any run in which every watch connection ends behind a header that was not ahead of the changes
sent: where a watch is requested, each change of the range below its start has been told to `evt_handle_`, or a snapshot at or
after it has been. -/
theorem watch_gapless (C : Codec) (e : EtcdEnv) (watcher : Watcher) (events : List WatcherEvent)
    (hok : Meets (watcherEvent C e) StepOk (.start watcher) events) : (watcherRun C e (.start watcher) events).Gapless :=
  ((inv_start C watcher).run hok).gapless

/-- a JSON library that knows three texts: a snapshot at revision 1, the first response of a watch at revision 2, and a put at
revision 2 -/
@[reducible] def sampleCodec : Codec where
  parse b :=
    if b = [1] then some (.object [("header", .object [("revision", .int 1)])])
    else if b = [123, 1, 125] then
      some (.object [("result", .object [("header", .object [("revision", .string "2")]), ("created", .bool true)])])
    else if b = [123, 2, 125] then
      some (.object [("result", .object [("header", .object [("revision", .string "2")]), ("events", .array
        [.object [("kv", .object [("key", .string "Lw=="), ("mod_revision", .string "2")])]])])])
    else none
  str2int _ s := if s = "2" then 2 else 0
  base64Decode s := if s = "Lw==" then some [47] else none

/-- a watch of everything below "/", a put there, one response and the end of the connection; then the watcher goes on -/
def cutBehind (object : Bytes) : List WatcherEvent :=
  [.active, .rangeCompleted ⟨0, 200, [1]⟩, .write [⟨.put, ⟨[47], 0, 2, 0, [], 0⟩⟩], .push [10] object, .receive 4,
    .watchCompleted 56 0, .clock 15000000000, .active, .rangeCompleted ⟨0, 200, [1]⟩]

@[reducible] def State.sample : State := .start { path := [47], rangeEnd := plusOne }

theorem watch_gapless_sample :
    .watch 3 ∈ (watcherRun sampleCodec .steady .sample (cutBehind [123, 2, 125])).log ∧
      (watcherRun sampleCodec .steady .sample (cutBehind [123, 2, 125])).Gapless :=
  ⟨by decide +kernel, watch_gapless sampleCodec .steady { path := [47], rangeEnd := plusOne } (cutBehind [123, 2, 125])
    (by decide +kernel)⟩

/-- the first response of the watch tells revision 2 before the put at revision 2 was sent: the next watch starts at 3 -/
theorem watch_gap : ¬ (watcherRun sampleCodec .steady .sample (cutBehind [123, 1, 125])).Gapless := by
  set w := watcherRun sampleCodec .steady .sample (cutBehind [123, 1, 125])
  set past : List Notice := [.snapshot ⟨0, 0, 1, 0⟩ ⟨some 0, some false, some false, some 0, []⟩, .watch 2,
    .response (some ⟨0, 0, 2, 0⟩) ⟨some 0, some true, some false, some 0, []⟩]
  have hlog : w.log = past ++ .watch 3 :: [] := by decide +kernel
  have hput : (⟨.put, ⟨[47], 0, 2, 0, [], 0⟩⟩ : Change) ∈ w.store.history := by decide +kernel
  have hrange : w.range.Covers [47] := by decide +kernel
  intro h
  rcases h past _ [] hlog 3 rfl _ hput hrange le_rfl with ⟨header, r, hmem, hle⟩ | ⟨header, r, hmem, hch⟩
  · simp only [past, List.mem_cons, Notice.snapshot.injEq, List.not_mem_nil, or_false, reduceCtorEq] at hmem
    rw [hmem.1] at hle
    exact absurd hle (by decide)
  · simp only [past, List.mem_cons, Notice.response.injEq, List.not_mem_nil, or_false, reduceCtorEq, false_or] at hmem
    rw [hmem.2] at hch
    exact absurd hch List.not_mem_nil

end AtFrame.EtcdWatcher
