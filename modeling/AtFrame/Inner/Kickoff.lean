/-
A kicked peer is told why exactly when no write is outstanding.

`close(reason, true)` queues the kickoff message, and then sets the closing flag, with which `try_write` drops the queue. The
owner of the object is any owner of `AtFrame.Inner.Closing`: its `write_fn` completes writes when it likes, and each of its
callbacks calls back into the object.

- `Queued`: between the calls nothing is queued unless a write is outstanding;
- `Owner.queued_call`: every call keeps it;
- `kickoff_handed`: the kickoff message reaches `write_fn` before `close_fn` is called if and only if no write is outstanding
  when the close begins, or there is no `close_fn`.

Premises: `write_fn` is set, the stack suffices, and the queue has room for the kickoff message (`KickoffFits`). The condition is
on the state before the close. Witness `kickoff_handed_idle`. In `kickoff_lost` a ping is still being written: the kickoff waits
behind it, and the completion of that write finds the object closing and drops what waits.
-/
import AtFrame.Inner.Closing
import AtFrame.Inner.SendQueue

namespace AtFrame.Closing

open AtFrame.Lib

/-! ## Blocks that are still whole -/

/-- nothing of the queued blocks was taken -/
def Unused (bs : List (Block UInt8)) : Prop := ∀ b ∈ bs, b.used = 0

theorem Unused.suffix {bs bs' : List (Block UInt8)} (h : Unused bs) (hsuf : bs' <:+ bs) : Unused bs' :=
  fun b hb => h b (hsuf.subset hb)

theorem mergeLoop_suffix (off available : ℕ) (bs : List (Block UInt8)) : (mergeLoop off available bs).2 <:+ bs := by
  induction bs generalizing available with
  | nil => exact List.suffix_rfl
  | cons b bs ih =>
    simp only [mergeLoop]
    split_ifs
    · exact List.suffix_rfl
    · exact (ih _).trans (List.suffix_cons b bs)

theorem unused_tryMerge {off : ℕ} {q q' : BlockQueue UInt8} (h : Unused q.blocks) (hq : tryMerge off q = some q') :
    Unused q'.blocks := by
  unfold tryMerge at hq
  cases hfront : q.front? with
  | none =>
    simp only [hfront] at hq
    exact Option.some.inj hq ▸ h
  | some b =>
    simp only [hfront] at hq
    split_ifs at hq with hmerge hlen
    · obtain ⟨-, rfl⟩ := BlockQueue.pushFront_some hq
      intro c hc
      rcases List.mem_cons.1 hc with rfl | hc
      · rfl
      · exact h.suffix (mergeLoop_suffix off _ q.blocks) c hc
    · exact Option.some.inj hq ▸ h

theorem unused_pushBack {q q' : BlockQueue UInt8} {s : ℕ} {d : Bytes} (h : Unused q.blocks)
    (hq : q.pushBack s d = some q') : Unused q'.blocks := by
  obtain ⟨-, rfl⟩ := BlockQueue.pushBack_some hq
  intro b hb
  rcases List.mem_append.1 hb with hb | hb
  · exact h b hb
  · rw [List.mem_singleton.1 hb]

theorem popWritten_suffix {last : Option ℕ} {bs bs' : List (Block UInt8)} (h : popWritten last bs = some bs') :
    bs' <:+ bs := by
  induction bs with
  | nil => exact Option.some.inj h ▸ List.suffix_rfl
  | cons b bs ih =>
    simp only [popWritten] at h
    split_ifs at h
    · exact Option.some.inj h ▸ List.suffix_cons b bs
    · exact Option.some.inj h ▸ List.suffix_cons b bs
    · exact (ih h).trans (List.suffix_cons b bs)

theorem popWritten_unused (last : Option ℕ) {bs : List (Block UInt8)} (h : Unused bs) : ∃ bs', popWritten last bs = some bs' := by
  induction bs with
  | nil => exact ⟨[], rfl⟩
  | cons b bs ih =>
    simp only [popWritten, h b List.mem_cons_self, ne_eq, not_true_eq_false, if_false]
    split_ifs
    · exact ⟨bs, rfl⟩
    · exact ⟨bs, rfl⟩
    · exact ih fun c hc => h c (List.mem_cons_of_mem b hc)

/-! ## The invariant -/

/-- the record behind an earlier one -/
structure Grown (o : Owner) (pre : List (Callback × ProtoFlags)) (w : Watched) : Prop where
  grown : pre <+: w.calls
  unclosable : o.closeFn = none → ∀ a ∈ w.calls, a.1.isClose = false

/-- what holds of the queue at any time -/
structure Loose (o : Owner) (off : ℕ) (pre : List (Callback × ProtoFlags)) (w : Watched) : Prop extends Grown o pre w where
  offset : w.proto.writeHeaderOffset = off
  unused : Unused w.proto.writeBuffers.blocks
  linked : w.proto.Linked

/-- between the calls nothing is queued unless a write is outstanding -/
structure Queued (o : Owner) (off : ℕ) (pre : List (Callback × ProtoFlags)) (w : Watched) : Prop extends Loose o off pre w where
  settled : w.proto.flags.writing = false → w.proto.writeBuffers.blocks = []

variable {o : Owner} {run : Script → Prog Fault Watched Answer} {off : ℕ} {pre : List (Callback × ProtoFlags)} {w : Watched}
  {p : Proto}

/-- a fault leaves the record -/
def Halted (o : Owner) (pre : List (Callback × ProtoFlags)) (_ : Fault) (w : Watched) : Prop := Grown o pre w

theorem Grown.record (h : Grown o pre w) {cb : Callback} (hcb : cb.isClose = true → o.closeFn ≠ none) :
    Grown o pre (w.record cb) where
  grown := h.grown.trans (List.prefix_append _ _)
  unclosable hnone a ha := by
    rcases List.mem_append.1 ha with ha | ha
    · exact h.unclosable hnone a ha
    · rw [List.mem_singleton.1 ha]
      exact Bool.not_eq_true _ ▸ fun hc => hcb hc hnone

theorem Queued.record (h : Queued o off pre w) {cb : Callback} (hcb : cb.isClose = true → o.closeFn ≠ none) :
    Queued o off pre (w.record cb) :=
  { h with toGrown := h.toGrown.record hcb }

/-- the writes that are still to be completed do not matter -/
theorem Queued.setOutstanding (h : Queued o off pre w) (n : ℕ) : Queued o off pre { w with outstanding := n } :=
  { h with }

theorem Queued.quiet (h : Queued o off pre w) (hp : p.Steady w.proto) : Queued o off pre { w with proto := p } :=
  { h with
    offset := hp.offset.trans h.offset
    linked := hp.linked h.linked
    unused := by rw [show p.writeBuffers = _ from hp.queue]; exact h.unused
    settled := fun hw => (congrArg BlockQueue.blocks hp.queue).trans (h.settled (hp.writing.symm.trans hw)) }

/-- flags other than the writing flag do not matter either -/
theorem Queued.setFlags (h : Queued o off pre w) {f : ProtoFlags} (hf : f.writing = w.proto.flags.writing) :
    Queued o off pre { w with proto := w.proto.setFlags f } :=
  { h with settled := fun hw => h.settled (hf.symm.trans hw) }

theorem Loose.setQueue (h : Loose o off pre w) {q : BlockQueue UInt8} (hq : Unused q.blocks) :
    Loose o off pre { w with proto := { w.proto with writeBuffers := q } } :=
  { h with unused := hq }

/-! ## The write queue -/

section callbacks

variable (hrun : ∀ script, Keeps (Queued o off pre) (Halted o pre) (run script))

include hrun

theorem callback_queued {cb : Callback} (script : Watched → Script) (hcb : cb.isClose = true → o.closeFn ≠ none)
    (h : Queued o off pre w) : wp (callback run cb script) (fun _ => Queued o off pre) (Halted o pre) w := by
  unfold callback
  simp only [wp_bind, wp_modify, wp_get]
  exact hrun _ _ (h.record hcb)

theorem closeFn_queued {f : ℤ → Watched → Script} (hf : o.closeFn = some f) (reason : ℤ) (h : Queued o off pre w) :
    wp (Answer.status <$> callback run (.close reason) (f reason)) (fun _ => Queued o off pre) (Halted o pre) w := by
  rw [wp_map]
  exact callback_queued hrun _ (fun _ hnone => nomatch hnone.symm.trans hf) h

theorem writeFn_queued {f : Bytes → Prog Fault Watched (ℤ × Bool)} (hf : f ∈ (o.host run).writeFn) (buf : Bytes)
    (h : Queued o off pre w) : wp (f buf) (fun _ => Queued o off pre) (Halted o pre) w := by
  obtain ⟨g, -, rfl⟩ := Option.map_eq_some_iff.1 hf
  unfold watchedWrite
  simp only [wp_bind, wp_modify, wp_ite, wp_pure]
  refine wp_post (callback_queued hrun (g buf) (fun hc => absurd hc Bool.false_ne_true) (h.setOutstanding _)) fun a w' hw' => ?_
  exact ⟨fun _ => hw'.setOutstanding _, fun _ => hw'⟩

/-- `try_write` leaves nothing queued behind unless a write is outstanding, and `write_done` calls it -/
theorem tryWrite_writeDone_queued (hset : o.writeFn.isSome) (n : ℕ) :
    (∀ w, Loose o off pre w → wp (AtFrame.tryWrite (o.host run) n) (fun _ => Queued o off pre) (Halted o pre) w) ∧
      ∀ status, Keeps (Queued o off pre) (Halted o pre) (AtFrame.writeDone (o.host run) n status) := by
  induction n with
  | zero => exact ⟨fun w h => h.toGrown, fun _ w h => h.toGrown⟩
  | succ n ih =>
    constructor
    · intro w h
      rw [AtFrame.tryWrite]
      cases hf : (o.host run).writeFn with
      | none =>
        rw [Option.map_eq_none_iff.1 hf] at hset
        exact absurd hset Bool.false_ne_true
      | some writeFn =>
        simp only [wp_bind, Host.wp_get, wp_ite, wp_pure, Host.wp_modify]
        refine ⟨fun hwriting => ⟨h, fun hw => absurd (hw.symm.trans hwriting) Bool.false_ne_true⟩, fun _ =>
          ⟨fun hnil => ⟨h, fun _ => hnil⟩, fun _ =>
            ⟨fun _ => ⟨h.setQueue fun b hb => absurd hb List.not_mem_nil, fun _ => rfl⟩, fun _ => ?_⟩⟩⟩
        cases hmerge : tryMerge w.proto.writeHeaderOffset w.proto.writeBuffers with
        | none => exact h.toGrown
        | some q =>
          have hq : Loose o off pre { w with proto := { w.proto with writeBuffers := q } } :=
            h.setQueue (unused_tryMerge h.unused hmerge)
          simp only [wp_bind, Host.wp_modify]
          cases q.front? with
          | none => exact hq.toGrown
          | some b =>
            simp only [wp_ite, wp_bind, Host.wp_modify]
            refine ⟨fun _ => ih.1 _ (hq.setQueue (hq.unused.suffix (List.tail_suffix q.blocks))), fun _ => ?_⟩
            have hwriting : Queued o off pre
                { w with proto := { w.proto with writeBuffers := q, flags := { w.proto.flags with writing := true },
                                                 lastWritePtr := some b.addr } } :=
              { hq with settled := fun hw => absurd hw.symm Bool.false_ne_true }
            refine wp_post (writeFn_queued hrun hf b.data hwriting) fun r w' hw' => ⟨fun _ => ?_, fun _ => hw'⟩
            exact ih.2 _ w' hw'
    · intro status w h
      rw [AtFrame.writeDone]
      simp only [wp_bind, Host.wp_get, wp_ite, wp_pure]
      refine ⟨fun _ => h, fun _ => ?_⟩
      cases hpop : popWritten w.proto.lastWritePtr w.proto.writeBuffers.blocks with
      | none => exact h.toGrown
      | some bs =>
        simp only [wp_bind, Host.wp_modify]
        refine wp_post (ih.1 _ { h with unused := h.unused.suffix (popWritten_suffix hpop) }) fun ret w' hw' => ?_
        simp only [wp_bind, Host.wp_get, wp_ite, wp_pure, Host.wp_modify]
        refine ⟨fun _ => ?_, fun _ => hw'⟩
        have hclosed : Queued o off pre
            { w' with proto := w'.proto.setFlags { w'.proto.flags with closed := true } } := hw'.setFlags rfl
        cases hf : o.closeFn with
        | none => exact hclosed
        | some f => exact closeFn_queued hrun hf _ hclosed

theorem tryWrite_queued (hset : o.writeFn.isSome) (n : ℕ) (h : Loose o off pre w) :
    wp (AtFrame.tryWrite (o.host run) n) (fun _ => Queued o off pre) (Halted o pre) w :=
  (tryWrite_writeDone_queued hrun hset n).1 w h

theorem writeDone_queued (hset : o.writeFn.isSome) (n : ℕ) (status : ℤ) :
    Keeps (Queued o off pre) (Halted o pre) (AtFrame.writeDone (o.host run) n status) :=
  (tryWrite_writeDone_queued hrun hset n).2 status

theorem writeBytes_queued (hset : o.writeFn.isSome) (buf : Bytes) :
    Keeps (Queued o off pre) (Halted o pre) (writeBytes (o.host run) buf) := by
  intro w h
  unfold writeBytes
  simp only [wp_ite, wp_pure, wp_bind, Host.wp_get]
  refine ⟨fun _ => ⟨fun _ => h, fun _ => ?_⟩, fun _ => tryWrite_queued hrun hset _ h.toLoose⟩
  cases hq : w.proto.writeBuffers.pushBack (w.proto.totalBufferSize buf.length)
    (List.replicate w.proto.writeHeaderOffset 0 ++ frameBytes (o.host run).ext.hash buf) with
  | none => exact h
  | some q => exact tryWrite_queued hrun hset _ (h.toLoose.setQueue (unused_pushBack h.unused hq))

theorem finishClose_queued : Keeps (Queued o off pre) (Halted o pre) (AtFrame.finishClose (o.host run)) := by
  intro w h
  unfold AtFrame.finishClose
  simp only [wp_bind, wp_ite, wp_pure, Host.wp_get, Host.wp_modify]
  have hclosing : Queued o off pre { w with proto := w.proto.setFlags { w.proto.flags with closing := true } } :=
    h.setFlags rfl
  refine ⟨fun _ => ?_, fun _ => hclosing⟩
  have hclosed := hclosing.setFlags (f := { w.proto.flags with closing := true, closed := true }) rfl
  cases hf : o.closeFn with
  | none => exact hclosed
  | some f => exact closeFn_queued hrun hf _ hclosed

theorem Owner.queued_calm (hset : o.writeFn.isSome) : (o.host run).Calm (Queued o off pre) (Halted o pre) where
  quiet h hp := h.quiet hp
  errorFn f hf errcode errmsg w h := by
    obtain ⟨f, -, rfl⟩ := Option.map_eq_some_iff.1 hf
    rw [wp_map]
    exact callback_queued hrun _ (fun hc => absurd hc Bool.false_ne_true) h
  writeBytes buf := writeBytes_queued hrun hset buf

theorem Owner.queued_respects (hset : o.writeFn.isSome) :
    (o.host run).Respects (Queued o off pre) (Halted o pre) Host.Guard.free where
  toCalm := o.queued_calm hrun hset
  nullConf h := h.toGrown
  finishClose := finishClose_queued hrun
  done {w p} h _ hp := by
    subst hp
    refine ⟨fun _ => h.setFlags rfl, fun f hf status _ => ?_⟩
    obtain ⟨f, -, rfl⟩ := Option.map_eq_some_iff.1 hf
    rw [wp_map]
    exact callback_queued hrun _ (fun hc => absurd hc Bool.false_ne_true) (h.setFlags rfl)
  updateFn f hf status w h := by
    obtain ⟨f, -, rfl⟩ := Option.map_eq_some_iff.1 hf
    rw [wp_map]
    exact callback_queued hrun _ (fun hc => absurd hc Bool.false_ne_true) h
  newSessionFn f hf id w h _ _ := by
    obtain ⟨f, -, rfl⟩ := Option.map_eq_some_iff.1 hf
    rw [wp_map]
    exact wp_post (callback_queued hrun _ (fun hc => absurd hc Bool.false_ne_true) h) fun _ _ hw' => ⟨hw', trivial⟩
  finishCalm := (o.queued_calm hrun hset).free
  finishCurrent _ := trivial
  start _ _ := trivial
  resume _ _ := trivial

theorem Owner.queued_frame (hset : o.writeFn.isSome) (buffer : Bytes) (errcode : ℤ) :
    Keeps (Queued o off pre) (Halted o pre) (dispatchData (o.host run) buffer errcode) := by
  have hrespects := o.queued_respects hrun hset
  have hreconnect : ∀ f ∈ (o.host run).reconnectFn, ∀ id, Keeps (Queued o off pre) (Halted o pre) (f id) := by
    intro f hf id w h
    obtain ⟨f, -, rfl⟩ := Option.map_eq_some_iff.1 hf
    rw [wp_map]
    exact callback_queued hrun _ (fun hc => absurd hc Bool.false_ne_true) h
  refine fun w h => hrespects.dispatchData (hrespects.resumes hreconnect) h fun _ _ _ => ?_
  exact
    { handshake := fun _ _ =>
        { start := fun _ => trivial
          resume := fun _ => trivial
          finish := fun _ => trivial
          reload := fun _ _ _ h _ => { h with }
          absent := fun _ _ h => h.toGrown }
      absent := fun _ _ h => h.toGrown
      message := fun f hf out len _ h hopen => by
        obtain ⟨f, -, rfl⟩ := Option.map_eq_some_iff.1 hf
        rw [wp_map]
        exact callback_queued hrun _ (fun hc => absurd hc Bool.false_ne_true) h }

/-- **Every call** keeps the queue empty unless a write is outstanding. -/
theorem Owner.queued_call (hset : o.writeFn.isSome) (c : Call) :
    Keeps (Queued o off pre) (Halted o pre) (c.run (o.host run)) := by
  refine c.keeps (o.queued_respects hrun hset) (o.queued_frame hrun hset) fun status w h => ?_
  simp only [Call.run, wp_bind, wp_modify, wp_pure]
  exact writeDone_queued hrun hset _ status _ (h.setOutstanding _)

end callbacks

theorem Owner.nested_queued (o : Owner) (hset : o.writeFn.isSome) (n : ℕ) (script : Script) :
    Keeps (Queued o off pre) (Halted o pre) (o.nested n script) := by
  induction n generalizing script with
  | zero => exact fun w h => h.toGrown
  | succ n ih => exact script.keeps (o.queued_call ih hset)

theorem run_queued (o : Owner) (hset : o.writeFn.isSome) (depth : ℕ) (calls : List Call) :
    Keeps (Queued o off pre) (Halted o pre) (o.run depth calls) :=
  keeps_forM (fun c => o.queued_call (o.nested_queued hset depth) hset c) calls

theorem run_cons_queued (hset : o.writeFn.isSome) {depth : ℕ} {c : Call}
    (hc : wp (c.run (o.host (o.nested depth))) (fun _ => Queued o off pre) (Halted o pre) w) (calls : List Call) :
    wp (o.run depth (c :: calls)) (fun _ => Queued o off pre) (Halted o pre) w :=
  (wp_bind _ _).2 (wp_post hc fun _ w₁ h₁ => run_queued o hset depth calls w₁ h₁)

/-! ## The kickoff message -/

def kickoffMsg (reason : ℤ) : CsMsg := ⟨some .EN_MTT_KICKOFF, .kickoff (some reason)⟩

def kickoffFrame (ext : Ext) (reason : ℤ) : Bytes := frameBytes ext.hash (ext.build (kickoffMsg reason))

/-- `push_back` of the kickoff message succeeds -/
def KickoffFits (ext : Ext) (p : Proto) (reason : ℤ) : Prop :=
  let len := (ext.build (kickoffMsg reason)).length
  0 < len ∧ len < 2 ^ 32 - 1 ∧ p.writeBuffers.Fits (p.totalBufferSize len)

instance (ext : Ext) (p : Proto) (reason : ℤ) : Decidable (KickoffFits ext p reason) :=
  inferInstanceAs (Decidable (_ ∧ _ ∧ _))

/-- what these calls of `write_fn` were handed, without the headspace -/
def handed (off : ℕ) (calls : List (Callback × ProtoFlags)) : Bytes :=
  calls.flatMap fun a =>
    match a.1 with
    | .write buf => buf.drop off
    | _ => []

/-- what is queued and was not handed to `write_fn` -/
def pending (p : Proto) : Bytes := (SendQueue.waiting p).flatMap fun b => b.data.drop p.writeHeaderOffset

/-- from `w` to `w'`, `write_fn` was handed what was queued and the kickoff message before `close_fn` was called -/
def ToldWhy (ext : Ext) (reason : ℤ) (w w' : Watched) : Prop :=
  ∀ before after r f, w'.calls = w.calls ++ before ++ (.close r, f) :: after →
    pending w.proto ++ kickoffFrame ext reason <+: handed w.proto.writeHeaderOffset before

/-- the kickoff message as a block -/
def kickoffBlock (ext : Ext) (p : Proto) (reason : ℤ) : Block UInt8 :=
  ⟨p.writeBuffers.next, p.totalBufferSize (ext.build (kickoffMsg reason)).length, 0,
    List.replicate p.writeHeaderOffset 0 ++ kickoffFrame ext reason⟩

theorem pushBack_kickoff {ext : Ext} {reason : ℤ} (h : KickoffFits ext p reason) :
    p.writeBuffers.pushBack (p.totalBufferSize (ext.build (kickoffMsg reason)).length)
        (List.replicate p.writeHeaderOffset 0 ++ kickoffFrame ext reason) =
      some { p.writeBuffers with blocks := p.writeBuffers.blocks ++ [kickoffBlock ext p reason],
                                 next := p.writeBuffers.next + 1 } := by
  unfold BlockQueue.pushBack
  rw [if_pos h.2.2]
  rfl

/-- the object with the kickoff message at the end of its queue -/
def Proto.kicked (ext : Ext) (p : Proto) (reason : ℤ) : Proto :=
  { p with closeReason := reason
           writeBuffers := { p.writeBuffers with blocks := p.writeBuffers.blocks ++ [kickoffBlock ext p reason],
                                                 next := p.writeBuffers.next + 1 } }

/-- `close(reason, true)` from the `try_write` behind the `push_back` on -/
theorem wp_close_kick {W : Type} {H : Host W} {Q : ℤ → W → Prop} {E : Fault → W → Prop} {w : W} {reason : ℤ}
    (hwrite : H.writeFn.isSome) (hopen : (H.proto w).flags.closing = false) (hfits : KickoffFits H.ext (H.proto w) reason) :
    wp (AtFrame.close H reason true) Q E w ↔
      wp (AtFrame.tryWrite H H.stack) (fun _ => wp (AtFrame.finishClose H) Q E) E
        (H.setProto (Proto.kicked H.ext (H.proto w) reason) w) := by
  obtain ⟨f, hf⟩ := Option.isSome_iff_exists.1 hwrite
  have hpush := pushBack_kickoff hfits
  obtain ⟨h₁, h₂, -⟩ := hfits
  have h₂' : ¬ 2 ^ 32 - 1 ≤ (H.ext.build (kickoffMsg reason)).length := Nat.not_le.2 h₂
  simp only [kickoffMsg] at h₁ h₂'
  simp only [kickoffMsg, kickoffFrame, Proto.totalBufferSize] at hpush
  unfold AtFrame.close AtFrame.sendKickoff writeMsg writeBytes
  simp only [wp_bind, Host.wp_get, hopen, Host.proto_setProto, hf, h₁, h₂', Host.wp_modify, Proto.totalBufferSize, hpush,
    Host.setProto_setProto, if_true, if_false, Bool.false_eq_true]
  rfl

section kick

variable {reason : ℤ} (hrun : ∀ pre script, Keeps (Queued o off pre) (Halted o pre) (run script))

include hrun

/-- one block in the queue is handed over at once -/
theorem tryWrite_single (hset : o.writeFn.isSome) {b : Block UInt8} (h : Loose o off w.calls w)
    (hb : w.proto.writeBuffers.blocks = [b]) (hroom : off < b.size) (hidle : w.proto.flags.writing = false)
    (hopen : w.proto.flags.closing = false) {n : ℕ} (hn : 1 ≤ n) :
    let pre := w.calls ++ [(.write b.data, { w.proto.flags with writing := true, closing := false })]
    wp (AtFrame.tryWrite (o.host run) n) (fun _ => Queued o off pre) (Halted o pre) w := by
  intro pre
  obtain ⟨n, rfl⟩ : ∃ m, n = m + 1 := ⟨n - 1, by omega⟩
  obtain ⟨f, hf⟩ := Option.isSome_iff_exists.1 hset
  have hmerge : tryMerge w.proto.writeHeaderOffset w.proto.writeBuffers = some w.proto.writeBuffers := by
    simp only [tryMerge, BlockQueue.front?, BlockQueue.costNumber, hb, List.head?_cons, List.length_singleton, lt_irrefl,
      false_and, if_false]
  have hroom' : ¬ b.size ≤ w.proto.writeHeaderOffset := by rw [h.offset]; exact Nat.not_le.2 hroom
  rw [AtFrame.tryWrite]
  simp only [hf, Option.map_some, wp_bind, Host.wp_get, wp_ite, wp_pure, hidle, hopen, hb, List.cons_ne_nil, hmerge,
    Host.wp_modify, BlockQueue.front?, List.head?_cons, hroom', Bool.false_eq_true, false_implies, not_false_eq_true,
    true_and, forall_const]
  unfold watchedWrite callback
  simp only [wp_bind, wp_modify, wp_get, wp_ite, wp_pure]
  have hwriting : Queued o off w.calls
      { w with proto := { w.proto with flags := { w.proto.flags with writing := true, closing := false },
                                       lastWritePtr := some b.addr }, outstanding := w.outstanding + 1 } :=
    { h with settled := fun hw => absurd hw.symm Bool.false_ne_true }
  have hhanded : Queued o off pre (Watched.record (.write b.data) _) :=
    { hwriting.record fun hc : Callback.isClose (.write b.data) = true => absurd hc Bool.false_ne_true with
      grown := List.prefix_rfl }
  refine wp_post (hrun pre _ _ hhanded) fun a w' hw' => ⟨fun _ => ?_, fun _ => ?_⟩
  · exact ⟨fun _ => writeDone_queued (hrun pre) hset n _ _ (hw'.setOutstanding _), fun _ => hw'.setOutstanding _⟩
  · exact ⟨fun _ => writeDone_queued (hrun pre) hset n _ _ hw', fun _ => hw'⟩

/-- what `close` hands to `write_fn` when no write is outstanding -/
def kickoffCall (ext : Ext) (p : Proto) (reason : ℤ) : Callback × ProtoFlags :=
  (.write (kickoffBlock ext p reason).data, { p.flags with writing := true, closing := false })

theorem close_idle (hset : o.writeFn.isSome) (hstack : 1 ≤ o.stack) (hoff : off ≤ 2 ^ 63)
    (h : Queued o off w.calls w) (hidle : w.proto.flags.writing = false) (hopen : w.proto.flags.closing = false)
    (hfits : KickoffFits o.ext w.proto reason) :
    wp ((Call.close reason true).run (o.host run)) (fun _ => Queued o off (w.calls ++ [kickoffCall o.ext w.proto reason]))
      (Halted o (w.calls ++ [kickoffCall o.ext w.proto reason])) w := by
  have hempty : w.proto.writeBuffers.blocks = [] := h.settled hidle
  have hloose : Loose o off w.calls { w with proto := Proto.kicked o.ext w.proto reason } :=
    { h with unused := unused_pushBack h.unused (pushBack_kickoff hfits) }
  have hsingle : (Proto.kicked o.ext w.proto reason).writeBuffers.blocks = [kickoffBlock o.ext w.proto reason] := by
    rw [Proto.kicked, hempty, List.nil_append]
  have hroom : off < (kickoffBlock o.ext w.proto reason).size := by
    have hlen := hfits.1
    have hbound := hfits.2.1
    simp only [kickoffBlock, Proto.totalBufferSize, h.offset, msgHeaderLen]
    omega
  rw [Call.run, wp_map, wp_close_kick (by rw [Option.isSome_map]; exact hset) hopen hfits]
  refine wp_post ?_ fun _ w' hw' => finishClose_queued (hrun _) w' hw'
  exact tryWrite_single (w := { w with proto := Proto.kicked o.ext w.proto reason }) hrun hset hloose hsingle hroom hidle
    hopen hstack

/-- what `close_fn` is told -/
def closeCall (reason : ℤ) (f : ProtoFlags) : Callback × ProtoFlags :=
  (.close reason, { f with writing := false, closing := true, closed := true })

/-- the last write of an object that is closing -/
theorem writeDone_closing (hset : o.writeFn.isSome) {f : ℤ → Watched → Script} (hclose : o.closeFn = some f)
    (h : Queued o off w.calls w) (hwriting : w.proto.flags.writing = true) (hclosing : w.proto.flags.closing = true)
    (hunclosed : w.proto.flags.closed = false) {n : ℕ} (hn : 2 ≤ n) (status : ℤ) :
    let pre := w.calls ++ [closeCall w.proto.closeReason w.proto.flags]
    wp (AtFrame.writeDone (o.host run) n status) (fun _ => Queued o off pre) (Halted o pre) w := by
  intro pre
  obtain ⟨n, rfl⟩ : ∃ m, n = m + 2 := ⟨n - 2, by omega⟩
  obtain ⟨bs, hbs⟩ := popWritten_unused w.proto.lastWritePtr h.unused
  rw [AtFrame.writeDone]
  simp only [wp_bind, Host.wp_get, wp_ite, wp_pure, hwriting, hbs, Host.wp_modify]
  refine ⟨fun hidle => absurd trivial hidle, fun _ => ?_⟩
  have hloose : Loose o off w.calls
      { w with proto := { w.proto with writeBuffers := { w.proto.writeBuffers with blocks := bs }, lastWritePtr := none,
                                       flags := { w.proto.flags with writing := false } } } :=
    { h with unused := h.unused.suffix (popWritten_suffix hbs) }
  refine wp_mono (wp_and (Host.tryWrite_closing (by exact hclosing) n) (tryWrite_queued (hrun w.calls) hset (n + 1) hloose)) ?_
    fun _ _ hfault => False.elim hfault.1
  rintro status w' ⟨⟨q, rfl⟩, hqueued⟩
  simp only [hclosing, hunclosed, hclose, Option.map_some]
  refine ⟨fun _ => ?_, fun hnot => absurd ⟨trivial, Bool.false_ne_true, Bool.false_ne_true⟩ hnot⟩
  have hclosed : Queued o off pre (Watched.record (.close w.proto.closeReason) { w with proto := _ }) :=
    { (hqueued.setFlags (f := { w.proto.flags with writing := false, closing := true, closed := true }) rfl).record
        fun _ hnone => absurd (hnone.symm.trans hclose) (Option.some_ne_none f).symm with
      grown := List.prefix_rfl }
  unfold callback
  simp only [wp_map, wp_bind, wp_modify, wp_get]
  exact hrun pre _ _ hclosed

/-- a write that is outstanding when the close begins takes the kickoff message with it -/
theorem close_writing (hset : o.writeFn.isSome) (hstack : 2 ≤ o.stack) {f : ℤ → Watched → Script} (hclose : o.closeFn = some f)
    (h : Queued o off w.calls w) (hwriting : w.proto.flags.writing = true) (hopen : w.proto.flags.closing = false)
    (hunclosed : w.proto.flags.closed = false) (hfits : KickoffFits o.ext w.proto reason) :
    let pre := w.calls ++ [closeCall reason w.proto.flags]
    wp ([Call.close reason true, Call.writeDone 0].forM (Call.run (o.host run))) (fun _ => Queued o off pre) (Halted o pre) w := by
  intro pre
  obtain ⟨n, hn⟩ : ∃ n, o.stack = n + 2 := ⟨o.stack - 2, by omega⟩
  obtain ⟨g, hg⟩ := Option.isSome_iff_exists.1 hset
  refine (wp_bind _ _).2 ?_
  rw [Call.run, wp_map, wp_close_kick (by rw [Option.isSome_map]; exact hset) hopen hfits]
  have hwait : ∀ {Q : ℤ → Watched → Prop} {E : Fault → Watched → Prop} {u : Watched}, u.proto.flags.writing = true →
      Q 0 u → wp (AtFrame.tryWrite (o.host run) o.stack) Q E u := by
    intro Q E u hu hQ
    rw [hn, AtFrame.tryWrite]
    simp only [hg, Option.map_some, wp_bind, Host.wp_get, wp_ite, wp_pure, hu]
    exact ⟨fun _ => hQ, fun hnot => absurd trivial hnot⟩
  refine hwait hwriting ?_
  unfold AtFrame.finishClose
  simp only [wp_bind, Host.wp_get, wp_ite, wp_pure, Host.wp_modify]
  refine ⟨fun hidle => absurd hwriting hidle.1, fun _ => ?_⟩
  refine (wp_bind _ _).2 ?_
  simp only [Call.run, wp_bind, wp_modify, wp_pure]
  have hqueued : Queued o off w.calls
      { w with proto := (Proto.kicked o.ext w.proto reason).setFlags { w.proto.flags with closing := true }
               outstanding := w.outstanding - 1 } :=
    { h with
      unused := unused_pushBack h.unused (pushBack_kickoff hfits)
      settled := fun hidle => absurd (hidle.symm.trans hwriting) Bool.false_ne_true }
  exact writeDone_closing hrun hset hclose hqueued (by exact hwriting) rfl (by exact hunclosed) hstack 0

end kick

/-! ## Runs -/

theorem linked_fresh (offset recvLimit recvNumber sendLimit sendNumber seed : ℕ) :
    (Proto.fresh offset recvLimit recvNumber sendLimit sendNumber seed).Linked :=
  ⟨Nat.one_pos, fun _ hc => absurd hc (Option.not_mem_none _), fun _ hc => absurd hc (Option.not_mem_none _)⟩

/-- between the calls of a run -/
theorem queued_of_run {depth : ℕ} {p : Proto} (hset : o.writeFn.isSome) (hempty : p.writeBuffers.blocks = [])
    (hlinked : p.Linked) (current : Option CryptGlobal) {calls : List Call}
    (hcalls : exec (o.run depth calls) (.start p current) = (.ok (), w)) : Queued o p.writeHeaderOffset w.calls w := by
  have hstart : Queued o p.writeHeaderOffset [] (.start p current) :=
    { grown := List.prefix_rfl
      unclosable := fun _ a ha => absurd ha List.not_mem_nil
      offset := rfl
      unused := fun b hb => absurd (hempty ▸ hb) List.not_mem_nil
      linked := hlinked
      settled := fun _ => hempty }
  exact { wp_ok (run_queued o hset depth calls _ hstart) hcalls with grown := List.prefix_rfl }

/-- what a run leaves of the record -/
theorem grown_of_wp {α : Type} {m : Prog Fault Watched α} {r : Except Fault α} {w' : Watched}
    (h : wp m (fun _ => Queued o off pre) (Halted o pre) w) (hexec : exec m w = (r, w')) : Grown o pre w' := by
  cases r with
  | error fault =>
    have hstop := wp_error h hexec
    exact hstop
  | ok a => exact (wp_ok h hexec).toGrown

theorem kickoffFrame_ne (ext : Ext) (reason : ℤ) : kickoffFrame ext reason ≠ [] := by
  simp [kickoffFrame, frameBytes, toLe32]

/-- the record behind a kickoff message that was handed over first -/
theorem toldWhy_of_handed {w' : Watched} {reason : ℤ} (hidle : w.proto.flags.writing = false)
    (hempty : w.proto.writeBuffers.blocks = []) (h : w.calls ++ [kickoffCall o.ext w.proto reason] <+: w'.calls) :
    ToldWhy o.ext reason w w' := by
  intro before after r f hcalls
  obtain ⟨rest, hrest⟩ := h
  rw [hcalls, List.append_assoc, List.append_assoc, List.append_cancel_left_eq, List.singleton_append] at hrest
  cases before with
  | nil => exact absurd (List.cons.inj hrest).1 (by simp [kickoffCall])
  | cons a before =>
    have ha : kickoffCall o.ext w.proto reason = a := (List.cons.inj hrest).1
    have hpending : pending w.proto = [] := by simp [pending, SendQueue.waiting, hidle, hempty]
    rw [hpending, List.nil_append, ← ha]
    simp [handed, kickoffCall, kickoffBlock]

/-- **A kicked peer is told why** exactly when no write is outstanding. In every run of the object with any owner that sets
`write_fn`: if the object is not closing, and `close(reason, true)` is called and the `push_back` of the kickoff message
succeeds, then whatever follows, what was queued and the kickoff message have been handed to `write_fn`, in this order, by
the time `close_fn` is called, if and only if no write is outstanding at the call or `close_fn` is not set. -/
theorem kickoff_handed (o : Owner) (hset : o.writeFn.isSome) (hstack : 2 ≤ o.stack) (depth : ℕ)
    (off recvLimit recvNumber sendLimit sendNumber seed : ℕ) (hoff : off ≤ 2 ^ 63) (current : Option CryptGlobal)
    (calls : List Call) (w : Watched)
    (hcalls : exec (o.run depth calls) (.start (Proto.fresh off recvLimit recvNumber sendLimit sendNumber seed) current) =
      (.ok (), w)) (hopen : w.proto.flags.closing = false) (reason : ℤ) (hfits : KickoffFits o.ext w.proto reason) :
    (∀ more r w', exec (o.run depth (.close reason true :: more)) w = (r, w') → ToldWhy o.ext reason w w') ↔
      w.proto.flags.writing = false ∨ o.closeFn = none := by
  have hrun := fun pre script => @Owner.nested_queued off pre o hset depth script
  have hqueued := queued_of_run hset rfl (linked_fresh ..) current hcalls
  have hinv := wp_ok (run_keeps o depth _ calls _ (inv_start rfl current)) hcalls
  constructor
  · intro htold
    by_contra hcond
    rw [not_or, Bool.not_eq_false] at hcond
    obtain ⟨f, hf⟩ := Option.ne_none_iff_exists'.1 hcond.2
    have hunclosed : w.proto.flags.closed = false :=
      Bool.not_eq_true _ ▸ fun hc => Bool.false_ne_true (hopen.symm.trans (hinv.closed hc).1)
    have hlost := close_writing hrun hset hstack hf hqueued hcond.1 hopen hunclosed hfits
    rcases hexec : exec (o.run depth [.close reason true, .writeDone 0]) w with ⟨r, w'⟩
    obtain ⟨after, hafter⟩ := (grown_of_wp hlost hexec).grown
    have hnil := htold [.writeDone 0] r w' hexec [] after reason (closeCall reason w.proto.flags).2
      (by rw [← hafter, List.append_nil, List.append_assoc]; rfl)
    exact kickoffFrame_ne _ _ (List.append_eq_nil_iff.1 (List.prefix_nil.1 hnil)).2
  · intro hcond more r w' hexec
    rcases hcond with hidle | hnone
    · have hclose := close_idle hrun hset (by omega) hoff hqueued hidle hopen hfits
      have hhanded := run_cons_queued hset hclose more
      exact toldWhy_of_handed hidle (hqueued.settled hidle) (grown_of_wp hhanded hexec).grown
    · have hgrown := grown_of_wp (run_queued o hset depth (.close reason true :: more) w hqueued) hexec
      intro before after r f hcalls
      have hclose := hgrown.unclosable hnone (.close r, f) (by rw [hcalls]; simp)
      exact absurd hclose.symm Bool.false_ne_true

/-- an owner whose writes are completed later -/
def deferringOwner : Owner where
  ext := { Ext.idle with build := fun _ => [1] }
  stack := 8
  now := 0
  writeFn := some fun _ _ => .answer ⟨0, false, 0⟩
  messageFn := none
  newSessionFn := none
  reconnectFn := none
  closeFn := some fun _ _ => .answer ⟨0, false, 0⟩
  onHandshakeDoneFn := none
  onHandshakeUpdateFn := none
  onErrorFn := none

/-- the object of this owner behind these calls -/
def deferred (calls : List Call) : Watched :=
  (exec (deferringOwner.run 1 calls) (.start (Proto.fresh 0 4096 2 4096 8 0) none)).2

theorem kickoff_handed_idle :
    let w' := (exec (deferringOwner.run 1 [.close 1 true, .writeDone 0]) (deferred [])).2
    w'.calls.length = 2 ∧ ToldWhy deferringOwner.ext 1 (deferred []) w' := by
  refine ⟨by decide +kernel, ?_⟩
  have hiff := kickoff_handed deferringOwner rfl (by decide) 1 0 4096 2 4096 8 0 (Nat.zero_le _) none [] (deferred []) rfl
    (by decide +kernel) 1 (by decide +kernel)
  exact hiff.2 (.inl (by decide +kernel)) [.writeDone 0] _ _ rfl

/-- a ping is still being written when the object is closed: the kickoff message is dropped, and `close_fn` is called -/
theorem kickoff_lost :
    (deferred [.sendPing]).proto.flags.closing = false ∧
      KickoffFits deferringOwner.ext (deferred [.sendPing]).proto 1 ∧
      ¬ ToldWhy deferringOwner.ext 1 (deferred [.sendPing]) (deferred [.sendPing, .close 1 true, .writeDone 0]) := by
  refine ⟨by decide +kernel, by decide +kernel, fun htold => ?_⟩
  have hnil := htold [] [] 1 ⟨false, true, true, false, false⟩ (by decide +kernel)
  exact kickoffFrame_ne _ _ (List.append_eq_nil_iff.1 (List.prefix_nil.1 hnil)).2

end AtFrame.Closing
