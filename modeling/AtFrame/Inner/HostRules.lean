/-
Rules for the protocol object inside a world: which properties of the world its functions keep.

An owner states an invariant `I` of its world (and `E` of a world in which a fault stops the program). `Queue`, `Writes` and
`Owned` are what the owner has to show about the write queue and the close of the object, each callback in the state of the
flags in which the code calls it. `Respects` is what then holds of the object together with the callbacks of a handshake. From it
every function of the object keeps `I`, whatever messages arrive.

- `Writes.tryWrite`, `Writes.writeDone`, `Owned.finishClose`: the write queue and closing;
- `Calm.writeMsg`, `Calm.encryptData`, ...: the functions that neither close the object nor end a handshake;
- `Respects.close`, `Ends.closeHandshake`, `Ends.sendKeySyn`: closing and the end of handshakes.
-/
import AtFrame.Inner.Dispatch

namespace AtFrame

open AtFrame.Lib

/-- the flags of the object's life did not change: writing, closing, closed, first handshake done -/
structure Proto.SameStage (p q : Proto) : Prop where
  writing : p.flags.writing = q.flags.writing
  closing : p.flags.closing = q.flags.closing
  closed : p.flags.closed = q.flags.closed
  handshakeDone : p.flags.handshakeDone = q.flags.handshakeDone

theorem Proto.SameStage.trans {p q r : Proto} (h : p.SameStage q) (h' : q.SameStage r) : p.SameStage r :=
  ⟨h.1.trans h'.1, h.2.trans h'.2, h.3.trans h'.3, h.4.trans h'.4⟩

/-- the pointers to `crypt_session_t` objects point to objects that were made -/
def Proto.Linked (p : Proto) : Prop :=
  p.cryptHandshake < p.cryptCount ∧ (∀ c ∈ p.cryptRead, c < p.cryptCount) ∧ ∀ c ∈ p.cryptWrite, c < p.cryptCount

/-- the write queue did not change either, and no pointer was broken -/
structure Proto.Steady (p q : Proto) : Prop extends p.SameStage q where
  queue : p.writeBuffers = q.writeBuffers
  offset : p.writeHeaderOffset = q.writeHeaderOffset
  linked : q.Linked → p.Linked

theorem Proto.Steady.trans {p q r : Proto} (h : p.Steady q) (h' : q.Steady r) : p.Steady r :=
  ⟨h.toSameStage.trans h'.toSameStage, h.queue.trans h'.queue, h.offset.trans h'.offset, h.linked ∘ h'.linked⟩

/-- what a steady change keeps -/
def Proto.outline (p : Proto) : List Bool × BlockQueue UInt8 × ℕ × Option ℕ × Option ℕ × ℕ × ℕ :=
  ([p.flags.writing, p.flags.closing, p.flags.closed, p.flags.handshakeDone], p.writeBuffers, p.writeHeaderOffset,
    p.cryptRead, p.cryptWrite, p.cryptHandshake, p.cryptCount)

theorem Proto.Steady.of_eq {p q : Proto} (h : p.outline = q.outline) : p.Steady q := by
  simp only [Proto.outline, Prod.mk.injEq, List.cons.injEq, and_true] at h
  obtain ⟨⟨h₁, h₂, h₃, h₄⟩, h₅, h₆, h₇, h₈, h₉, h₁₀⟩ := h
  exact ⟨⟨h₁, h₂, h₃, h₄⟩, h₅, h₆, fun hq => ⟨h₉ ▸ h₁₀ ▸ hq.1, h₇ ▸ h₁₀ ▸ hq.2.1, h₈ ▸ h₁₀ ▸ hq.2.2⟩⟩

namespace Host

variable {W : Type}

/-- what an owner shows about the write queue for an invariant `I` of its world; `D` is what is left of it when a write was
completed and `write_done` is still to be called -/
structure Queue (H : Host W) (I D : W → Prop) (E : Fault → W → Prop) : Prop where
  quiet : ∀ {w p}, I w → p.SameStage (H.proto w) → I (H.setProto p w)
  overflow : ∀ {w} p, I w ∨ D w → E .stackOverflow (H.setProto p w)
  assertFail : ∀ {w}, I w ∨ D w → E .assertFail w
  errorFn : ∀ f ∈ H.onErrorFn, ∀ errcode errmsg, Keeps I E (f errcode errmsg)
  writeFn : ∀ f ∈ H.writeFn, ∀ {w p} buf, I w → (H.proto w).flags.closing = false → (H.proto w).flags.writing = false →
    p.flags = { (H.proto w).flags with writing := true } →
    wp (f buf) (fun r w' => (r.2 = false → I w') ∧ (r.2 = true → D w')) E (H.setProto p w)
  idle : ∀ {w}, D w → (H.proto w).flags.writing = false → I w
  release : ∀ {w p}, D w → (H.proto w).flags.writing = true →
    ((H.proto w).flags.closing = true → (H.proto w).flags.closed = true) →
    p.flags = { (H.proto w).flags with writing := false } → I (H.setProto p w)

/-- the object becomes closed: what the owner shows of the world `w` before it -/
def Closes (H : Host W) (I : W → Prop) (E : Fault → W → Prop) (w : W) : Prop :=
  ∀ p : Proto, p.flags = { (H.proto w).flags with writing := false, closing := true, closed := true } →
    (H.closeFn = none → I (H.setProto p w)) ∧ ∀ f ∈ H.closeFn, ∀ reason, wp (f reason) (fun _ => I) E (H.setProto p w)

/-- it also shows it for the last write of an object that is closing -/
structure Writes (H : Host W) (I D : W → Prop) (E : Fault → W → Prop) : Prop extends H.Queue I D E where
  written : ∀ {w}, (H.proto w).flags.closed = false → (H.proto w).flags.closing = true →
    (D w ∧ (H.proto w).flags.writing = true ∨ I w ∧ (H.proto w).flags.writing = false) → H.Closes I E w

/-- it also shows it for a close -/
structure Owned (H : Host W) (I D : W → Prop) (E : Fault → W → Prop) : Prop extends H.Queue I D E where
  closes : ∀ {w p}, I w → ((H.proto w).flags.writing = true ∨ (H.proto w).flags.closed = true) →
    p.flags = { (H.proto w).flags with closing := true } → I (H.setProto p w)
  closed : ∀ {w}, (H.proto w).flags.closed = false →
    (D w ∧ (H.proto w).flags.writing = true ∧ (H.proto w).flags.closing = true ∨ I w ∧ (H.proto w).flags.writing = false) →
    H.Closes I E w

theorem Owned.writes {H : Host W} {I D : W → Prop} {E : Fault → W → Prop} (h : H.Owned I D E) : H.Writes I D E where
  toQueue := h.toQueue
  written hopen hclosing hw := h.closed hopen (hw.imp_left fun hD => ⟨hD.1, hD.2, hclosing⟩)

variable {H : Host W} {I D : W → Prop} {E : Fault → W → Prop}

theorem Queue.overflow' (h : H.Queue I D E) {w : W} (hw : I w ∨ D w) : E .stackOverflow w := by
  have hstop := h.overflow (H.proto w) hw
  rwa [setProto_proto] at hstop

/-! ## The write queue -/

/-- while the object is closing nothing is written: the queue is emptied -/
theorem tryWrite_closing {w : W} (hclosing : (H.proto w).flags.closing = true) (n : ℕ) :
    wp (AtFrame.tryWrite H (n + 1)) (fun _ w' => ∃ q, w' = H.setProto { H.proto w with writeBuffers := q } w)
      (fun _ _ => False) w := by
  rw [AtFrame.tryWrite]
  have hsame : ∃ q, w = H.setProto { H.proto w with writeBuffers := q } w :=
    ⟨(H.proto w).writeBuffers, (H.setProto_proto w).symm⟩
  cases H.writeFn with
  | none => exact hsame
  | some writeFn =>
    simp only [wp_bind, wp_get, wp_ite, wp_pure, wp_modify]
    refine ⟨fun _ => hsame, fun _ => ⟨fun _ => hsame, fun _ => ⟨fun _ => ?_, fun hopen => absurd hclosing hopen⟩⟩⟩
    exact ⟨{ (H.proto w).writeBuffers with blocks := [] }, rfl⟩

/-- the last write of an object that is closing: the queue is emptied, the object becomes closed, and its owner is told -/
theorem writeDone_last {Q : ℤ → W → Prop} {w : W} (hwriting : (H.proto w).flags.writing = true)
    (hclosing : (H.proto w).flags.closing = true) (hopen : (H.proto w).flags.closed = false)
    (hoverflow : ∀ p, E .stackOverflow (H.setProto p w)) (hassert : E .assertFail w)
    (hclose : ∀ p : Proto, p.flags = { (H.proto w).flags with writing := false, closing := true, closed := true } →
      (H.closeFn = none → ∀ status, Q status (H.setProto p w)) ∧ ∀ f ∈ H.closeFn, ∀ reason, wp (f reason) Q E (H.setProto p w))
    (n : ℕ) (status : ℤ) : wp (AtFrame.writeDone H n status) Q E w := by
  have hstop : E .stackOverflow w := by
    have h := hoverflow (H.proto w)
    rwa [setProto_proto] at h
  cases n with
  | zero => exact hstop
  | succ n =>
    rw [AtFrame.writeDone]
    simp only [wp_bind, wp_get, wp_ite, wp_pure]
    refine ⟨fun hidle => absurd hwriting hidle, fun _ => ?_⟩
    cases popWritten (H.proto w).lastWritePtr (H.proto w).writeBuffers.blocks with
    | none => exact hassert
    | some bs =>
      rw [wp_bind, wp_modify]
      set p : Proto := { H.proto w with writeBuffers := { (H.proto w).writeBuffers with blocks := bs }, lastWritePtr := none,
                                        flags := { (H.proto w).flags with writing := false } }
      rw [wp_bind]
      cases n with
      | zero => exact hoverflow p
      | succ n =>
        refine wp_mono (tryWrite_closing (by rw [proto_setProto]; exact hclosing) n) ?_ fun _ _ h => h.elim
        rintro status w' ⟨q, rfl⟩
        simp only [wp_bind, wp_modify, wp_get, wp_ite, wp_pure, proto_setProto, setProto_setProto]
        refine ⟨fun _ => ?_, fun hc => absurd ?_ hc⟩
        · obtain ⟨hnone, hsome⟩ := hclose (Proto.setFlags { p with writeBuffers := q } { p.flags with closed := true })
            (by simp only [p, Proto.setFlags, hclosing])
          cases hf : H.closeFn with
          | none => exact hnone hf _
          | some f => exact hsome f hf _
        · exact ⟨hclosing, by simp only [p, hopen]; exact Bool.false_ne_true, Bool.false_ne_true⟩

/-- the end of `write_done` -/
theorem Writes.lastWritten (h : H.Writes I D E) {w : W} (hw : I w) (status : ℤ) :
    wp (do
      let p ← H.get
      if p.flags.closing ∧ ¬ p.flags.closed ∧ ¬ p.flags.writing then
        H.modify fun p => p.setFlags { p.flags with closed := true }
        match H.closeFn with
        | none => return status
        | some f => f p.closeReason
      else return status) (fun _ => I) E w := by
  simp only [wp_bind, wp_modify, wp_get, wp_ite, wp_pure, Bool.not_eq_true]
  refine ⟨fun hc => ?_, fun _ => hw⟩
  obtain ⟨hnone, hsome⟩ := h.written hc.2.1 hc.1 (.inr ⟨hw, hc.2.2⟩)
    ((H.proto w).setFlags { (H.proto w).flags with closed := true }) (by simp only [Proto.setFlags, hc.1, hc.2.2])
  cases hf : H.closeFn with
  | none => exact hnone hf
  | some f => exact hsome f hf _

theorem Writes.tryWrite_writeDone (h : H.Writes I D E) (n : ℕ) :
    Keeps I E (AtFrame.tryWrite H n) ∧ ∀ status w, D w → wp (AtFrame.writeDone H n status) (fun _ => I) E w := by
  induction n with
  | zero => exact ⟨fun w hw => h.overflow' (.inl hw), fun _ w hw => h.overflow' (.inr hw)⟩
  | succ n ih =>
    constructor
    · intro w hw
      rw [AtFrame.tryWrite]
      cases hf : H.writeFn with
      | none => exact hw
      | some writeFn =>
        simp only [wp_bind, wp_get, wp_ite, wp_pure, wp_modify, Bool.not_eq_true]
        refine ⟨fun _ => hw, fun hwriting => ⟨fun _ => hw, fun _ => ⟨fun _ => h.quiet hw ⟨rfl, rfl, rfl, rfl⟩, fun hopen => ?_⟩⟩⟩
        cases tryMerge (H.proto w).writeHeaderOffset (H.proto w).writeBuffers with
        | none => exact h.assertFail (.inl hw)
        | some q =>
          have hq : I (H.setProto { H.proto w with writeBuffers := q } w) := h.quiet hw ⟨rfl, rfl, rfl, rfl⟩
          simp only [wp_bind, wp_modify]
          cases q.front? with
          | none => exact h.assertFail (.inl hq)
          | some b =>
            simp only [wp_ite, wp_bind, wp_modify, proto_setProto, setProto_setProto]
            refine ⟨fun _ => ih.1 _ (h.quiet hw ⟨rfl, rfl, rfl, rfl⟩), fun _ => ?_⟩
            refine wp_post (h.writeFn writeFn hf b.data hw hopen hwriting rfl) fun r w' ⟨hout, hdone⟩ => ⟨fun hr => ?_, fun hr => ?_⟩
            · exact ih.2 _ w' (hdone hr)
            · exact hout (Bool.not_eq_true _ ▸ hr)
    · intro status w hw
      by_cases hlast : (H.proto w).flags.writing = true ∧ (H.proto w).flags.closing = true ∧ (H.proto w).flags.closed = false
      · refine writeDone_last hlast.1 hlast.2.1 hlast.2.2 (fun p => h.overflow p (.inr hw)) (h.assertFail (.inr hw)) (fun p hp => ?_) _ _
        obtain ⟨hnone, hsome⟩ := h.written hlast.2.2 hlast.2.1 (.inl ⟨hw, hlast.1⟩) p hp
        exact ⟨fun hf _ => hnone hf, hsome⟩
      · rw [AtFrame.writeDone]
        simp only [wp_bind, wp_get, wp_ite, wp_pure]
        refine ⟨fun hidle => h.idle hw (Bool.not_eq_true _ ▸ hidle), fun hwriting => ?_⟩
        rw [not_not] at hwriting
        cases popWritten (H.proto w).lastWritePtr (H.proto w).writeBuffers.blocks with
        | none => exact h.assertFail (.inr hw)
        | some bs =>
          rw [wp_bind, wp_modify, wp_bind]
          refine wp_post (ih.1 _ (h.release hw hwriting (fun hclosing => ?_) rfl)) fun status w' hw' => h.lastWritten hw' status
          exact Bool.not_eq_false _ ▸ fun hclosed => hlast ⟨hwriting, hclosing, hclosed⟩

theorem Writes.tryWrite (h : H.Writes I D E) (n : ℕ) : Keeps I E (AtFrame.tryWrite H n) := (h.tryWrite_writeDone n).1

/-- `write_done` restores the invariant behind a write that was completed -/
theorem Writes.writeDone (h : H.Writes I D E) (n : ℕ) (status : ℤ) {w : W} (hw : D w) :
    wp (AtFrame.writeDone H n status) (fun _ => I) E w := (h.tryWrite_writeDone n).2 status w hw

/-- an open object stays open and keeps its reason while it writes -/
theorem tryWrite_reason (hwrite : ∀ f ∈ H.writeFn, ∀ buf w, wp (f buf) (fun _ w' => H.proto w' = H.proto w) (fun _ _ => True) w)
    (reason : ℤ) (n : ℕ) : let Kept := fun w => (H.proto w).flags.closing = false ∧ (H.proto w).closeReason = reason
    Keeps Kept (fun _ _ => True) (AtFrame.tryWrite H n) ∧ ∀ status, Keeps Kept (fun _ _ => True) (AtFrame.writeDone H n status) := by
  intro Kept
  induction n with
  | zero => exact ⟨fun _ _ => trivial, fun _ _ _ => trivial⟩
  | succ n ih =>
    have hset : ∀ {w : W} {p : Proto}, p.flags.closing = false → p.closeReason = reason → Kept (H.setProto p w) := by
      intro w p hopen hreason
      simp only [Kept, proto_setProto]
      exact ⟨hopen, hreason⟩
    refine ⟨fun w hw => ?_, fun status w hw => ?_⟩
    · rw [AtFrame.tryWrite]
      cases hf : H.writeFn with
      | none => exact hw
      | some writeFn =>
        simp only [wp_bind, wp_get, wp_ite, wp_pure, wp_modify]
        refine ⟨fun _ => hw, fun _ => ⟨fun _ => hw, fun _ => ⟨fun _ => hset hw.1 hw.2, fun _ => ?_⟩⟩⟩
        cases tryMerge (H.proto w).writeHeaderOffset (H.proto w).writeBuffers with
        | none => exact (wp_throw _).2 trivial
        | some q =>
          simp only [wp_bind, wp_modify]
          cases q.front? with
          | none => exact (wp_throw _).2 trivial
          | some b =>
            simp only [wp_ite, wp_bind, wp_modify, proto_setProto, setProto_setProto]
            refine ⟨fun _ => ih.1 _ (hset hw.1 hw.2), fun _ => wp_post (hwrite writeFn hf b.data _) fun r w' hw' => ?_⟩
            have hkept : Kept w' := by
              simp only [Kept, hw', proto_setProto]
              exact hw
            exact ⟨fun _ => ih.2 _ _ hkept, fun _ => hkept⟩
    · rw [AtFrame.writeDone]
      simp only [wp_bind, wp_get, wp_ite, wp_pure]
      refine ⟨fun _ => hw, fun _ => ?_⟩
      cases popWritten (H.proto w).lastWritePtr (H.proto w).writeBuffers.blocks with
      | none => exact (wp_throw _).2 trivial
      | some bs =>
        simp only [wp_bind, wp_modify, wp_get, wp_ite, wp_pure]
        refine wp_post (ih.1 _ (hset hw.1 hw.2)) fun status w' hw' => ⟨fun hc => ?_, fun _ => hw'⟩
        exact absurd (hw'.1.symm.trans hc.1) Bool.false_ne_true

theorem finishClose_wp {K : W → Prop} {w : W}
    (hcloses : ((H.proto w).flags.writing = true ∨ (H.proto w).flags.closed = true) →
      ∀ p : Proto, p.flags = { (H.proto w).flags with closing := true } → K (H.setProto p w))
    (hclosed : (H.proto w).flags.closed = false → (H.proto w).flags.writing = false → H.Closes K E w) :
    wp (AtFrame.finishClose H) (fun _ => K) E w := by
  unfold AtFrame.finishClose
  simp only [wp_bind, wp_modify, wp_get, wp_ite, wp_pure, proto_setProto, setProto_setProto]
  refine ⟨fun hc => ?_, fun hc => ?_⟩
  · have hwriting : (H.proto w).flags.writing = false := Bool.not_eq_true _ ▸ hc.1
    have hopen : (H.proto w).flags.closed = false := Bool.not_eq_true _ ▸ hc.2
    obtain ⟨hnone, hsome⟩ := hclosed hopen hwriting (((H.proto w).setFlags { (H.proto w).flags with closing := true }).setFlags
      { ((H.proto w).setFlags { (H.proto w).flags with closing := true }).flags with closed := true })
      (by simp only [Proto.setFlags, hwriting])
    cases hf : H.closeFn with
    | none => exact hnone hf
    | some f => exact hsome f hf _
  · refine hcloses ?_ _ rfl
    by_cases hwriting : (H.proto w).flags.writing = true
    · exact .inl hwriting
    · exact .inr (not_not.1 fun hclosed => hc ⟨hwriting, hclosed⟩)

theorem Owned.finishClose (h : H.Owned I D E) : Keeps I E (AtFrame.finishClose H) := fun _ hw =>
  finishClose_wp (fun hstage _ hp => h.closes hw hstage hp) fun hopen hwriting => h.closed hopen (.inr ⟨hw, hwriting⟩)

/-- the functions that neither write, nor close the object, nor end a handshake keep the invariant -/
structure Still (H : Host W) (I : W → Prop) (E : Fault → W → Prop) : Prop where
  quiet : ∀ {w p}, I w → p.Steady (H.proto w) → I (H.setProto p w)
  errorFn : ∀ f ∈ H.onErrorFn, ∀ errcode errmsg, Keeps I E (f errcode errmsg)

/-- those that write keep it too -/
structure Calm (H : Host W) (I : W → Prop) (E : Fault → W → Prop) : Prop extends H.Still I E where
  writeBytes : ∀ buf, Keeps I E (AtFrame.writeBytes H buf)

theorem Writes.calm (h : H.Writes I D E) : H.Calm I E where
  quiet hw hp := h.quiet hw hp.toSameStage
  errorFn := h.errorFn
  writeBytes buf w hw := by
    unfold AtFrame.writeBytes
    simp only [wp_ite, wp_pure, wp_bind, wp_get]
    refine ⟨fun _ => ⟨fun _ => hw, fun _ => ?_⟩, fun _ => h.tryWrite _ w hw⟩
    cases (H.proto w).writeBuffers.pushBack _ _ with
    | none => exact hw
    | some q => exact h.tryWrite _ _ (h.quiet hw ⟨rfl, rfl, rfl, rfl⟩)

theorem Owned.calm (h : H.Owned I D E) : H.Calm I E := h.writes.calm

theorem Still.onError (h : H.Still I E) (errcode : ℤ) (errmsg : String) : Keeps I E (H.onError errcode errmsg) := by
  unfold Host.onError
  cases hf : H.onErrorFn with
  | none => exact keeps_pure _
  | some f => exact h.errorFn f hf errcode errmsg

theorem Calm.writeMsg (h : H.Calm I E) (msg : CsMsg) : Keeps I E (AtFrame.writeMsg H msg) := h.writeBytes _

/-! ## Payloads and messages -/

theorem Still.encryptData (h : H.Still I E) (c : CryptSession) (input : Bytes) :
    Keeps I E (AtFrame.encryptData H c input) := by
  intro w hw
  unfold AtFrame.encryptData
  simp only [wp_bind, wp_get, wp_ite, wp_pure]
  refine ⟨fun _ => hw, fun _ => ⟨fun _ => hw, fun _ => ⟨fun _ => hw, fun _ => ⟨fun _ => hw, fun _ => ?_⟩⟩⟩⟩
  cases H.ext.encrypt c.cipher input with
  | ok out => exact hw
  | error res =>
    simp only [wp_bind, wp_pure]
    exact h.onError _ _ w hw

theorem Still.decryptData (h : H.Still I E) (c : CryptSession) (input : Bytes) :
    Keeps I E (AtFrame.decryptData H c input) := by
  intro w hw
  unfold AtFrame.decryptData
  simp only [wp_bind, wp_get, wp_ite, wp_pure]
  refine ⟨fun _ => hw, fun _ => ⟨fun _ => hw, fun _ => ⟨fun _ => hw, fun _ => ⟨fun _ => hw, fun _ => ?_⟩⟩⟩⟩
  cases H.ext.decrypt c.cipher input with
  | ok out => exact hw
  | error res =>
    simp only [wp_bind, wp_pure]
    exact h.onError _ _ w hw

theorem Calm.sendPost (h : H.Calm I E) (type : MsgType) (buffer : Bytes) : Keeps I E (AtFrame.sendPost H type buffer) := by
  intro w hw
  unfold AtFrame.sendPost encodePost
  simp only [wp_bind, wp_get, wp_ite, wp_pure]
  have hmsg : ∀ (r : ℤ × Bytes) w', I w' → (r.1 ≠ 0 → I w') ∧ (¬ r.1 ≠ 0 →
      wp (AtFrame.writeMsg H ⟨some type, .post (some ⟨buffer.length, some r.2⟩)⟩) (fun _ => I) E w') :=
    fun r w' hw' => ⟨fun _ => hw', fun _ => h.writeMsg _ w' hw'⟩
  refine ⟨fun _ => hw, fun _ => ⟨fun _ => hw, fun _ => ⟨fun _ => hmsg (_, buffer) w hw, fun _ => ?_⟩⟩⟩
  cases (H.proto w).cryptWrite with
  | none => exact hmsg (_, buffer) w hw
  | some c => exact wp_post (h.encryptData _ _ w hw) hmsg

theorem Calm.sendPong (h : H.Calm I E) (tp : ℤ) : Keeps I E (AtFrame.sendPong H tp) := by
  intro w hw
  unfold AtFrame.sendPong
  simp only [wp_bind, wp_get, wp_ite, wp_pure]
  exact ⟨fun _ => hw, fun _ => ⟨fun _ => hw, fun _ => h.writeMsg _ w hw⟩⟩

theorem Calm.sendVerify (h : H.Calm I E) (buf : Bytes) : Keeps I E (AtFrame.sendVerify H buf) := by
  intro w hw
  unfold AtFrame.sendVerify
  simp only [wp_bind, wp_get, wp_ite, wp_pure]
  refine ⟨fun _ => hw, fun _ => ?_⟩
  cases H.writeFn with
  | none => exact hw
  | some f =>
    cases (H.proto w).cryptWrite with
    | none => exact hw
    | some c =>
      simp only [wp_bind, wp_get, wp_ite, wp_pure]
      exact ⟨fun _ => h.writeMsg _ w hw,
        fun _ => wp_post (h.encryptData _ _ w hw) fun _ w' hw' => h.writeMsg _ w' hw'⟩

/-! ## Handshakes without an end -/

theorem steady_refl (p : Proto) : p.Steady p := .of_eq rfl

theorem steady_dhCall (ext : Ext) (p : Proto) (c : DhCall) : (p.dhCall ext c).2.Steady p := .of_eq rfl

theorem steady_sessionId (p : Proto) (id : UInt64) : Proto.Steady { p with sessionId := id } p := .of_eq rfl

theorem steady_seed (p : Proto) : Proto.Steady { p with seed := p.seed + 1 } p := .of_eq rfl

theorem steady_setHs (p : Proto) (c : CryptSession) : (p.setHs c).Steady p := .of_eq rfl

theorem steady_writeHs (p : Proto) : p.writeHs.Steady p :=
  ⟨⟨rfl, rfl, rfl, rfl⟩, rfl, rfl, fun h => ⟨h.1, h.2.1, fun _ hc => Option.some.inj hc ▸ h.1⟩⟩

theorem steady_readHs (p : Proto) : p.readHs.Steady p :=
  ⟨⟨rfl, rfl, rfl, rfl⟩, rfl, rfl, fun h => ⟨h.1, fun _ hc => Option.some.inj hc ▸ h.1, h.2.2⟩⟩

theorem steady_newHs (p : Proto) : p.newHs.Steady p :=
  ⟨⟨rfl, rfl, rfl, rfl⟩, rfl, rfl, fun h =>
    ⟨Nat.lt_succ_self _, fun c hc => (h.2.1 c hc).trans (Nat.lt_succ_self _),
      fun c hc => (h.2.2 c hc).trans (Nat.lt_succ_self _)⟩⟩

theorem steady_ready (p : Proto) :
    ((p.setHandshake { p.handshake with hasData := true }).setFlags { p.flags with handshakeUpdate := true }).Steady p :=
  .of_eq rfl

theorem steady_setupHandshake (ext : Ext) (p : Proto) (g : Option CryptGlobal) :
    (p.setupHandshake ext g).2.Steady p := by
  unfold Proto.setupHandshake
  split_ifs with h
  · exact steady_refl p
  · cases g with
    | none => exact .of_eq rfl
    | some g =>
      simp only
      split_ifs with h
      · exact .of_eq rfl
      · have hdh := fun q : Proto => steady_dhCall ext q (.init g.sharedDhContext)
        cases g.conf.switchSecretType with
        | EN_SST_DH | EN_SST_ECDH => exact (steady_ready _).trans ((hdh _).trans (.of_eq rfl))
        | EN_SST_DIRECT | other n => exact .of_eq rfl

theorem steady_closeHandshake (p : Proto) (status : ℤ) : (p.closeHandshake status).2.Steady p := by
  simp only [Proto.closeHandshake]
  split_ifs with h
  · split <;> exact .of_eq rfl
  · exact .of_eq rfl

/-- an unsupported switch type turns success into an error, never the other way -/
theorem closeHandshake_status {p : Proto} {status : ℤ} (h : (p.closeHandshake status).1 = 0) : status = 0 := by
  simp only [Proto.closeHandshake] at h
  split_ifs at h with hd
  · split at h
    · exact h
    · exact h
    · exact h
    · exact absurd h (show EN_ECT_CRYPT_NOT_SUPPORTED ≠ 0 by decide)
  · exact h

theorem wp_setupHandshake {Q : ℤ → W → Prop} {w : W} (g : Option CryptGlobal) :
    wp (AtFrame.setupHandshake H g) Q E w ↔
      Q ((H.proto w).setupHandshake H.ext g).1 (H.setProto ((H.proto w).setupHandshake H.ext g).2 w) := by
  unfold AtFrame.setupHandshake
  simp only [wp_bind, wp_get, wp_modify, wp_pure]

theorem Calm.setupHandshake (h : H.Calm I E) (g : Option CryptGlobal) : Keeps I E (AtFrame.setupHandshake H g) :=
  fun _ hw => wp_setupHandshake g |>.2 (h.quiet hw (steady_setupHandshake _ _ _))

/-! ## Closing and the end of a handshake -/

/-- what an owner requires before a handshake ends with success, a session starts, or one is resumed -/
structure Guard (W : Type) where
  finish : W → Prop
  start : W → Prop
  resume : W → Prop

/-- what an owner shows for the end of a handshake -/
structure Ends (H : Host W) (I : W → Prop) (E : Fault → W → Prop) (G : Guard W) : Prop extends H.Calm I E where
  done : ∀ {w p}, I w → (H.proto w).flags.handshakeDone = false →
    p = (H.proto w).setFlags { (H.proto w).flags with handshakeDone := true, handshakeUpdate := false } →
    (H.onHandshakeDoneFn = none → I (H.setProto p w)) ∧
      ∀ f ∈ H.onHandshakeDoneFn, ∀ status, (status = 0 → G.finish w) → wp (f status) (fun _ => I) E (H.setProto p w)
  updateFn : ∀ f ∈ H.onHandshakeUpdateFn, ∀ status, Keeps I E (f status)
  finishCalm : H.Calm (fun w => I w ∧ G.finish w) E

/-- what an owner shows for an invariant that every function of the object keeps -/
structure Respects (H : Host W) (I : W → Prop) (E : Fault → W → Prop) (G : Guard W) : Prop extends H.Ends I E G where
  nullConf : ∀ {w}, I w → E .nullConf w
  finishClose : Keeps I E (AtFrame.finishClose H)
  newSessionFn : ∀ f ∈ H.newSessionFn, ∀ id w, I w → (H.proto w).flags.closing = false → G.start w →
    wp (f id) (fun _ w' => I w' ∧ G.finish w') E w
  finishCurrent : ∀ {w g}, G.finish w → G.finish (H.setCurrent g w)
  start : ∀ {w p}, G.start w → p.Steady (H.proto w) → G.start (H.setProto p w)
  resume : ∀ {w p}, G.resume w → p.Steady (H.proto w) → G.resume (H.setProto p w)

/-- what an owner shows for a reconnect; `J` holds from the callback to the end of the handshake -/
structure Resumes (H : Host W) (I J : W → Prop) (E : Fault → W → Prop) (G : Guard W) : Prop where
  reconnectFn : ∀ f ∈ H.reconnectFn, ∀ id w, I w → (H.proto w).flags.closing = false → G.resume w →
    wp (f id) (fun r w' => (r = 0 → J w') ∧ (r ≠ 0 → I w')) E w
  calm : H.Calm J E
  ends : ∀ {w} status, J w →
    wp (AtFrame.closeHandshake H status) (fun _ w' => wp (AtFrame.sendKeySyn H) (fun _ => I) E w') E w

variable {G : Guard W}

theorem Ends.finish (h : H.Ends I E G) {w : W} {p : Proto} (hw : I w) (hf : G.finish w)
    (hp : p.Steady (H.proto w)) : G.finish (H.setProto p w) := (h.finishCalm.quiet ⟨hw, hf⟩ hp).2

theorem Calm.sendKickoff (h : H.Calm I E) (reason : ℤ) : Keeps I E (AtFrame.sendKickoff H reason) := by
  intro w hw
  unfold AtFrame.sendKickoff
  simp only [wp_bind, wp_get, wp_ite, wp_pure]
  refine ⟨fun _ => hw, fun _ => ?_⟩
  cases H.writeFn with
  | none => exact hw
  | some f => exact h.writeMsg _ w hw

theorem Calm.close (h : H.Calm I E) {K : W → Prop} (hclosing : ∀ w, I w → (H.proto w).flags.closing = true → K w)
    (hfinish : ∀ w, I w → wp (AtFrame.finishClose H) (fun _ => K) E w) (reason : ℤ) (kick : Bool) {w : W} (hw : I w) :
    wp (AtFrame.close H reason kick) (fun _ => K) E w := by
  unfold AtFrame.close
  simp only [wp_bind, wp_get, wp_ite, wp_pure, wp_modify]
  have hreason : I (H.setProto { H.proto w with closeReason := reason } w) := h.quiet hw (.of_eq rfl)
  refine ⟨fun hc => hclosing w hw hc, fun _ => ⟨fun _ => ?_, fun _ => hfinish _ hreason⟩⟩
  exact wp_post (h.sendKickoff reason _ hreason) fun _ w' hw' => hfinish w' hw'

theorem Respects.close (h : H.Respects I E G) (reason : ℤ) (kick : Bool) : Keeps I E (AtFrame.close H reason kick) :=
  fun _ hw => h.toCalm.close (fun _ hw' _ => hw') h.finishClose reason kick hw

/-- the notice of a handshake that has been updated -/
theorem Ends.handshakeUpdate (h : H.Ends I E G) (status : ℤ) :
    Keeps I E (match H.onHandshakeUpdateFn with
      | some f => do
        let _ ← f status
        return 0
      | none => return (0 : ℤ)) := by
  intro w hw
  cases hf : H.onHandshakeUpdateFn with
  | none => exact hw
  | some f => exact (wp_bind _ _).2 (h.updateFn f hf status w hw)

theorem Ends.handshakeDone (h : H.Ends I E G) {w : W} (hw : I w) (status : ℤ)
    (hs : status = 0 → (H.proto w).flags.handshakeDone = false → G.finish w) :
    wp (AtFrame.handshakeDone H status) (fun _ => I) E w := by
  unfold AtFrame.handshakeDone
  simp only [wp_bind, wp_get, wp_ite, wp_pure, wp_modify]
  refine ⟨fun _ => hw, fun _ => ?_⟩
  have hupdate := h.handshakeUpdate status
  cases hdone : (H.proto w).flags.handshakeDone with
  | true => exact hupdate _ (h.quiet hw ⟨⟨rfl, rfl, rfl, hdone.symm⟩, rfl, rfl, id⟩)
  | false =>
    obtain ⟨hnone, hsome⟩ := h.done (p := (H.proto w).setFlags
      { (H.proto w).flags with handshakeDone := true, handshakeUpdate := false }) hw hdone rfl
    cases hf : H.onHandshakeDoneFn with
    | none => exact hupdate _ (hnone hf)
    | some f => exact (wp_bind _ _).2 (hsome f hf status fun h0 => hs h0 hdone)

theorem Ends.closeHandshake (h : H.Ends I E G) {w : W} (hw : I w) (status : ℤ)
    (hs : status = 0 → (H.proto w).flags.handshakeDone = false → G.finish w) :
    wp (AtFrame.closeHandshake H status) (fun _ => I) E w := by
  unfold AtFrame.closeHandshake
  simp only [wp_bind, wp_get, wp_modify, wp_pure]
  have hstage := steady_closeHandshake (H.proto w) status
  refine h.handshakeDone (h.quiet hw hstage) _ fun h0 hdone => h.finish hw (hs (closeHandshake_status h0) ?_) hstage
  rw [← hdone, proto_setProto, hstage.handshakeDone]

/-! ## The start response -/

theorem Calm.packStartRspDirect (h : H.Calm I E) (sessId : UInt64) (cryptType : Bytes) :
    Keeps I E (AtFrame.packStartRspDirect H sessId cryptType) := by
  intro w hw
  unfold AtFrame.packStartRspDirect
  simp only [wp_bind, wp_get, wp_modify, wp_ite, wp_pure, proto_setProto, setProto_setProto]
  refine ⟨fun _ => ?_, fun _ => h.quiet hw ((steady_writeHs _).trans (.of_eq rfl))⟩
  exact wp_post (h.onError _ _ _ (h.quiet hw (.of_eq rfl))) fun _ w' hw' => h.quiet hw' (steady_writeHs _)

/-- a result that is not a body is an error -/
def IsError {α : Type} (r : Except ℤ α) : Prop := ∀ ret, r = .error ret → ret ≠ 0

theorem isError_ok {α : Type} (a : α) : IsError (.ok a : Except ℤ α) := fun _ h => nomatch h

theorem isError_error {α : Type} {ret : ℤ} (h : ret ≠ 0) : IsError (.error ret : Except ℤ α) := by
  rintro _ ⟨⟩
  exact h

theorem Calm.packStartRspDh (h : H.Calm I E) (sessId : UInt64) (cryptType : Bytes) {w : W} (hw : I w) :
    wp (AtFrame.packStartRspDh H sessId cryptType) (fun r w' => I w' ∧ IsError r) E w := by
  unfold AtFrame.packStartRspDh
  simp only [wp_bind, wp_get, wp_modify, wp_ite, wp_pure]
  refine ⟨fun _ => wp_post (h.onError _ _ w hw) fun _ w' hw' => ⟨hw', isError_error (by decide)⟩, fun _ => ⟨fun _ => ?_, fun _ => ?_⟩⟩
  · refine wp_post (h.onError _ _ _ (h.quiet hw ?_)) fun _ w' hw' => ⟨hw', isError_error (by decide)⟩
    exact (steady_setHs _ _).trans (steady_dhCall _ _ _)
  · exact ⟨h.quiet hw ((steady_setHs _ _).trans (steady_dhCall _ _ _)), isError_ok _⟩

theorem Ends.packHandshakeStartRsp (h : H.Ends I E G) (sessId : UInt64) (cryptType : Bytes) {w : W} (hw : I w)
    (hf : (H.proto w).flags.handshakeDone = false → G.finish w) :
    wp (AtFrame.packHandshakeStartRsp H sessId cryptType) (fun r w' => I w' ∧ IsError r) E w := by
  unfold AtFrame.packHandshakeStartRsp
  simp only [wp_bind, wp_get, wp_modify, wp_ite, wp_pure, proto_setProto, setProto_setProto]
  refine ⟨fun _ => ?_, fun _ => ?_⟩
  · refine wp_post ?_ fun _ w' hw' => ⟨fun hret => ⟨hw', isError_error hret.ne⟩, fun _ => ⟨hw', isError_ok _⟩⟩
    have hstage : ∀ c, ((H.proto w).setHs c).readHs.writeHs.Steady (H.proto w) := fun _ =>
      (steady_writeHs _).trans ((steady_readHs _).trans (steady_setHs _ _))
    refine h.closeHandshake (h.quiet hw (hstage _)) _ fun _ hdone => h.finish hw (hf ?_) (hstage _)
    rw [← hdone, proto_setProto, (hstage _).handshakeDone]
  · cases (H.proto w).handshake.switchSecretType with
    | EN_SST_DIRECT =>
      simp only [wp_bind, wp_pure]
      exact wp_post (h.packStartRspDirect _ _ _ (h.quiet hw (.of_eq rfl))) fun _ w' hw' => ⟨hw', isError_ok _⟩
    | EN_SST_DH => exact h.packStartRspDh _ _ (h.quiet hw (.of_eq rfl))
    | EN_SST_ECDH => exact h.packStartRspDh _ _ (h.quiet hw (.of_eq rfl))
    | other n =>
      simp only [wp_bind, wp_pure]
      exact wp_post (h.onError _ _ _ (h.quiet hw (.of_eq rfl))) fun _ w' hw' => ⟨hw', isError_error (by decide)⟩

theorem Ends.sendStartRsp (h : H.Ends I E G) (type : MsgType) (sessId : UInt64) (cryptType : Bytes) {w : W}
    (hw : I w) (hf : (H.proto w).flags.handshakeDone = false → G.finish w) :
    wp (AtFrame.sendStartRsp H type sessId cryptType) (fun _ => I) E w := by
  unfold AtFrame.sendStartRsp
  rw [wp_bind]
  refine wp_post (h.packHandshakeStartRsp sessId cryptType hw hf) fun r w' ⟨hw', hr⟩ => ?_
  cases r with
  | error ret =>
    simp only [wp_bind, wp_pure]
    exact h.handshakeDone hw' ret fun h0 _ => absurd h0 (hr ret rfl)
  | ok body =>
    simp only [wp_bind, wp_ite, wp_pure]
    refine wp_post (h.writeMsg _ w' hw') fun ret w2 hw2 => ⟨fun hret => ?_, fun _ => hw2⟩
    exact h.handshakeDone hw2 ret fun h0 _ => absurd h0 hret.ne

theorem Ends.sendKeySyn (h : H.Ends I E G) {w : W} (hw : I w)
    (hf : (H.proto w).flags.closing = false → (H.proto w).flags.handshakeDone = false → G.finish w) :
    wp (AtFrame.sendKeySyn H) (fun _ => I) E w := by
  unfold AtFrame.sendKeySyn
  simp only [wp_bind, wp_get, wp_ite, wp_pure, wp_modify, wp_getCurrent, wp_setupHandshake, proto_setProto,
    setProto_setProto, current_setProto, Bool.not_eq_true]
  refine ⟨fun _ => hw, fun hopen => ⟨fun _ => hw, fun _ => ⟨fun _ => hw, fun _ => ⟨fun _ => hw, fun _ => ?_⟩⟩⟩⟩
  have hstage : ((H.proto w).newHs.setupHandshake H.ext (H.current w)).2.Steady (H.proto w) :=
    (steady_setupHandshake H.ext (H.proto w).newHs (H.current w)).trans (steady_newHs _)
  have hset := h.quiet hw hstage
  have hfset := fun hdone => h.finish hw (hf hopen hdone) hstage
  refine ⟨fun _ => hset, fun _ => ?_⟩
  split
  · exact hset
  · simp only [wp_bind, wp_get, wp_ite, wp_pure]
    refine ⟨fun _ => hset, fun _ => h.sendStartRsp _ _ _ hset fun hdone => hfset ?_⟩
    rw [← hdone, proto_setProto, hstage.handshakeDone]

end Host

end AtFrame
