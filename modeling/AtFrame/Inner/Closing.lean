/-
Closing is final and reported once.

The owner of the object may do anything in its callbacks: it sees the whole object, calls back into it as often and as deep as
the stack allows (`Script`), and answers as it likes; `write_fn` in particular completes a write at once, later, or inside
itself. `calls` records each callback with the flags at that moment, and `outstanding` counts the writes that were handed to
`write_fn` and not completed.

- `Inv`: what holds whenever the owner is called, and when a call on the object returns;
- `Owner.owned`: the write queue and the close of the object keep it, whatever the callbacks do;
- `closing_final`: the statement over runs.

Premises: the object starts with no flag set. A run may also stop at an assertion or because the stack is used up; what is said of
the calls made until then holds of it, too. Witness `closing_final_nested`: a callback closes the object again while it is being
closed, and `close_fn` is called once.
-/
import AtFrame.Inner.Client
import AtFrame.Inner.Runs

namespace AtFrame.Closing

open AtFrame.Lib

/-! ## An owner that calls back -/

/-- one call of a callback -/
inductive Callback where
  | write (buf : Bytes)
  | message (out : Bytes) (len : ℕ)
  | newSession (id : UInt64)
  | reconnect (id : UInt64)
  | close (reason : ℤ)
  | handshakeDone (status : ℤ)
  | handshakeUpdate (status : ℤ)
  | error (errcode : ℤ) (errmsg : String)
deriving DecidableEq, Repr

/-- one call on the object; a `read` inside a callback of another one hands on whatever frames the shared buffers hold, and
`frame` stands for each of them -/
inductive Call where
  | frame (buffer : Bytes) (errcode : ℤ)
  | read (chunk : Bytes)
  | writeDone (status : ℤ)
  | sendPost (type : MsgType) (buffer : Bytes)
  | sendPing
  | sendPong (tp : ℤ)
  | sendKeySyn
  | sendKickoff (reason : ℤ)
  | sendVerify (buf : Bytes)
  | startSession (cryptType : Bytes)
  | reconnectSession (id : UInt64) (cryptType secret : Bytes)
  | checkReconnect (other : Proto)
  | close (reason : ℤ) (isSendKickoff : Bool)

structure Watched where
  proto : Proto
  current : Option CryptGlobal
  /-- the callbacks, each with the flags of the object when it was called -/
  calls : List (Callback × ProtoFlags)
  /-- writes that were handed to `write_fn` and not completed -/
  outstanding : ℕ

/-- what a callback answers; each callback uses its part of it -/
structure Answer where
  status : ℤ
  isDone : Bool
  id : UInt64

/-- what a callback does: calls on the object, each chosen by what there is to see, and its answer -/
inductive Script where
  | answer (a : Answer)
  | call (c : Call) (next : Watched → Script)

/-- the callbacks that are set, and the setting of the object -/
structure Owner where
  ext : Ext
  stack : ℕ
  now : ℤ
  writeFn : Option (Bytes → Watched → Script)
  messageFn : Option (Bytes → ℕ → Watched → Script)
  newSessionFn : Option (UInt64 → Watched → Script)
  reconnectFn : Option (UInt64 → Watched → Script)
  closeFn : Option (ℤ → Watched → Script)
  onHandshakeDoneFn : Option (ℤ → Watched → Script)
  onHandshakeUpdateFn : Option (ℤ → Watched → Script)
  onErrorFn : Option (ℤ → String → Watched → Script)

def Watched.record (cb : Callback) (w : Watched) : Watched := { w with calls := w.calls ++ [(cb, w.proto.flags)] }

/-- a callback is called: record it, look, and do what the script says -/
def callback (run : Script → Prog Fault Watched Answer) (cb : Callback) (script : Watched → Script) :
    Prog Fault Watched Answer := do
  modify (Watched.record cb)
  let w ← get
  run (script w)

/-- a write was completed -/
def Watched.complete (w : Watched) : Watched := { w with outstanding := w.outstanding - 1 }

def watchedWrite (run : Script → Prog Fault Watched Answer) (f : Bytes → Watched → Script) (buf : Bytes) :
    Prog Fault Watched (ℤ × Bool) := do
  modify fun w => { w with outstanding := w.outstanding + 1 }
  let a ← callback run (.write buf) (f buf)
  (if a.isDone then modify Watched.complete else pure ())
  return (a.status, a.isDone)

@[reducible] def Owner.host (o : Owner) (run : Script → Prog Fault Watched Answer) : Host Watched where
  proto := Watched.proto
  setProto p w := { w with proto := p }
  proto_setProto _ _ := rfl
  setProto_setProto _ _ _ := rfl
  setProto_proto _ := rfl
  current := Watched.current
  setCurrent g w := { w with current := some g }
  proto_setCurrent _ _ := rfl
  current_setProto _ _ := rfl
  current_setCurrent _ _ := rfl
  ext := o.ext
  stack := o.stack
  now _ := o.now
  writeFn := o.writeFn.map (watchedWrite run)
  messageFn := o.messageFn.map fun f out len => Answer.status <$> callback run (.message out len) (f out len)
  newSessionFn := o.newSessionFn.map fun f id => (fun a => (a.status, a.id)) <$> callback run (.newSession id) (f id)
  reconnectFn := o.reconnectFn.map fun f id => Answer.status <$> callback run (.reconnect id) (f id)
  closeFn := o.closeFn.map fun f reason => Answer.status <$> callback run (.close reason) (f reason)
  onHandshakeDoneFn := o.onHandshakeDoneFn.map fun f status =>
    Answer.status <$> callback run (.handshakeDone status) (f status)
  onHandshakeUpdateFn := o.onHandshakeUpdateFn.map fun f status =>
    Answer.status <$> callback run (.handshakeUpdate status) (f status)
  onErrorFn := o.onErrorFn.map fun f errcode errmsg => (fun _ => ()) <$> callback run (.error errcode errmsg) (f errcode errmsg)

/-- a call on the object -/
def Call.run (H : Host Watched) : Call → Prog Fault Watched Unit
  | .frame buffer errcode => dispatchData H buffer errcode
  | .read chunk => (fun _ => ()) <$> readData H chunk
  | .writeDone status => do
    modify Watched.complete
    let _ ← AtFrame.writeDone H H.stack status
    return ()
  | .sendPost type buffer => (fun _ => ()) <$> AtFrame.sendPost H type buffer
  | .sendPing => (fun _ => ()) <$> AtFrame.sendPing H
  | .sendPong tp => (fun _ => ()) <$> AtFrame.sendPong H tp
  | .sendKeySyn => (fun _ => ()) <$> AtFrame.sendKeySyn H
  | .sendKickoff reason => (fun _ => ()) <$> AtFrame.sendKickoff H reason
  | .sendVerify buf => (fun _ => ()) <$> AtFrame.sendVerify H buf
  | .startSession cryptType => (fun _ => ()) <$> AtFrame.startSession H cryptType
  | .reconnectSession id cryptType secret => (fun _ => ()) <$> AtFrame.reconnectSession H id cryptType secret
  | .checkReconnect other => (fun _ => ()) <$> AtFrame.checkReconnect H other
  | .close reason isSendKickoff => (fun _ => ()) <$> AtFrame.close H reason isSendKickoff

/-- follow a script on an object whose own callbacks are those of `H` -/
def Script.run (H : Host Watched) : Script → Prog Fault Watched Answer
  | .answer a => return a
  | .call c next => do
    c.run H
    let w ← get
    Script.run H (next w)

/-- scripts, nested at most `n` deep -/
def Owner.nested (o : Owner) : ℕ → Script → Prog Fault Watched Answer
  | 0, _ => throw .stackOverflow
  | n + 1, script => script.run (o.host (o.nested n))

/-- the calls from outside, one after another -/
def Owner.run (o : Owner) (depth : ℕ) (calls : List Call) : Prog Fault Watched Unit :=
  calls.forM (Call.run (o.host (o.nested depth)))

/-! ## The invariant -/

/-- closing and closed are not taken back -/
def Later (f g : ProtoFlags) : Prop := (f.closing = true → g.closing = true) ∧ (f.closed = true → g.closed = true)

theorem Later.refl (f : ProtoFlags) : Later f f := ⟨id, id⟩

theorem Later.trans {f g h : ProtoFlags} (h₁ : Later f g) (h₂ : Later g h) : Later f h := ⟨h₂.1 ∘ h₁.1, h₂.2 ∘ h₁.2⟩

def Callback.isClose : Callback → Bool
  | .close _ => true
  | _ => false

/-- the flags with which a callback may be called -/
def Allowed (a : Callback × ProtoFlags) : Prop :=
  match a.1 with
  | .close _ => a.2.closing = true ∧ a.2.closed = true ∧ a.2.writing = false
  | .write _ | .message _ _ => a.2.closing = false
  | _ => True

/-- the calls of `close_fn` -/
def Watched.closes (w : Watched) : ℕ := w.calls.countP fun a => a.1.isClose

/-- the record of the callbacks, also where a fault stops the program -/
structure Recorded (w : Watched) : Prop where
  allowed : ∀ a ∈ w.calls, Allowed a
  ordered : w.calls.Pairwise fun a b => Later a.2 b.2
  once : w.closes ≤ 1

/-- what holds between the calls; `base` are the flags at some earlier time -/
structure Core (base : ProtoFlags) (w : Watched) : Prop extends Recorded w where
  base : Later base w.proto.flags
  upTo : ∀ a ∈ w.calls, Later a.2 w.proto.flags
  unclosed : w.proto.flags.closed = false → w.closes = 0
  settled : w.proto.flags.closing = true → w.proto.flags.writing = false → w.proto.flags.closed = true
  closed : w.proto.flags.closed = true → w.proto.flags.closing = true ∧ w.proto.flags.writing = false

structure Inv (base : ProtoFlags) (w : Watched) : Prop extends Core base w where
  outstanding : w.outstanding = if w.proto.flags.writing then 1 else 0

/-- a write was completed, and `write_done` is still to be called -/
structure Pending (base : ProtoFlags) (w : Watched) : Prop extends Core base w where
  outstanding : w.outstanding = 0

variable {o : Owner} {run : Script → Prog Fault Watched Answer} {base : ProtoFlags} {w : Watched} {p : Proto}

/-- a fault leaves the record -/
def Stopped (_ : Fault) (w : Watched) : Prop := Recorded w

theorem Inv.quiet (h : Inv base w) (hp : p.SameStage w.proto) : Inv base { w with proto := p } where
  allowed := h.allowed
  ordered := h.ordered
  once := h.once
  base := h.base.trans ⟨fun hc => hp.closing.trans hc, fun hc => hp.closed.trans hc⟩
  upTo a ha := (h.upTo a ha).trans ⟨fun hc => hp.closing.trans hc, fun hc => hp.closed.trans hc⟩
  unclosed hc := h.unclosed (hp.closed.symm.trans hc)
  settled hc hw := hp.closed.trans (h.settled (hp.closing.symm.trans hc) (hp.writing.symm.trans hw))
  closed hc := by
    obtain ⟨hclosing, hwriting⟩ := h.closed (hp.closed.symm.trans hc)
    exact ⟨hp.closing.trans hclosing, hp.writing.trans hwriting⟩
  outstanding := h.outstanding.trans (by rw [hp.writing])

theorem closes_record (w : Watched) (cb : Callback) : (w.record cb).closes = w.closes + if cb.isClose then 1 else 0 := by
  rw [Watched.closes, Watched.record, List.countP_append, List.countP_singleton]
  rfl

/-- a callback that is recorded with the flags of the object -/
theorem Core.record (h : Core base w) {cb : Callback} (hcb : Allowed (cb, w.proto.flags))
    (hclose : cb.isClose = true → w.proto.flags.closed = true ∧ w.closes = 0) : Core base (w.record cb) where
  allowed a ha := by
    rcases List.mem_append.1 ha with ha | ha
    · exact h.allowed a ha
    · rw [List.mem_singleton.1 ha]
      exact hcb
  ordered := by
    refine List.pairwise_append.2 ⟨h.ordered, List.pairwise_singleton _ _, fun a ha b hb => ?_⟩
    rw [List.mem_singleton.1 hb]
    exact h.upTo a ha
  once := by
    rw [closes_record]
    split_ifs with hcl
    · rw [(hclose hcl).2]
    · exact h.once
  base := h.base
  upTo a ha := by
    rcases List.mem_append.1 ha with ha | ha
    · exact h.upTo a ha
    · rw [List.mem_singleton.1 ha]
      exact Later.refl _
  unclosed hc := by
    rw [closes_record, if_neg fun hcl => Bool.false_ne_true (hc.symm.trans (hclose hcl).1)]
    exact h.unclosed hc
  settled := h.settled
  closed := h.closed

theorem Inv.record (h : Inv base w) {cb : Callback} (hcb : Allowed (cb, w.proto.flags)) (hclose : cb.isClose = false) :
    Inv base (w.record cb) where
  toCore := h.toCore.record hcb fun hc => absurd (hclose.symm.trans hc) Bool.false_ne_true
  outstanding := h.outstanding

theorem Inv.complete (h : Inv base w) : Pending base w.complete where
  toCore := { h.toCore with }
  outstanding := by
    rw [Watched.complete, h.outstanding]
    split_ifs <;> rfl

/-- a change of the flags of the object's life -/
theorem Core.setFlags (h : Core base w) (n : ℕ) (hlater : Later w.proto.flags p.flags)
    (hsettled : p.flags.closing = true → p.flags.writing = false → p.flags.closed = true)
    (hclosed : p.flags.closed = true → p.flags.closing = true ∧ p.flags.writing = false) :
    Core base { w with proto := p, outstanding := n } where
  allowed := h.allowed
  ordered := h.ordered
  once := h.once
  base := h.base.trans hlater
  upTo a ha := (h.upTo a ha).trans hlater
  unclosed hc := h.unclosed (Bool.not_eq_true _ ▸ fun hw => Bool.false_ne_true (hc.symm.trans (hlater.2 hw)))
  settled := hsettled
  closed := hclosed

/-! ## Calls and scripts -/

section rules

variable {H : Host Watched} {I : Watched → Prop} {E : Fault → Watched → Prop}

/-- every call on the object keeps an invariant that the object respects -/
theorem Call.keeps (c : Call) (h : H.Respects I E Host.Guard.free)
    (hframe : ∀ buffer errcode, Keeps I E (dispatchData H buffer errcode))
    (hwritten : ∀ status, Keeps I E ((Call.writeDone status).run H)) : Keeps I E (c.run H) := by
  cases c with
  | frame buffer errcode => exact hframe buffer errcode
  | read chunk => exact keeps_map _ (h.readData hframe chunk)
  | writeDone status => exact hwritten status
  | sendPost type buffer => exact keeps_map _ (h.sendPost type buffer)
  | sendPing => exact keeps_map _ h.sendPing
  | sendPong tp => exact keeps_map _ (h.sendPong tp)
  | sendKeySyn => exact keeps_map _ fun w hw => h.sendKeySyn hw fun _ _ => trivial
  | sendKickoff reason => exact keeps_map _ (h.sendKickoff reason)
  | sendVerify buf => exact keeps_map _ (h.sendVerify buf)
  | startSession cryptType => exact keeps_map _ (h.startSession cryptType)
  | reconnectSession id cryptType secret => exact keeps_map _ (h.reconnectSession id cryptType secret)
  | checkReconnect other => exact keeps_map _ (h.checkReconnect other)
  | close reason kick => exact keeps_map _ (h.close reason kick)

theorem Script.keeps (script : Script) (hcall : ∀ c : Call, Keeps I E (c.run H)) : Keeps I E (script.run H) := by
  induction script with
  | answer a => exact keeps_pure a
  | call c next ih => exact keeps_bind (hcall c) fun _ => keeps_get fun w => ih w

end rules

/-! ## The callbacks -/

section callbacks

variable (hrun : ∀ base script, Keeps (Inv base) Stopped (run script))

include hrun

/-- a callback other than `close_fn` keeps the invariant -/
theorem callback_keeps {cb : Callback} (script : Watched → Script) (hclose : cb.isClose = false) (h : Inv base w)
    (hcb : Allowed (cb, w.proto.flags)) : wp (callback run cb script) (fun _ => Inv base) Stopped w := by
  unfold callback
  simp only [wp_bind, wp_modify, wp_get]
  exact hrun base _ _ (h.record hcb hclose)

/-- **The write queue and the close** keep the invariant, whatever the callbacks do. -/
theorem Owner.owned (o : Owner) (base : ProtoFlags) : (o.host run).Owned (Inv base) (Pending base) Stopped where
  quiet h hp := h.quiet hp
  overflow _ h := h.elim (fun h => ⟨h.allowed, h.ordered, h.once⟩) fun h => ⟨h.allowed, h.ordered, h.once⟩
  assertFail h := h.elim (fun h => h.toRecorded) fun h => h.toRecorded
  errorFn f hf errcode errmsg w h := by
    obtain ⟨f, -, rfl⟩ := Option.map_eq_some_iff.1 hf
    rw [wp_map]
    exact callback_keeps hrun _ rfl h trivial
  writeFn f hf w p buf h hopen hwriting hp := by
    obtain ⟨f, -, rfl⟩ := Option.map_eq_some_iff.1 hf
    unfold watchedWrite
    simp only [wp_bind, wp_modify]
    have hset : Inv base { w with proto := p, outstanding := w.outstanding + 1 } := by
      refine ⟨h.toCore.setFlags _ ?_ ?_ ?_, ?_⟩ <;> rw [hp]
      · exact Later.refl _
      · exact fun hclosing => absurd (hopen.symm.trans hclosing) Bool.false_ne_true
      · exact fun hclosed => absurd (hopen.symm.trans (h.closed hclosed).1) Bool.false_ne_true
      · rw [h.outstanding, hwriting]
        rfl
    have hallowed : Allowed (.write buf, p.flags) := by
      rw [hp]
      exact hopen
    refine wp_post (callback_keeps hrun (f buf) rfl hset hallowed) fun a w' hw' => ?_
    simp only [wp_ite, wp_modify, wp_pure]
    refine ⟨fun hdone => ⟨fun hr => ?_, fun _ => hw'.complete⟩, fun hdone => ⟨fun _ => hw', fun hr => absurd hr hdone⟩⟩
    exact absurd (hr.symm.trans hdone) Bool.false_ne_true
  idle h hwriting := ⟨h.toCore, h.outstanding.trans (by rw [hwriting]; rfl)⟩
  release h hwriting hclosed hp := by
    refine ⟨h.toCore.setFlags _ ?_ ?_ ?_, ?_⟩ <;> rw [hp]
    · exact Later.refl _
    · exact fun hclosing _ => hclosed hclosing
    · exact fun hc => ⟨(h.closed hc).1, rfl⟩
    · exact h.outstanding
  closes h hor hp := by
    refine ⟨h.toCore.setFlags _ ?_ ?_ ?_, ?_⟩ <;> rw [hp]
    · exact ⟨fun _ => rfl, id⟩
    · exact fun _ hwriting => hor.resolve_left fun hw => Bool.false_ne_true (hwriting.symm.trans hw)
    · exact fun hc => ⟨rfl, (h.closed hc).2⟩
    · exact h.outstanding
  closed {w} hopen h p hp := by
    have hcore : Core base w := h.elim (fun h => h.1.toCore) fun h => h.1.toCore
    have hout : w.outstanding = 0 := by
      rcases h with h | h
      · exact h.1.outstanding
      · rw [h.1.outstanding, h.2]
        rfl
    have hset : Inv base { w with proto := p } := by
      refine ⟨hcore.setFlags _ ?_ ?_ ?_, ?_⟩ <;> rw [hp]
      · exact ⟨fun _ => rfl, fun _ => rfl⟩
      · exact fun _ _ => rfl
      · exact fun _ => ⟨rfl, rfl⟩
      · exact hout
    refine ⟨fun _ => hset, fun f hf reason => ?_⟩
    obtain ⟨f, -, rfl⟩ := Option.map_eq_some_iff.1 hf
    rw [wp_map]
    unfold callback
    simp only [wp_bind, wp_modify, wp_get]
    refine hrun base _ _ ⟨hset.toCore.record ?_ fun _ => ⟨?_, hcore.unclosed hopen⟩, hset.outstanding⟩
    · rw [hp]
      exact ⟨rfl, rfl, rfl⟩
    · rw [hp]

theorem Owner.respects (o : Owner) (base : ProtoFlags) : (o.host run).Respects (Inv base) Stopped Host.Guard.free where
  toCalm := (o.owned hrun base).calm
  nullConf h := h.toRecorded
  finishClose := (o.owned hrun base).finishClose
  done {w p} h _ hp := by
    have hset : Inv base { w with proto := p } := by
      refine ⟨h.toCore.setFlags _ ?_ ?_ ?_, ?_⟩ <;> rw [hp, Proto.setFlags]
      · exact Later.refl _
      · exact h.settled
      · exact h.closed
      · exact h.outstanding
    refine ⟨fun _ => hset, fun f hf status _ => ?_⟩
    obtain ⟨f, -, rfl⟩ := Option.map_eq_some_iff.1 hf
    rw [wp_map]
    exact callback_keeps hrun _ rfl hset trivial
  updateFn f hf status w h := by
    obtain ⟨f, -, rfl⟩ := Option.map_eq_some_iff.1 hf
    rw [wp_map]
    exact callback_keeps hrun _ rfl h trivial
  newSessionFn f hf id w h _ _ := by
    obtain ⟨f, -, rfl⟩ := Option.map_eq_some_iff.1 hf
    rw [wp_map]
    exact wp_post (callback_keeps hrun _ rfl h trivial) fun _ _ hw' => ⟨hw', trivial⟩
  finishCalm := (o.owned hrun base).calm.free
  finishCurrent _ := trivial
  start _ _ := trivial
  resume _ _ := trivial

theorem Owner.resumes (o : Owner) (base : ProtoFlags) :
    (o.host run).Resumes (Inv base) (Inv base) Stopped Host.Guard.free := by
  refine (o.respects hrun base).resumes fun f hf id w h => ?_
  obtain ⟨f, -, rfl⟩ := Option.map_eq_some_iff.1 hf
  rw [wp_map]
  exact callback_keeps hrun _ rfl h trivial

theorem Owner.msgOk (o : Owner) {type : MsgType} {body : CsBody} :
    (o.host run).MsgOk (Inv base) Stopped Host.Guard.free w type body where
  handshake _ _ :=
    { start := fun _ => trivial
      resume := fun _ => trivial
      finish := fun _ => trivial
      reload := fun _ _ _ h _ => { h with }
      absent := fun _ _ h => h.toRecorded }
  absent _ _ h := h.toRecorded
  message f hf out len _ h hopen := by
    obtain ⟨f, -, rfl⟩ := Option.map_eq_some_iff.1 hf
    rw [wp_map]
    exact callback_keeps hrun _ rfl h hopen

theorem Owner.frame (o : Owner) (base : ProtoFlags) (buffer : Bytes) (errcode : ℤ) :
    Keeps (Inv base) Stopped (dispatchData (o.host run) buffer errcode) :=
  fun _ hw => (o.respects hrun base).dispatchData (o.resumes hrun base) hw fun _ _ _ => o.msgOk hrun

/-- **Every call** keeps the invariant. -/
theorem Owner.call (o : Owner) (base : ProtoFlags) (c : Call) : Keeps (Inv base) Stopped (c.run (o.host run)) := by
  refine c.keeps (o.respects hrun base) (o.frame hrun base) fun status w hw => ?_
  simp only [Call.run, wp_bind, wp_modify, wp_pure]
  exact (o.owned hrun base).writes.writeDone _ status hw.complete

end callbacks

/-- callbacks, however deep they nest -/
theorem Owner.nested_keeps (o : Owner) (n : ℕ) (base : ProtoFlags) (script : Script) :
    Keeps (Inv base) Stopped (o.nested n script) := by
  induction n generalizing base script with
  | zero => exact fun w h => h.toRecorded
  | succ n ih => exact script.keeps (o.call ih base)

/-! ## Runs -/

/-- an object that was just made -/
def Watched.start (p : Proto) (current : Option CryptGlobal) : Watched := ⟨p, current, [], 0⟩

theorem inv_start (hp : p.flags = {}) (current : Option CryptGlobal) : Inv p.flags (Watched.start p current) where
  allowed _ h := absurd h List.not_mem_nil
  ordered := List.Pairwise.nil
  once := Nat.zero_le 1
  base := Later.refl _
  upTo _ h := absurd h List.not_mem_nil
  unclosed _ := rfl
  settled h := absurd h (by rw [Watched.start, hp]; exact Bool.false_ne_true)
  closed h := absurd h (by rw [Watched.start, hp]; exact Bool.false_ne_true)
  outstanding := by rw [Watched.start, hp]; rfl

theorem Inv.rebase (h : Inv base w) : Inv w.proto.flags w := { h with base := Later.refl _ }

theorem run_keeps (o : Owner) (depth : ℕ) (base : ProtoFlags) (calls : List Call) :
    Keeps (Inv base) Stopped (o.run depth calls) :=
  keeps_forM (fun c => o.call (o.nested_keeps depth) base c) calls

/-- **Closing is final and reported once.** In every run, however it ends: `close_fn` is called at most once, and then the
object is closing and closed and not writing; `write_fn` and `message_fn` are called only while it is not closing; from each
callback to the next neither flag is taken back. When the calls return, the flags of every callback still hold, further calls
do not take them back, and an object that is closing without an outstanding write is closed. -/
theorem closing_final (o : Owner) (depth : ℕ) (p : Proto) (hp : p.flags = {}) (current : Option CryptGlobal)
    (calls : List Call) (r : Except Fault Unit) (w : Watched)
    (hrun : exec (o.run depth calls) (Watched.start p current) = (r, w)) :
    w.closes ≤ 1 ∧ (∀ a ∈ w.calls, Allowed a) ∧ (w.calls.Pairwise fun a b => Later a.2 b.2) ∧
      (r = .ok () →
        (∀ a ∈ w.calls, Later a.2 w.proto.flags) ∧
        (∀ more w', exec (o.run depth more) w = (.ok (), w') → Later w.proto.flags w'.proto.flags) ∧
        (w.proto.flags.closing = true → w.outstanding = 0 → w.proto.flags.closed = true)) := by
  have hkeep := run_keeps o depth p.flags calls _ (inv_start hp current)
  cases r with
  | error fault =>
    have hstop := wp_error hkeep hrun
    exact ⟨hstop.once, hstop.allowed, hstop.ordered, fun h => nomatch h⟩
  | ok u =>
    have hinv := wp_ok hkeep hrun
    refine ⟨hinv.once, hinv.allowed, hinv.ordered, fun _ => ⟨hinv.upTo, fun more w' hmore => ?_, fun hclosing hout => ?_⟩⟩
    · exact (wp_ok (run_keeps o depth _ more w hinv.rebase) hmore).base
    · refine hinv.settled hclosing (Bool.not_eq_true _ ▸ fun hwriting => ?_)
      rw [hinv.outstanding, if_pos hwriting] at hout
      exact Nat.one_ne_zero hout

/-- an owner whose `write_fn` closes the object and then says that the write is done -/
def closingOwner : Owner where
  ext := { Ext.idle with build := fun _ => [1] }
  stack := 8
  now := 0
  writeFn := some fun _ _ => .call (.close 5 true) fun _ => .answer ⟨0, true, 0⟩
  messageFn := none
  newSessionFn := none
  reconnectFn := none
  closeFn := some fun _ _ => .call (.close 6 true) fun _ => .answer ⟨0, false, 0⟩
  onHandshakeDoneFn := none
  onHandshakeUpdateFn := none
  onErrorFn := none

/-- closing inside the write of the kickoff message of another close -/
theorem closing_final_nested :
    let w := (exec (closingOwner.run 2 [.close 1 true]) (.start (Proto.fresh 0 4096 2 4096 8 0) none)).2
    w.calls.length = 2 ∧ w.closes ≤ 1 ∧ w.proto.flags.closed = true := by
  have hfinal := closing_final closingOwner 2 (Proto.fresh 0 4096 2 4096 8 0) rfl none [.close 1 true] _ _ rfl
  refine ⟨by decide +kernel, hfinal.1, (hfinal.2.2.2 ?_).2.2 (by decide +kernel) (by decide +kernel)⟩
  rfl

end AtFrame.Closing
