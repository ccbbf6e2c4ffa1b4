/-
Runs of one protocol object: what its owner and its peer do to it, in any order.

The frames are the peer's; the rest is what an owner does between them. An invariant that does not look inside the object
(`Indifferent`) is kept by every event, as soon as the owner's callbacks keep it and the frames do what it asks of them.

- `Indifferent.respects`: such an invariant falls under the rules for the object;
- `Indifferent.event`: one event keeps it.
-/
import AtFrame.Inner.DispatchRules
import AtFrame.Inner.Solo

namespace AtFrame

open AtFrame.Lib

/-- one entry into the object -/
inductive Event where
  /-- `dispatch_data` -/
  | frame (buffer : Bytes) (errcode : ℤ)
  | writeDone (status : ℤ)
  /-- `write` of `proto_base` -/
  | write (buffer : Bytes)
  | ping
  /-- `handshake_update` -/
  | update
  | close (reason : ℤ) (isSendKickoff : Bool)

namespace Host

variable {W : Type}

def event (H : Host W) : Event → Prog Fault W Unit
  | .frame buffer errcode => dispatchData H buffer errcode
  | .writeDone status => do
    let _ ← writeDone H H.stack status
    return ()
  | .write buffer => do
    let _ ← write H buffer
    return ()
  | .ping => do
    let _ ← sendPing H
    return ()
  | .update => do
    let _ ← sendKeySyn H
    return ()
  | .close reason isSendKickoff => do
    let _ ← close H reason isSendKickoff
    return ()

def run (H : Host W) (events : List Event) : Prog Fault W Unit := events.forM H.event

variable {H : Host W} {I : W → Prop} {E : Fault → W → Prop}

/-- the callbacks that are set, other than `message_fn`, keep an invariant of the owner's world -/
structure OwnerKeeps (H : Host W) (I : W → Prop) (E : Fault → W → Prop) : Prop where
  writeFn : ∀ f ∈ H.writeFn, ∀ buf, Keeps I E (f buf)
  newSessionFn : ∀ f ∈ H.newSessionFn, ∀ id, Keeps I E (f id)
  reconnectFn : ∀ f ∈ H.reconnectFn, ∀ id, Keeps I E (f id)
  closeFn : ∀ f ∈ H.closeFn, ∀ reason, Keeps I E (f reason)
  doneFn : ∀ f ∈ H.onHandshakeDoneFn, ∀ status, Keeps I E (f status)
  updateFn : ∀ f ∈ H.onHandshakeUpdateFn, ∀ status, Keeps I E (f status)
  errorFn : ∀ f ∈ H.onErrorFn, ∀ errcode errmsg, Keeps I E (f errcode errmsg)

/-- all callbacks that are set keep it -/
structure CallbacksKeep (H : Host W) (I : W → Prop) (E : Fault → W → Prop) : Prop extends H.OwnerKeeps I E where
  messageFn : ∀ f ∈ H.messageFn, ∀ out len, Keeps I E (f out len)

/-- an invariant of the owner's world that does not look inside the object -/
structure Indifferent (H : Host W) (I : W → Prop) (E : Fault → W → Prop) : Prop extends H.OwnerKeeps I E where
  setProto : ∀ {w} p, I w → I (H.setProto p w)
  overflow : ∀ {w}, I w → E .stackOverflow w
  assertFail : ∀ {w}, I w → E .assertFail w
  nullConf : ∀ {w}, I w → E .nullConf w

/-- nothing is required of a message -/
def Guard.free : Guard W := ⟨fun _ => True, fun _ => True, fun _ => True⟩

theorem Calm.free (h : H.Calm I E) : H.Calm (fun w => I w ∧ Guard.free.finish w) E := by
  have hI : (fun w => I w ∧ Guard.free.finish w) = I := funext fun _ => propext (and_iff_left trivial)
  rw [hI]
  exact h

theorem Respects.resumes (h : H.Respects I E Guard.free) (hfn : ∀ f ∈ H.reconnectFn, ∀ id, Keeps I E (f id)) :
    H.Resumes I I E Guard.free where
  reconnectFn f hf id w hw _ _ := wp_post (hfn f hf id w hw) fun _ _ hw' => ⟨fun _ => hw', fun _ => hw'⟩
  calm := h.toCalm
  ends status hw := wp_post (h.closeHandshake hw status fun _ _ => trivial) fun _ _ hw' => h.sendKeySyn hw' fun _ _ => trivial

theorem Indifferent.owned (h : H.Indifferent I E) : H.Owned I I E where
  quiet hw _ := h.setProto _ hw
  overflow p hw := h.overflow (h.setProto p (hw.elim id id))
  assertFail hw := h.assertFail (hw.elim id id)
  errorFn := h.errorFn
  writeFn f hf _ _ buf hw _ _ _ := wp_post (h.writeFn f hf buf _ (h.setProto _ hw)) fun _ _ hw' => ⟨fun _ => hw', fun _ => hw'⟩
  idle hw _ := hw
  release hw _ _ _ := h.setProto _ hw
  closes hw _ _ := h.setProto _ hw
  closed _ hw p _ := by
    have hw := hw.elim And.left And.left
    exact ⟨fun _ => h.setProto _ hw, fun f hf reason => h.closeFn f hf reason _ (h.setProto _ hw)⟩

theorem Indifferent.calm (h : H.Indifferent I E) : H.Calm I E := h.owned.calm

theorem Indifferent.respects (h : H.Indifferent I E) : H.Respects I E Guard.free where
  toCalm := h.calm
  nullConf := h.nullConf
  finishClose := h.owned.finishClose
  done hw _ _ := ⟨fun _ => h.setProto _ hw, fun f hf status _ => h.doneFn f hf status _ (h.setProto _ hw)⟩
  updateFn := h.updateFn
  newSessionFn f hf id w hw _ _ := wp_post (h.newSessionFn f hf id w hw) fun _ _ hw' => ⟨hw', trivial⟩
  finishCalm := h.calm.free
  finishCurrent _ := trivial
  start _ _ := trivial
  resume _ _ := trivial

theorem Indifferent.resumes (h : H.Indifferent I E) : H.Resumes I I E Guard.free := h.respects.resumes h.reconnectFn

theorem Indifferent.msg (h : H.Indifferent I E) {w : W} (hw : I w) (hopen : (H.proto w).flags.closing = false)
    {type : MsgType} {body : CsBody} (ok : H.MsgOk I E Guard.free w type body) :
    wp (dispatchMsg H type body) (fun _ => I) E w := h.respects.dispatchMsg h.resumes hw hopen ok

theorem Indifferent.frame (h : H.Indifferent I E) {w : W} (hw : I w) {buffer : Bytes} {errcode : ℤ}
    (ok : ∀ type body, H.Dispatched w buffer errcode type body → H.MsgOk I E Guard.free w type body) :
    wp (dispatchData H buffer errcode) (fun _ => I) E w :=
  h.respects.dispatchData h.resumes hw ok

theorem Calm.sendPing (h : H.Calm I E) : Keeps I E (AtFrame.sendPing H) := by
  intro w hw
  unfold AtFrame.sendPing
  simp only [wp_bind, wp_get, Lib.wp_get, wp_ite, wp_pure, wp_modify]
  exact ⟨fun _ => hw, fun _ => ⟨fun _ => hw, fun _ => h.writeMsg _ _ (h.quiet hw (.of_eq rfl))⟩⟩

/-- **One event** keeps the invariant, if a frame does what it asks. -/
theorem Indifferent.event (h : H.Indifferent I E) {w : W} (hw : I w) {ev : Event}
    (ok : ∀ buffer errcode type body, ev = .frame buffer errcode → H.Dispatched w buffer errcode type body →
      H.MsgOk I E Guard.free w type body) : wp (H.event ev) (fun _ => I) E w := by
  cases ev with
  | frame buffer errcode => exact h.frame hw fun type body => ok buffer errcode type body rfl
  | writeDone status => exact (wp_bind _ _).2 (h.owned.writes.writeDone _ status hw)
  | write buffer => exact (wp_bind _ _).2 (h.calm.sendPost _ buffer w hw)
  | ping => exact (wp_bind _ _).2 (h.calm.sendPing w hw)
  | update => exact (wp_bind _ _).2 (h.respects.sendKeySyn hw fun _ _ => trivial)
  | close reason kick => exact (wp_bind _ _).2 (h.respects.close reason kick w hw)

end Host

/-- the callbacks of an object alone keep what does not look at its records -/
theorem Solo.ownerKeeps {e : SoloEnv} {I : Solo → Prop} {E : Fault → Solo → Prop}
    (hI : ∀ w writes outstanding, I w → I { w with writes := writes, outstanding := outstanding }) :
    (Solo.host e).OwnerKeeps I E where
  writeFn f hf buf w hw := by
    cases hf
    exact hI w _ _ hw
  newSessionFn f hf id w hw := by cases hf; exact hw
  reconnectFn f hf id w hw := by cases hf; exact hw
  closeFn f hf reason w hw := by cases hf; exact hw
  doneFn f hf status w hw := by cases hf; exact hw
  updateFn f hf status w hw := by cases hf; exact hw
  errorFn f hf := absurd hf (Option.not_mem_none f)

theorem Solo.callbacksKeep {e : SoloEnv} {I : Solo → Prop} {E : Fault → Solo → Prop}
    (hI : ∀ w writes outstanding messages, I w →
      I { w with writes := writes, outstanding := outstanding, messages := messages }) :
    (Solo.host e).CallbacksKeep I E where
  toOwnerKeeps := Solo.ownerKeeps fun w writes outstanding => hI w writes outstanding w.messages
  messageFn f hf out len w hw := by
    cases hf
    exact hI w w.writes w.outstanding _ hw

end AtFrame
