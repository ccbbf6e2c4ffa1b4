/-
Absent fields. The verifier accepts a message whose tables, strings and vectors are missing; which of these messages does
the dispatcher read through?

Exactly two kinds: a message whose body table is missing (or, for a POST, its data) when the arm of `dispatch_data` that
reads it is reached, and a DH or ECDH public key request without `crypt_param` that meets a DH handshake which is set up.
Every other optional field is guarded, in every handler and whatever the state of the object.

- `dispatchData_absent`: a message of these kinds does read through an absent field;
- `run_absentField_iff`: over a run, no absent field is read exactly as long as no such message is dispatched.

Nothing is assumed of the peer or of the libraries, and the run starts in any state; the owner's callbacks have no such fault of
their own. Witness `run_absentField_iff_pong`. `absentBody_reads_absentField` is a handshake message without its body: the
dispatcher hands it on through a null pointer.
-/
import AtFrame.Inner.Runs

namespace AtFrame

open AtFrame.Lib

namespace Host

variable {W : Type} {H : Host W} {w : W}

/-- a message of the two kinds -/
def ReadsThrough (H : Host W) (w : W) (type : MsgType) (body : CsBody) : Prop :=
  AbsentBody (H.proto w) type body ∨
    ∃ b, ReachesHandshake (H.proto w) type body b ∧ ReadsAbsent ((H.proto w).arm type) b

/-- the event is no frame with a message of these kinds -/
def ReadsPresent (H : Host W) (ev : Event) (w : W) : Prop :=
  ∀ buffer errcode type body, ev = .frame buffer errcode → H.Dispatched w buffer errcode type body →
    ¬ H.ReadsThrough w type body

/-! ## The two kinds -/

/-- the fault is a read through an absent field -/
def AtAbsent (fault : Fault) (_ : W) : Prop := fault = .absentField

theorem dhPubkeyReq_absent {body : HandshakeBody} (step : HandshakeStep) (h : ReadsAbsent (H.proto w) body) :
    wp (dispatchHandshakeDhPubkeyReq H body step) (fun _ _ => False) AtAbsent w := by
  obtain ⟨-, hsw, hconf, hdata, hparam⟩ := h
  obtain ⟨g, hg⟩ := Option.isSome_iff_exists.1 hconf
  have hdata' : ∀ c, ((H.proto w).setHs c).handshake.hasData = true := fun _ => hdata
  unfold dispatchHandshakeDhPubkeyReq readDhPubkey
  simp only [wp_bind, wp_get, hsw, if_true, hg, wp_modify, proto_setProto, wp_ite, hdata', hparam, wp_throw]
  exact ⟨fun hc => absurd trivial hc, fun _ => rfl⟩

theorem dispatchHandshake_absent {body : HandshakeBody} (hopen : (H.proto w).flags.closing = false)
    (hrun : ¬ ((H.proto w).flags.handshakeDone = true ∧ (H.proto w).flags.handshakeUpdate = false))
    (h : ReadsAbsent (H.proto w) body) : wp (dispatchHandshake H body) (fun _ _ => False) AtAbsent w := by
  have hstep : wp (dispatchHandshakeStep H body) (fun _ _ => False) AtAbsent w := by
    unfold dispatchHandshakeStep
    rcases h.1 with hs | hs <;> rw [hs] <;> exact dhPubkeyReq_absent _ h
  unfold dispatchHandshake
  simp only [wp_bind, wp_get, wp_ite, hopen, Bool.not_eq_true]
  exact ⟨fun hc => absurd hc Bool.false_ne_true, fun _ => ⟨fun hc => absurd hc hrun,
    fun _ => wp_post hstep fun _ _ hc => absurd hc id⟩⟩

theorem dispatchPost_absent {b : Option PostBody} (hdone : (H.proto w).flags.handshakeDone = true)
    (hread : (H.proto w).cryptRead.isSome) (h : b = none ∨ ∃ post ∈ b, post.data = none) :
    wp (dispatchPost H b) (fun _ _ => False) AtAbsent w := by
  have hread : (H.proto w).cryptRead.isNone = false := Option.isNone_eq_false_iff.2 hread
  unfold dispatchPost
  simp only [wp_bind, wp_get, wp_ite, hdone, hread]
  refine ⟨fun hc => absurd hc (by decide), fun _ => ?_⟩
  rcases h with rfl | ⟨post, rfl, hdata⟩
  · rfl
  · simp only [hdata]
    rfl

/-- **The two kinds of messages read through an absent field.** -/
theorem dispatchMsg_absent {type : MsgType} {body : CsBody} (hopen : (H.proto w).flags.closing = false)
    (h : H.ReadsThrough w type body) : wp (dispatchMsg H type body) (fun _ _ => False) AtAbsent w := by
  rcases h with h | ⟨b, ⟨htype, rfl, hrun⟩, hread⟩
  · unfold AbsentBody at h
    unfold dispatchMsg
    split at h
    · exact dispatchPost_absent h.1 h.2.1 h.2.2
    all_goals first
      | exact absurd h id
      | rfl
  · have hstage := steady_arm (H.proto w) type
    have hdispatch : wp (dispatchHandshake H b >>= fun _ => pure ()) (fun _ _ => False) AtAbsent
        (H.setProto ((H.proto w).arm type) w) := by
      refine (wp_bind _ _).2 (wp_post (dispatchHandshake_absent ?_ ?_ ?_) fun _ _ hc => absurd hc id)
      · rw [proto_setProto, hstage.closing, hopen]
      · rwa [proto_setProto]
      · rwa [proto_setProto]
    rcases htype with rfl | rfl | rfl
    · rwa [Proto.arm, if_neg (by decide), setProto_proto] at hdispatch
    · exact (wp_bind _ _).2 hdispatch
    · exact (wp_bind _ _).2 hdispatch

theorem dispatchData_absent {buffer : Bytes} {errcode : ℤ} {type : MsgType} {body : CsBody}
    (hmsg : H.Dispatched w buffer errcode type body) (h : H.ReadsThrough w type body) :
    wp (dispatchData H buffer errcode) (fun _ _ => False) AtAbsent w := by
  obtain ⟨hopen, herr, hverify⟩ := hmsg
  unfold dispatchData
  simp only [wp_bind, wp_get, wp_ite, hopen, hverify]
  exact ⟨fun hc => absurd hc Bool.false_ne_true, fun _ => ⟨fun hc => absurd herr hc.not_ge,
    fun _ => dispatchMsg_absent hopen h⟩⟩

/-! ## Runs -/

/-- the fault is none of these reads -/
def NotAbsent (fault : Fault) (_ : W) : Prop := fault ≠ .absentField

theorem indifferent_notAbsent (hH : H.CallbacksKeep (fun _ => True) NotAbsent) :
    H.Indifferent (fun _ => True) NotAbsent where
  toOwnerKeeps := hH.toOwnerKeeps
  setProto _ _ := trivial
  overflow _ h := nomatch h
  assertFail _ h := nomatch h
  nullConf _ h := nomatch h

theorem msgOk_present (hH : H.CallbacksKeep (fun _ => True) NotAbsent) {type : MsgType} {body : CsBody} (h : ¬ H.ReadsThrough w type body) :
    H.MsgOk (fun _ => True) NotAbsent Guard.free w type body where
  handshake b hb :=
    { start := fun _ => trivial
      resume := fun _ => trivial
      finish := fun _ => trivial
      reload := fun _ _ _ _ _ => trivial
      absent := fun hread => absurd (.inr ⟨b, hb, by rwa [proto_setProto] at hread⟩) h }
  absent habs := absurd (.inl habs) h
  message f hf out len _ hw _ := hH.messageFn f hf out len w hw

/-- **Absent fields, over every run.** Whatever the owner's callbacks do without such a fault of their own, from every state
of the object and for every list of frames and entries of the owner: no absent field is read if and only if no frame is
dispatched whose message is of the two kinds in the state before it. -/
theorem run_absentField_iff (H : Host W) (hH : H.CallbacksKeep (fun _ => True) NotAbsent) (events : List Event) (w : W) :
    (exec (H.run events) w).1 ≠ .error .absentField ↔ EachMeets H.event H.ReadsPresent events w := by
  have hstep : ∀ ev w, True → H.ReadsPresent ev w → wp (H.event ev) (fun _ _ => True) NotAbsent w :=
    fun ev w _ hev => (indifferent_notAbsent hH).event trivial fun buffer errcode type body hframe hmsg =>
      msgOk_present hH (hev buffer errcode type body hframe hmsg)
  refine ⟨fun hrun => ?_, fun hmeets => ?_⟩
  · by_contra hnot
    have hbreak : wp (H.run events) (fun _ _ => False) AtAbsent w := by
      refine wp_forM_of_not (I := fun _ => True) (fun ev w _ _ => wp_trivial _ w) ?_ (fun _ _ hs => absurd hs id) trivial hnot
      intro ev w _ hev
      unfold ReadsPresent at hev
      push Not at hev
      obtain ⟨buffer, errcode, type, body, rfl, hmsg, hread⟩ := hev
      exact dispatchData_absent hmsg hread
    unfold wp at hbreak
    rcases hexec : exec (H.run events) w with ⟨fault | _, w'⟩ <;> rw [hexec] at hbreak hrun
    · exact hrun (congrArg Except.error hbreak)
    · exact hbreak
  · have hkeep := wp_forM hstep trivial hmeets
    intro hfault
    exact wp_error hkeep (Prod.ext hfault rfl) rfl

end Host

theorem run_absentField_iff_pong :
    (exec ((Solo.host (oneMessageEnv ⟨some .EN_MTT_PONG, .ping none⟩)).run [.frame [0] 0]) (Solo.accepted none)).1 ≠
      .error .absentField := by
  refine (Host.run_absentField_iff _ (Solo.callbacksKeep fun _ _ _ _ _ => trivial) _ _).2 ⟨?_, wp_trivial _ _⟩
  rintro buffer errcode type body ⟨⟩ ⟨-, -, hmsg⟩
  cases hmsg
  rintro (h | ⟨b, ⟨-, hb, -⟩, -⟩)
  · exact h
  · cases hb

/-- a handshake message without its body -/
theorem absentBody_reads_absentField :
    (exec ((Solo.host (oneMessageEnv ⟨some .EN_MTT_HANDSHAKE, .handshake none⟩)).run [.frame [0] 0]) (Solo.accepted none)).1 =
      .error .absentField := rfl

end AtFrame
