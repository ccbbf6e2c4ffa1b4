/-
Which traffic limits close a session.

The three checks behind each call make their tests in a fixed order (`checked`); the first one that finds its limit
exceeded closes the session. The tests of the hour are crossed, and one of the total compares with the wrong limit, so
what closes a session is not always a limit of its own (`ownExceeded`). A close clears `owner_`, which the next test
of the same check then reads through. It also sends a remove notice, which is counted and checked as well.

- `checkLimits_wp`: what the three checks do, by the first test that closes;
- `sessionClose_comes`, `sessionClose_lost`: when the close comes back;
- `writable_idle`: whatever the writes of an idle object lead to, its queue does not fault;
- `cut_exactly`: a call closes the session exactly if a limit of its own is exceeded, under the condition `CutsRight`
  and no other;
- `hour_send_bytes_stays`: the limit for the bytes of an hour is exceeded, and the session stays open.

Premises: the windows of the session cover the clock (`Limit.Covers`), the object is one whose writes stay inside it (`Writable`:
a write is under way, or the object is idle), and the stack lets a close call back. Witness `cut_exactly_minute`, on an object
with a write under way and on an idle one.
-/
import AtFrame.Gateway.Idle

namespace AtFrame.Gateway

open AtFrame.Lib

/-! ## Sessions whose writes come back -/

/-- `X` rules out that the write queue of the session's object faults, whatever is written while the object is open -/
structure Writable (e : GwEnv) (s : ℕ) (X : Proto → Prop) : Prop where
  steady : ∀ {p q : Proto}, X p → q.Steady p → X q
  writeBytes : ∀ (rec : Reentry) {w : World} (buf : Bytes), X (w.sess s).proto → (w.sess s).proto.flags.closing = false →
    wp (writeBytes (gwHost e rec s) buf) (fun _ w' => X (w'.sess s).proto) (fun _ _ => False) w

/-- the session is open, nothing closes its socket, and its object is in `X` unless it is closing -/
structure World.Live (X : Proto → Prop) (s : ℕ) (w : World) : Prop extends w.Serves s where
  socket : (w.sess s).flags.closingFd = false
  object : (w.sess s).proto.flags.closing = false → X (w.sess s).proto

/-- the object, the outstanding write and the time of the next key are replaced -/
def Session.passed (p : Proto) (b : Bool) (u : ℤ) (x : Session) : Session :=
  { x.written p b with limit := { x.limit with updateHandshakeTimepoint := u } }

/-- nothing was closed: bytes were written at most -/
structure Passed (X : Proto → Prop) (s : ℕ) (w w' : World) : Prop where
  conf : w'.conf = w.conf
  now : w'.now = w.now
  sess : ∃ p b u, w'.sess s = (w.sess s).passed p b u ∧ p.flags.closing = (w.sess s).proto.flags.closing ∧
    p.flags.handshakeDone = (w.sess s).proto.flags.handshakeDone ∧ (p.flags.closing = false → X p)

variable {e : GwEnv} {rec : Reentry} {s : ℕ} {w w' w₀ : World} {X : Proto → Prop}

theorem Passed.refl (h : w.Live X s) : Passed X s w w :=
  ⟨rfl, rfl, (w.sess s).proto, (w.sess s).flags.writingFd, (w.sess s).limit.updateHandshakeTimepoint, rfl, rfl, rfl, h.object⟩

theorem Passed.trans {w₁ w₂ : World} (h : Passed X s w w₁) (h' : Passed X s w₁ w₂) : Passed X s w w₂ := by
  obtain ⟨p, b, u, hsess, hc, hd, hX⟩ := h.sess
  obtain ⟨p', b', u', hsess', hc', hd', hX'⟩ := h'.sess
  rw [hsess] at hsess' hc' hd'
  exact ⟨h'.conf.trans h.conf, h'.now.trans h.now, p', b', u', hsess', hc'.trans hc, hd'.trans hd, hX'⟩

theorem Passed.recorded (h : Passed X s w₀ w) (step : Step) : Passed X s w₀ (w.recorded step) := ⟨h.conf, h.now, h.sess⟩

theorem Passed.live (h : Passed X s w w') (hlive : w.Live X s) : w'.Live X s := by
  obtain ⟨p, b, u, hsess, hc, hd, hX⟩ := h.sess
  constructor
  · constructor <;> rw [hsess]
    exacts [hlive.live, hlive.fd, hlive.owner, hlive.router, hd.trans hlive.done]
  all_goals rw [hsess]
  exacts [hlive.socket, hX]

theorem Passed.wrote (hw : Wrote s w w') (hX : (w'.sess s).proto.flags.closing = false → X (w'.sess s).proto) :
    Passed X s w w' := by
  obtain ⟨p, b, n, rfl, hc, hd⟩ := hw
  rw [World.written_sess] at hX
  exact ⟨rfl, rfl, p, b, (w.sess s).limit.updateHandshakeTimepoint, World.written_sess .., hc, hd, hX⟩

/-- an open object in `X` writes without faults -/
theorem Writable.calm (hX : Writable e s X) (rec : Reentry) (w₀ : World) : (gwHost e rec s).Calm
    (fun w => (Wrote s w₀ w ∧ (w.sess s).proto.flags.closing = false) ∧ X (w.sess s).proto) (fun _ _ => False) where
  quiet h hp := by
    refine ⟨(gwHost_writes_wrote e rec s w₀).calm.quiet h.1 hp, ?_⟩
    rw [World.setSess_sess]
    exact hX.steady h.2 hp
  errorFn f hf errcode errmsg w h := by
    cases hf
    exact h
  writeBytes buf w h := by
    have hboth := wp_and ((gwHost_writes_wrote e rec s w₀).calm.writeBytes buf w h.1) (hX.writeBytes rec buf h.2 h.1.2)
    exact wp_mono hboth (fun _ _ h => h) fun _ _ h => h.2

theorem write_passed (hX : Writable e s X) (h : w.Live X s) (content : Bytes) :
    wp (write (gwHost e rec s) content) (fun _ => Passed X s w) (fun _ _ => False) w := by
  cases hclosing : (w.sess s).proto.flags.closing with
  | true =>
    unfold write sendPost
    simp only [wp_bind, Host.wp_get, wp_ite, wp_pure]
    exact ⟨fun _ => .refl h, fun hopen => absurd hclosing hopen⟩
  | false =>
    refine wp_post ((hX.calm rec w).sendPost _ _ w ⟨⟨.refl w, hclosing⟩, h.object hclosing⟩) fun _ w' h' => ?_
    exact .wrote h'.1.1 fun _ => h'.2

theorem sendKeySyn_passed (hX : Writable e s X) (h : w.Live X s) :
    wp (sendKeySyn (gwHost e rec s)) (fun _ => Passed X s w) (fun _ _ => False) w := by
  cases hclosing : (w.sess s).proto.flags.closing with
  | true =>
    unfold sendKeySyn
    simp only [wp_bind, Host.wp_get, wp_ite, wp_pure]
    exact ⟨fun _ => .refl h, fun hopen => absurd hclosing hopen⟩
  | false =>
    have hcalm := hX.calm rec w
    have hends : (gwHost e rec s).Ends
        (fun w' => (Wrote s w w' ∧ (w'.sess s).proto.flags.closing = false) ∧ X (w'.sess s).proto) (fun _ _ => False)
        Host.Guard.free :=
      { hcalm with
        done := fun {w' p} h' hopen => by
          obtain ⟨⟨⟨q, b, n, rfl, -, hd⟩, -⟩, -⟩ := h'
          simp only [World.written_sess] at hopen
          exact absurd ((hd.trans h.done).symm.trans hopen) (by decide)
        updateFn := fun f hf status w' h => by
          cases hf
          exact h
        finishCalm := hcalm.free }
    refine wp_post (hends.sendKeySyn ⟨⟨.refl w, hclosing⟩, h.object hclosing⟩ fun _ _ => trivial) fun _ w' h' => ?_
    exact .wrote h'.1.1 fun _ => h'.2

/-! ## The order of the tests -/

/-- what the three checks come to: nothing, a close, or a close with another test behind it in the same check -/
inductive Outcome where
  | pass
  | cut
  | lost
deriving DecidableEq, Repr

/-- the tests behind a message to the client (`send`) or to the server, in their order -/
def checked (send : Bool) (c : GwConf) (l : Limit) : Outcome :=
  if hourExceeded send false c l then .lost
  else if hourExceeded send true c l then .cut
  else if minuteExceeded (!send) send c l then .cut
  else if totalExceeded send false c l then .lost
  else if totalExceeded send true c l then .cut
  else .pass

section tests

variable {send : Bool} {E : Fault → World → Prop} {Q : World → Prop}

/-- `Q` speaks neither of the history nor of the limits of the session -/
def Stable (s : ℕ) (Q : World → Prop) : Prop :=
  (∀ w step, Q w → Q (w.recorded step)) ∧ ∀ w l, Q w → Q (w.modSess s fun x => x.setLimit l)

theorem stable_sess {P : Session → Prop} (hP : ∀ x l, P x → P (x.setLimit l)) : Stable s fun w => P (w.sess s) := by
  refine ⟨fun _ _ h => h, fun w l h => ?_⟩
  simp only [World.modSess_sess]
  exact hP _ l h

theorem stable_false : Stable s fun _ => False := ⟨fun _ _ => id, fun _ _ => id⟩

/-- a limit that is exceeded -/
theorem limitCheck_trip {exceeded : GwConf → Limit → Bool} (howner : (w.sess s).owner = true)
    (hexc : exceeded w.conf (w.sess s).limit = true)
    (hclose : wp (rec.close s EN_CRT_TRAFIC_EXTENDED) (fun _ => Q) E w) :
    wp (limitCheck rec s true exceeded) (fun _ => Q) E w := by
  unfold limitCheck
  simp only [wp_ite, wp_bind, wp_getSess, wp_get, wp_pure, wp_throw, howner, hexc]
  refine ⟨fun _ => ⟨fun _ => ⟨fun _ => hclose, fun h => ?_⟩, fun h => ?_⟩, fun h => ?_⟩ <;> exact absurd trivial h

/-- a test without an owner -/
theorem limitCheck_null {exceeded : GwConf → Limit → Bool} (hlost : (w.sess s).owner = false) (hE : E .nullOwner w) :
    wp (limitCheck rec s true exceeded) (fun _ => Q) E w := by
  unfold limitCheck
  simp only [wp_ite, wp_bind, wp_getSess, wp_get, wp_pure, wp_throw, hlost]
  exact ⟨fun _ => ⟨fun h => absurd h Bool.false_ne_true, fun _ => hE⟩, fun h => absurd trivial h⟩

/-- the two tests that one of the flags leads to -/
theorem limitCheck_pair {F : Bool → Bool → GwConf → Limit → Bool} (howner : (w.sess s).owner = true)
    (hpass : F send false w.conf (w.sess s).limit = false → F send true w.conf (w.sess s).limit = false → Q w)
    (hcut : F send false w.conf (w.sess s).limit = false → F send true w.conf (w.sess s).limit = true →
      wp (rec.close s EN_CRT_TRAFIC_EXTENDED) (fun _ => Q) E w)
    (hlost : F send false w.conf (w.sess s).limit = true → wp (rec.close s EN_CRT_TRAFIC_EXTENDED)
      (fun _ w' => (w'.sess s).owner = false ∧ E .nullOwner w') E w) :
    wp (do
      limitCheck rec s (!send) (F false false)
      limitCheck rec s (!send) (F false true)
      limitCheck rec s send (F true false)
      limitCheck rec s send (F true true)) (fun _ => Q) E w := by
  have hboth : wp (limitCheck rec s true (F send false))
      (fun _ => wp (limitCheck rec s true (F send true)) (fun _ => Q) E) E w := by
    cases hfirst : F send false w.conf (w.sess s).limit with
    | true => exact limitCheck_trip howner hfirst (wp_post (hlost hfirst) fun _ _ h => limitCheck_null h.1 h.2)
    | false =>
      refine limitCheck_pass howner hfirst ?_
      cases hsecond : F send true w.conf (w.sess s).limit with
      | true => exact limitCheck_trip howner hsecond (hcut hfirst hsecond)
      | false => exact limitCheck_pass howner hsecond (hpass hfirst hsecond)
  simp only [wp_bind]
  cases send with
  | true => exact hboth
  | false => exact hboth

/-- what is to be shown of the two tests `F` in `w`, for all worlds in which they may be made -/
structure Tests (rec : Reentry) (X : Proto → Prop) (s : ℕ) (E : Fault → World → Prop) (Q : World → Prop) (send : Bool)
    (F : Bool → Bool → GwConf → Limit → Bool) (w : World) : Prop where
  pass : F send false w.conf (w.sess s).limit = false → F send true w.conf (w.sess s).limit = false →
    ∀ w', Passed X s w w' → Q w'
  cut : F send false w.conf (w.sess s).limit = false → F send true w.conf (w.sess s).limit = true →
    ∀ w', Passed X s w w' → wp (rec.close s EN_CRT_TRAFIC_EXTENDED) (fun _ => Q) E w'
  lost : F send false w.conf (w.sess s).limit = true → ∀ w', Passed X s w w' →
    wp (rec.close s EN_CRT_TRAFIC_EXTENDED) (fun _ w'' => (w''.sess s).owner = false ∧ E .nullOwner w'') E w'

/-- the checks of a session without an owner -/
theorem checkMinuteLimit_orphan {checkRecv checkSend : Bool} (hQ : Stable s Q) (hlost : (w.sess s).owner = false) (hw : Q w) :
    wp (checkMinuteLimit e rec s checkRecv checkSend) (fun _ w' => (w'.sess s).owner = false ∧ Q w') E w := by
  have hrec := hQ.1 w (.check s .minute checkRecv checkSend) hw
  unfold checkMinuteLimit
  rw [wp_bind, wp_record]
  simp only [wp_bind, wp_get, wp_getSess, wp_ite, wp_modifySess, wp_pure]
  refine ⟨fun _ => ⟨?_, hQ.2 _ _ hrec⟩, fun _ => ⟨fun _ => ⟨hlost, hrec⟩, fun howner => absurd (not_not.1 howner) ?_⟩⟩
  · rw [World.setSess_sess]
    exact hlost
  · exact Bool.eq_false_iff.1 hlost

theorem checkTotalLimit_orphan {checkRecv checkSend : Bool} (hQ : Stable s Q) (hlost : (w.sess s).owner = false) (hw : Q w) :
    wp (checkTotalLimit rec s checkRecv checkSend) (fun _ => Q) E w := by
  have hrec := hQ.1 w (.check s .total checkRecv checkSend) hw
  unfold checkTotalLimit
  rw [wp_bind, wp_record]
  simp only [wp_bind, wp_getSess, wp_ite, wp_pure]
  exact ⟨fun _ => hrec, fun howner => absurd (not_not.1 howner) (Bool.eq_false_iff.1 hlost)⟩

variable (hX : Writable e s X) (h : w.Live X s) (hwin : (w.sess s).limit.Covers w.now)
include h hwin

theorem checkHourLimit_wp (ht : Tests rec X s E Q send hourExceeded w) :
    wp (checkHourLimit rec s (!send) send) (fun _ => Q) E w := by
  have hrec : Passed X s w (w.recorded (.check s .hour (!send) send)) := (Passed.refl h).recorded _
  unfold checkHourLimit
  rw [wp_bind, wp_record, wp_bind, wp_get, wp_bind, wp_getSess]
  simp only
  rw [if_neg (not_not.2 hwin.2), if_neg (not_not.2 h.owner), if_neg (by rw [h.live]; exact Bool.false_ne_true)]
  exact limitCheck_pair h.owner (fun h₁ h₂ => ht.pass h₁ h₂ _ hrec) (fun h₁ h₂ => ht.cut h₁ h₂ _ hrec) fun h₁ => ht.lost h₁ _ hrec

omit hwin in
theorem checkTotalLimit_wp (ht : Tests rec X s E Q send totalExceeded w) :
    wp (checkTotalLimit rec s (!send) send) (fun _ => Q) E w := by
  have hrec : Passed X s w (w.recorded (.check s .total (!send) send)) := (Passed.refl h).recorded _
  unfold checkTotalLimit
  rw [wp_bind, wp_record, wp_bind, wp_getSess]
  rw [if_neg (not_not.2 h.owner), if_neg (by rw [h.live]; exact Bool.false_ne_true)]
  exact limitCheck_pair h.owner (fun h₁ h₂ => ht.pass h₁ h₂ _ hrec) (fun h₁ h₂ => ht.cut h₁ h₂ _ hrec) fun h₁ => ht.lost h₁ _ hrec

include hX

omit hwin in
theorem updateKey_passed : wp (updateKey e rec s) (fun _ => Passed X s w) (fun _ _ => False) w := by
  unfold updateKey
  simp only [wp_bind, wp_get, wp_getSess, wp_ite, wp_modifySess, wp_pure]
  refine ⟨fun _ => ?_, fun _ => .refl h⟩
  have hlimit : Passed X s w (w.modSess s fun x =>
      x.setLimit { x.limit with updateHandshakeTimepoint := w.now + w.conf.crypt.updateInterval }) :=
    ⟨rfl, rfl, _, _, _, World.modSess_sess, rfl, rfl, h.object⟩
  exact wp_post (sendKeySyn_passed hX (hlimit.live h)) fun _ _ h' => hlimit.trans h'

theorem checkMinuteLimit_wp
    (hpass : minuteExceeded (!send) send w.conf (w.sess s).limit = false → ∀ w', Passed X s w w' → Q w')
    (hcut : minuteExceeded (!send) send w.conf (w.sess s).limit = true →
      ∀ w', Passed X s w w' → wp (rec.close s EN_CRT_TRAFIC_EXTENDED) (fun _ => Q) E w') :
    wp (checkMinuteLimit e rec s (!send) send) (fun _ => Q) E w := by
  have hrec : Passed X s w (w.recorded (.check s .minute (!send) send)) := (Passed.refl h).recorded _
  unfold checkMinuteLimit
  rw [wp_bind, wp_record, wp_bind, wp_get, wp_bind, wp_getSess]
  simp only
  rw [if_neg (not_not.2 hwin.1), if_neg (not_not.2 h.owner), if_neg (by rw [h.live]; exact Bool.false_ne_true)]
  cases hexc : minuteExceeded (!send) send w.conf (w.sess s).limit with
  | true => exact (wp_bind _ _).2 (hcut hexc _ hrec)
  | false =>
    rw [if_neg Bool.false_ne_true]
    exact wp_mono (updateKey_passed hX (hrec.live h)) (fun _ w' h' => hpass hexc _ (hrec.trans h')) fun _ _ h => h.elim

variable (send) in
/-- **The three checks**, by what their tests come to. -/
theorem checkLimits_wp (hpass : checked send w.conf (w.sess s).limit = .pass → ∀ w', Passed X s w w' → Q w')
    (hcut : checked send w.conf (w.sess s).limit = .cut → Stable s Q ∧ ∀ w', Passed X s w w' →
      wp (rec.close s EN_CRT_TRAFIC_EXTENDED) (fun _ w'' => (w''.sess s).owner = false ∧ Q w'') E w')
    (hlost : checked send w.conf (w.sess s).limit = .lost → ∀ w', Passed X s w w' →
      wp (rec.close s EN_CRT_TRAFIC_EXTENDED) (fun _ w'' => (w''.sess s).owner = false ∧ E .nullOwner w'') E w') :
    wp (checkLimits e rec s (!send) send) (fun _ => Q) E w := by
  unfold checkLimits
  rw [wp_bind]
  have hbehind : Stable s Q → ∀ w'', (w''.sess s).owner = false → Q w'' →
      wp (checkMinuteLimit e rec s (!send) send >>= fun _ => checkTotalLimit rec s (!send) send) (fun _ => Q) E w'' :=
    fun hQ w'' howner hw => (wp_bind _ _).2 (wp_post (checkMinuteLimit_orphan hQ howner hw) fun _ _ h' =>
      checkTotalLimit_orphan hQ h'.1 h'.2)
  have hsame : ∀ {w' : World}, Passed X s w w' → (w'.sess s).limit.Covers w'.now ∧
      minuteExceeded (!send) send w'.conf (w'.sess s).limit = minuteExceeded (!send) send w.conf (w.sess s).limit ∧
      ∀ second, totalExceeded send second w'.conf (w'.sess s).limit = totalExceeded send second w.conf (w.sess s).limit := by
    intro w' hw'
    obtain ⟨hconf, hnow, p, b, u, hsess, -⟩ := hw'
    rw [hconf, hnow, hsess]
    exact ⟨hwin, rfl, fun second => by cases send <;> cases second <;> rfl⟩
  refine checkHourLimit_wp (X := X) (Q := fun w' => wp (checkMinuteLimit e rec s (!send) send >>= fun _ =>
    checkTotalLimit rec s (!send) send) (fun _ => Q) E w') h hwin
    ⟨fun h₁ h₂ w₁ hw₁ => ?_, fun h₁ h₂ w₁ hw₁ => ?_, fun h₁ w₁ hw₁ => ?_⟩
  · -- the hour passes
    rw [checked, if_neg (Bool.eq_false_iff.1 h₁), if_neg (Bool.eq_false_iff.1 h₂)] at hpass hcut hlost
    obtain ⟨hwin₁, hmin₁, -⟩ := hsame hw₁
    refine (wp_bind _ _).2 (checkMinuteLimit_wp (Q := fun w' => wp (checkTotalLimit rec s (!send) send) (fun _ => Q) E w') hX
      (hw₁.live h) hwin₁ (fun h₃ w₂ hw₂ => ?_) fun h₃ w₂ hw₂ => ?_)
    · rw [hmin₁] at h₃
      rw [if_neg (Bool.eq_false_iff.1 h₃)] at hpass hcut hlost
      have hw := hw₁.trans hw₂
      obtain ⟨-, -, htotal⟩ := hsame hw
      refine checkTotalLimit_wp (X := X) (hw.live h) ⟨fun h₄ h₅ w₃ hw₃ => ?_, fun h₄ h₅ w₃ hw₃ => ?_, fun h₄ w₃ hw₃ => ?_⟩
      · rw [htotal] at h₄ h₅
        rw [if_neg (Bool.eq_false_iff.1 h₄), if_neg (Bool.eq_false_iff.1 h₅)] at hpass
        exact hpass rfl _ (hw.trans hw₃)
      · rw [htotal] at h₄ h₅
        rw [if_neg (Bool.eq_false_iff.1 h₄), if_pos h₅] at hcut
        exact wp_post ((hcut rfl).2 _ (hw.trans hw₃)) fun _ _ h => h.2
      · rw [htotal] at h₄
        rw [if_pos h₄] at hlost
        exact hlost rfl _ (hw.trans hw₃)
    · rw [hmin₁] at h₃
      rw [if_pos h₃] at hcut
      exact wp_post ((hcut rfl).2 _ (hw₁.trans hw₂)) fun _ _ h => checkTotalLimit_orphan (hcut rfl).1 h.1 h.2
  · rw [checked, if_neg (Bool.eq_false_iff.1 h₁), if_pos h₂] at hcut
    exact wp_post ((hcut rfl).2 _ hw₁) fun _ w₂ h => hbehind (hcut rfl).1 w₂ h.1 h.2
  · rw [checked, if_pos h₁] at hlost
    exact hlost rfl _ hw₁

end tests

/-! ## The close behind a test -/

/-- bytes that are written to an open object leave its reason alone -/
theorem writeBytes_reason (hopen : (w.sess s).proto.flags.closing = false) (buf : Bytes) :
    wp (writeBytes (gwHost e rec s) buf) (fun _ w' => (w'.sess s).proto.closeReason = (w.sess s).proto.closeReason)
      (fun _ _ => True) w := by
  have htry := fun w' h =>
    wp_post ((Host.tryWrite_reason (writeFn_proto e rec s) (w.sess s).proto.closeReason e.stack).1 w' h) fun _ _ h => h.2
  unfold writeBytes
  simp only [wp_ite, wp_pure, wp_bind, Host.wp_get]
  refine ⟨fun _ => ⟨fun _ => trivial, fun _ => ?_⟩, fun _ => htry w ⟨hopen, rfl⟩⟩
  cases (w.sess s).proto.writeBuffers.pushBack _ _ with
  | none => exact rfl
  | some q =>
    refine htry _ ?_
    simp only [World.setSess_sess]
    exact ⟨hopen, trivial⟩

/-- the kickoff message of a close -/
theorem sendKickoff_comes (hX : Writable e s X) (hopen : (w.sess s).proto.flags.closing = false)
    (hobject : X (w.sess s).proto) (reason : ℤ) : wp (sendKickoff (gwHost e rec s) reason) (fun _ w' =>
      Wrote s w w' ∧ (w'.sess s).proto.closeReason = (w.sess s).proto.closeReason) (fun _ _ => False) w := by
  unfold sendKickoff
  simp only [wp_bind, Host.wp_get, wp_ite, wp_pure]
  refine ⟨fun _ => ⟨.refl w, trivial⟩, fun _ => ?_⟩
  have hwrite := (hX.calm rec w).writeBytes
    ((gwHost e rec s).ext.build ⟨some .EN_MTT_KICKOFF, .kickoff (some reason)⟩) w ⟨⟨.refl w, hopen⟩, hobject⟩
  exact wp_mono (wp_and hwrite (writeBytes_reason hopen _)) (fun _ _ h => ⟨h.1.1.1, h.2⟩) fun _ _ h => h.1

/-- the object of a session that is closing: it is told the reason unless it is closing already -/
theorem close_comes (hX : Writable e s X) (n : ℕ) (reason : ℤ) (hflag : (w.sess s).flags.closing = true)
    (hobject : (w.sess s).proto.flags.closing = false → X (w.sess s).proto) :
    wp (close (gwHost e (reentry e (n + 1)) s) reason true) (fun _ w' => (w'.sess s).flags.closing = true ∧
      ((w.sess s).proto.flags.closing = false → (w'.sess s).proto.closeReason = reason)) (fun _ _ => False) w := by
  unfold close
  simp only [wp_bind, Host.wp_get, wp_ite, wp_pure, Host.wp_modify]
  refine ⟨fun hclosing => ⟨hflag, fun hopen => absurd (hopen.symm.trans hclosing) Bool.false_ne_true⟩, fun hopen =>
    ⟨fun _ => ?_, fun h => absurd trivial h⟩⟩
  rw [Bool.not_eq_true] at hopen
  set w₁ := w.setSess s { w.sess s with proto := { (w.sess s).proto with closeReason := reason } }
  have hsess₁ : w₁.sess s = { w.sess s with proto := { (w.sess s).proto with closeReason := reason } } :=
    World.setSess_sess ..
  have hopen₁ : (w₁.sess s).proto.flags.closing = false := by rw [hsess₁]; exact hopen
  have hobject₁ : X (w₁.sess s).proto := by
    rw [hsess₁]
    exact hX.steady (hobject hopen) (.of_eq rfl)
  refine wp_post (sendKickoff_comes hX hopen₁ hobject₁ reason) fun _ w₂ ⟨hw₂, hreason⟩ => ?_
  have hflag₂ : (w₂.sess s).flags.closing = true := by
    obtain ⟨p, b, k, rfl, -, -⟩ := hw₂
    rw [World.written_sess, hsess₁]
    exact hflag
  rw [hsess₁] at hreason
  unfold finishClose
  simp only [wp_bind, Host.wp_modify, Host.wp_get, wp_ite, wp_pure, World.setSess_sess, World.setSess_setSess]
  refine ⟨fun _ => ?_, fun _ => ⟨hflag₂, fun _ => hreason⟩⟩
  -- the callback finds the session closing
  unfold reentry onClose
  simp only [wp_bind, wp_getSess, wp_ite, wp_pure, World.setSess_sess]
  exact ⟨fun _ => ⟨hflag₂, fun _ => hreason⟩, fun h => absurd hflag₂ h⟩

/-- a close sends a remove notice first -/
def Session.Notifies (x : Session) : Prop :=
  x.flags.registered = true ∧ x.flags.reconnected = false ∧ x.flags.waitReconnect = false

/-- the remove notice of a close, if it is sent, closes nothing itself -/
def NoticePasses (e : GwEnv) (c : GwConf) (x : Session) (l : Limit) : Prop :=
  x.Notifies → ∀ len, e.serialize x.id (.removeSession x.peer) = some len → checked false c (l.addRecv len) = .pass

theorem live_noticed (h : w.Live X s) (body : SsBody) (len : ℕ) (ret : ℤ) : (w.noticed s body len ret).Live X s := by
  constructor
  · exact (Counted.noticed h.toServes body len ret).serves
  all_goals rw [World.noticed_sess]
  exacts [h.socket, h.object]

theorem covers_noticed (hwin : (w.sess s).limit.Covers w.now) (body : SsBody) (len : ℕ) (ret : ℤ) :
    ((w.noticed s body len ret).sess s).limit.Covers (w.noticed s body len ret).now := by
  rw [World.noticed_sess]
  exact hwin

/-- a notice that closes nothing -/
theorem sendToServer_passed (hX : Writable e s X) (h : w.Live X s) (hwin : (w.sess s).limit.Covers w.now) (body : SsBody)
    (hpass : ∀ len, e.serialize (w.sess s).id body = some len → checked false w.conf ((w.sess s).limit.addRecv len) = .pass) :
    wp (sendToServer e rec s body true) (fun _ w' => w'.Live X s ∧
      (w'.sess s).proto.flags.closing = (w.sess s).proto.flags.closing) (fun _ _ => False) w := by
  unfold sendToServer
  simp only [wp_bind, wp_getSess, wp_ite, wp_pure]
  refine ⟨fun hrouter => absurd hrouter h.router, fun _ => ⟨fun hlost => absurd h.owner hlost.2, fun _ => ?_⟩⟩
  cases hlen : e.serialize (w.sess s).id body with
  | none => exact ⟨h, rfl⟩
  | some len =>
    unfold sendData
    simp only [wp_bind, wp_modifySess, wp_get, wp_modify, wp_pure]
    have hlive := live_noticed h body len (e.sendData w.sent.length)
    have hchk : checked false (w.noticed s body len (e.sendData w.sent.length)).conf
        ((w.noticed s body len (e.sendData w.sent.length)).sess s).limit = .pass := by
      rw [World.noticed_sess]
      exact hpass len hlen
    refine checkLimits_wp false (w := w.noticed s body len (e.sendData w.sent.length)) hX hlive
      (covers_noticed hwin ..) (fun _ w' hw' => ?_) (fun hcut => ?_) fun hlost => ?_
    · refine ⟨hw'.live hlive, ?_⟩
      obtain ⟨-, -, p, b, u, hsess, hc, -⟩ := hw'
      rw [hsess]
      rw [World.noticed_sess] at hc
      exact hc
    · exact absurd (hchk.symm.trans hcut) (by decide)
    · exact absurd (hchk.symm.trans hlost) (by decide)

/-- the session was closed: its owner is gone, and its object, if it was open, has the reason -/
structure Down (s : ℕ) (reason : ℤ) (opened : Prop) (w : World) : Prop where
  closing : (w.sess s).flags.closing = true
  owner : (w.sess s).owner = false
  reason : opened → (w.sess s).proto.closeReason = reason

/-- the session loses its socket -/
theorem closeFd_comes (hX : Writable e s X) (n : ℕ) (reason : ℤ) (h : w.Live X s) :
    wp (closeFd e (reentry e (n + 1)) s reason) (fun _ => Down s reason ((w.sess s).proto.flags.closing = false))
      (fun _ _ => False) (w.modSess s Session.markClosing) := by
  unfold closeFd
  simp only [wp_bind, wp_getSess, wp_ite, wp_pure, wp_modifySess, World.modSess_sess]
  refine ⟨fun hclosing => absurd (h.socket.symm.trans hclosing) Bool.false_ne_true, fun _ =>
    ⟨fun _ => ?_, fun hlost => absurd h.fd hlost⟩⟩
  refine wp_post (close_comes hX n reason ?_ ?_) fun _ w₁ ⟨hflag, hreason⟩ => ?_
  · rw [World.setSess_sess]
    rfl
  · rw [World.setSess_sess]
    exact h.object
  · rw [World.setSess_sess] at hreason
    have hshut : ((w₁.sess s).dropOwner.shutdownIfClosed).proto = (w₁.sess s).proto ∧
        (w₁.sess s).dropOwner.shutdownIfClosed.flags.closing = (w₁.sess s).flags.closing ∧
        (w₁.sess s).dropOwner.shutdownIfClosed.owner = false := by
      unfold Session.shutdownIfClosed
      split_ifs <;> exact ⟨rfl, rfl, rfl⟩
    constructor <;> simp only [World.setSess_sess]
    · exact hshut.2.1.trans hflag
    · exact hshut.2.2
    · exact fun hopen => hshut.1 ▸ hreason hopen

/-- **A close comes back** where its remove notice closes nothing. -/
theorem sessionClose_comes (hX : Writable e s X) (n : ℕ) (reason : ℤ) (h : w.Live X s) (hwin : (w.sess s).limit.Covers w.now)
    (hnotice : NoticePasses e w.conf (w.sess s) (w.sess s).limit) : wp (sessionClose e (reentry e (n + 1)) s reason)
      (fun _ => Down s reason ((w.sess s).proto.flags.closing = false)) (fun _ _ => False) w := by
  have hrest : ∀ w₁ : World, w₁.Live X s → (w₁.sess s).proto.flags.closing = (w.sess s).proto.flags.closing → wp (do
      let x ← getSess s
      if x.flags.closing then return 0
      else
        modifySess s fun x => x.setFlags { x.flags with closing := true }
        closeFd e (reentry e (n + 1)) s reason) (fun _ => Down s reason ((w.sess s).proto.flags.closing = false))
          (fun _ _ => False) w₁ := by
    intro w₁ h₁ hsame
    simp only [wp_bind, wp_getSess, wp_ite, wp_pure, wp_modifySess]
    refine ⟨fun hclosing => absurd (h₁.live.symm.trans hclosing) Bool.false_ne_true, fun _ => ?_⟩
    rw [← hsame]
    exact closeFd_comes hX n reason h₁
  unfold sessionClose closeWithManager
  simp only [wp_bind, wp_getSess, wp_ite, wp_pure, wp_modifySess, Bool.not_eq_true]
  simp only [wp_bind, wp_getSess, wp_ite, wp_pure, wp_modifySess, Bool.not_eq_true] at hrest
  refine ⟨fun hnotifies => ?_, fun _ => hrest w h rfl⟩
  unfold sendRemoveSession
  simp only [wp_bind, wp_getSess, wp_ite, wp_pure, wp_modifySess, h.owner, Bool.not_eq_true]
  refine ⟨fun hunknown => absurd (hnotifies.1.symm.trans hunknown) (by decide), fun _ => ?_⟩
  refine wp_post (sendToServer_passed hX h hwin _ (hnotice hnotifies)) fun ret w₁ ⟨h₁, hsame⟩ =>
    ⟨fun _ => hrest _ ?_ ?_, fun _ => hrest w₁ h₁ hsame⟩
  · constructor
    · constructor <;> rw [World.setSess_sess]
      exacts [h₁.live, h₁.fd, h₁.owner, h₁.router, h₁.done]
    all_goals rw [World.setSess_sess]
    exacts [h₁.socket, h₁.object]
  · rw [World.setSess_sess]
    exact hsame

/-! ## The close that does not come back -/

theorem checked_pass_iff {send : Bool} {c : GwConf} {l : Limit} : checked send c l = .pass ↔
    (∀ second, hourExceeded send second c l = false) ∧ minuteExceeded (!send) send c l = false ∧
      ∀ second, totalExceeded send second c l = false := by
  unfold checked
  rw [Bool.forall_bool, Bool.forall_bool]
  split_ifs with h₁ h₂ h₃ h₄ h₅
  · exact ⟨(nomatch ·), fun h => absurd (h.1.1.symm.trans h₁) Bool.false_ne_true⟩
  · exact ⟨(nomatch ·), fun h => absurd (h.1.2.symm.trans h₂) Bool.false_ne_true⟩
  · exact ⟨(nomatch ·), fun h => absurd (h.2.1.symm.trans h₃) Bool.false_ne_true⟩
  · exact ⟨(nomatch ·), fun h => absurd (h.2.2.1.symm.trans h₄) Bool.false_ne_true⟩
  · exact ⟨(nomatch ·), fun h => absurd (h.2.2.2.symm.trans h₅) Bool.false_ne_true⟩
  · simp only [Bool.not_eq_true] at h₁ h₂ h₃ h₄ h₅
    exact ⟨fun _ => ⟨⟨h₁, h₂⟩, h₃, h₄, h₅⟩, fun _ => rfl⟩

/-- `n` more messages of this length to the server do not run over -/
def Traffic.Room (len n : ℕ) (t : Traffic) : Prop := t.recvBytes + n * len < 2 ^ 64 ∧ t.recvTimes + n < 2 ^ 64

def Limit.Room (len n : ℕ) (l : Limit) : Prop := l.hour.Room len n ∧ l.minute.Room len n ∧ l.total.Room len n

theorem Traffic.Room.addRecv {len n : ℕ} {t : Traffic} (h : t.Room len (n + 1)) :
    (t.addRecv len).Room len n ∧ t.recvBytes ≤ (t.addRecv len).recvBytes ∧ t.recvTimes ≤ (t.addRecv len).recvTimes := by
  obtain ⟨hbytes, htimes⟩ := h
  rw [Nat.add_mul, Nat.one_mul] at hbytes
  have hsum : (t.addRecv len).recvBytes = t.recvBytes + len := Nat.mod_eq_of_lt (by omega)
  have hcount : (t.addRecv len).recvTimes = t.recvTimes + 1 := Nat.mod_eq_of_lt (by omega)
  rw [Traffic.Room, hsum, hcount]
  omega

theorem Limit.Room.addRecv {len n : ℕ} {l : Limit} (h : l.Room len (n + 1)) : (l.addRecv len).Room len n :=
  ⟨h.1.addRecv.1, h.2.1.addRecv.1, h.2.2.addRecv.1⟩

theorem exceeds_mono {limit a b : ℕ} (hab : a ≤ b) (h : exceeds limit b = false) : exceeds limit a = false := by
  simp only [exceeds, decide_eq_false_iff_not, not_and, not_lt] at h ⊢
  exact fun hset => hab.trans (h hset)

/-- a limit that one message exceeds is exceeded by the next one too -/
theorem checked_addRecv {c : GwConf} {l : Limit} {len n : ℕ} (hroom : l.Room len (n + 1))
    (h : checked false c (l.addRecv len) = .pass) : checked false c l = .pass := by
  rw [checked_pass_iff] at h ⊢
  obtain ⟨hhour, hminute, htotal⟩ := h
  obtain ⟨-, hhb, hht⟩ := hroom.1.addRecv
  obtain ⟨-, hmb, hmt⟩ := hroom.2.1.addRecv
  obtain ⟨-, htb, htt⟩ := hroom.2.2.addRecv
  rw [Bool.forall_bool] at hhour htotal ⊢
  rw [Bool.forall_bool]
  simp only [Bool.not_false, minuteExceeded, Bool.true_and, Bool.false_and, Bool.or_false, Bool.or_eq_false_iff] at hminute ⊢
  refine ⟨⟨exceeds_mono hhb hhour.1, hhour.2⟩, ⟨exceeds_mono hmb hminute.1, exceeds_mono hmt hminute.2⟩, ?_,
    exceeds_mono htt htotal.2⟩
  have hfirst := htotal.1
  simp only [totalExceeded, decide_eq_false_iff_not, not_and, not_lt] at hfirst ⊢
  exact fun hset => htb.trans (hfirst hset)

/-- the remove notice of a close leads to a close that does not come back -/
theorem notice_lost (hX : Writable e s X) {reason : ℤ} (h : w.Live X s) (hwin : (w.sess s).limit.Covers w.now)
    (hnotifies : (w.sess s).Notifies) {len : ℕ}
    (hlen : e.serialize (w.sess s).id (.removeSession (w.sess s).peer) = some len)
    (htrips : checked false w.conf ((w.sess s).limit.addRecv len) ≠ .pass)
    (hclose : ∀ ret w', Passed X s (w.noticed s (.removeSession (w.sess s).peer) len ret) w' →
      wp (rec.close s EN_CRT_TRAFIC_EXTENDED) (fun _ _ => False) (fun _ _ => True) w') :
    wp (sessionClose e rec s reason) (fun _ _ => False) (fun _ _ => True) w := by
  unfold sessionClose closeWithManager sendRemoveSession sendToServer
  simp only [wp_bind, wp_getSess, wp_ite, wp_pure, h.owner]
  refine ⟨fun _ => ⟨fun hunknown => absurd hnotifies.1 hunknown, fun _ => ⟨fun hrouter => absurd hrouter h.router, fun _ =>
    ⟨fun hlost => absurd trivial hlost.2, fun _ => ?_⟩⟩⟩, fun hquiet => absurd ?_ hquiet⟩
  · rw [hlen]
    unfold sendData
    simp only [wp_bind, wp_modifySess, wp_get, wp_modify, wp_pure]
    have hchk : checked false (w.noticed s (.removeSession (w.sess s).peer) len (e.sendData w.sent.length)).conf
        ((w.noticed s (.removeSession (w.sess s).peer) len (e.sendData w.sent.length)).sess s).limit ≠ .pass := by
      rw [World.noticed_sess]
      exact htrips
    refine wp_post (checkLimits_wp false (Q := fun _ => False) hX
      (live_noticed h (.removeSession (w.sess s).peer) len (e.sendData w.sent.length)) (covers_noticed hwin ..)
      (fun hpass => absurd hpass hchk) (fun _ => ⟨stable_false, fun w' hw' => ?_⟩) fun _ w' hw' => ?_)
      fun _ _ h => h.elim
    · exact wp_post (hclose _ w' hw') fun _ _ h => h.elim
    · exact wp_post (hclose _ w' hw') fun _ _ h => h.elim
  · exact ⟨hnotifies.1, Bool.eq_false_iff.1 hnotifies.2.1, Bool.eq_false_iff.1 hnotifies.2.2⟩

/-- **A close does not come back** where its remove notice closes the session again. -/
theorem sessionClose_lost (hX : Writable e s X) (n : ℕ) (reason : ℤ) (len : ℕ) (h : w.Live X s)
    (hwin : (w.sess s).limit.Covers w.now) (hnotifies : (w.sess s).Notifies)
    (hlen : e.serialize (w.sess s).id (.removeSession (w.sess s).peer) = some len)
    (hroom : (w.sess s).limit.Room len (n + 1)) (htrips : checked false w.conf ((w.sess s).limit.addRecv len) ≠ .pass) :
    wp (sessionClose e (reentry e n) s reason) (fun _ _ => False) (fun _ _ => True) w := by
  induction n generalizing w reason with
  | zero => exact notice_lost hX h hwin hnotifies hlen htrips fun _ _ _ => (wp_throw _).2 trivial
  | succ n ih =>
    refine notice_lost hX h hwin hnotifies hlen htrips fun ret w' hw' => ?_
    have hlive := hw'.live (live_noticed h (.removeSession (w.sess s).peer) len ret)
    obtain ⟨hconf, hnow, p, b, u, hsess, -⟩ := hw'
    rw [World.noticed_sess] at hsess
    refine ih _ hlive ?_ ?_ ?_ ?_ ?_
    · rw [hsess, hnow]
      exact hwin
    · rw [hsess]
      exact hnotifies
    · rw [hsess]
      exact hlen
    · rw [hsess]
      exact hroom.addRecv
    · rw [hsess, hconf]
      exact fun hpass => htrips (checked_addRecv hroom.addRecv hpass)

/-! ## Calls -/

/-- a message to the client -/
def Call.send : Call → Bool
  | .toClient _ => true
  | .toServer _ => false

/-- the limits of the call behind its counting -/
def Call.counted (e : GwEnv) (s : ℕ) (w : World) (c : Call) : Limit := c.count e (w.sess s).id (w.sess s).limit

theorem live_setLimit (h : w.Live X s) (l : Limit) : (w.modSess s fun x => x.setLimit l).Live X s := by
  constructor
  · exact (Counted.setLimit h.toServes l).serves
  all_goals rw [World.modSess_sess]
  exacts [h.socket, h.object]

theorem covers_counted (hwin : (w.sess s).limit.Covers w.now) (c : Call) :
    ((w.modSess s fun x => x.setLimit (c.counted e s w)).sess s).limit.Covers w.now := by
  rw [World.modSess_sess]
  cases c <;> exact hwin

/-- **A call**: it is counted, written or sent, and checked. -/
theorem Call.run_wp (c : Call) (hX : Writable e s X) (h : w.Live X s) (hwin : (w.sess s).limit.Covers w.now)
    (hpacks : c.Packs e (w.sess s).id) {E : Fault → World → Prop} {Q : World → Prop}
    (hpass : checked c.send w.conf (c.counted e s w) = .pass →
      ∀ w', Passed X s (w.modSess s fun x => x.setLimit (c.counted e s w)) w' → Q w')
    (hcut : checked c.send w.conf (c.counted e s w) = .cut → Stable s Q ∧
      ∀ w', Passed X s (w.modSess s fun x => x.setLimit (c.counted e s w)) w' →
        wp (rec.close s EN_CRT_TRAFIC_EXTENDED) (fun _ w'' => (w''.sess s).owner = false ∧ Q w'') E w')
    (hlost : checked c.send w.conf (c.counted e s w) = .lost →
      ∀ w', Passed X s (w.modSess s fun x => x.setLimit (c.counted e s w)) w' →
        wp (rec.close s EN_CRT_TRAFIC_EXTENDED) (fun _ w'' => (w''.sess s).owner = false ∧ E .nullOwner w'') E w') :
    wp (c.run e rec s) (fun _ => Q) E w := by
  set w₀ := w.modSess s fun x => x.setLimit (c.counted e s w)
  have hsess₀ : w₀.sess s = (w.sess s).setLimit (c.counted e s w) := World.modSess_sess
  have hwin₀ : (w₀.sess s).limit.Covers w₀.now := covers_counted hwin c
  have hlive₀ : w₀.Live X s := live_setLimit h _
  have hchecks : ∀ w₁, Passed X s w₀ w₁ → wp (checkLimits e rec s (!c.send) c.send) (fun _ => Q) E w₁ := by
    intro w₁ hw₁
    have hlive₁ := hw₁.live hlive₀
    have hall := hw₁
    obtain ⟨hconf, hnow, p, b, u, hsess, -⟩ := hw₁
    rw [hsess₀] at hsess
    have hwin₁ : (w₁.sess s).limit.Covers w₁.now := by
      rw [hsess, hnow]
      rwa [hsess₀] at hwin₀
    have hchk : checked c.send w₁.conf (w₁.sess s).limit = checked c.send w.conf (c.counted e s w) := by
      rw [hsess, hconf]
      rfl
    exact checkLimits_wp c.send hX hlive₁ hwin₁ (fun h₁ w₂ hw₂ => hpass (hchk ▸ h₁) w₂ (hall.trans hw₂))
      (fun h₁ => ⟨(hcut (hchk ▸ h₁)).1, fun w₂ hw₂ => (hcut (hchk ▸ h₁)).2 w₂ (hall.trans hw₂)⟩)
      fun h₁ w₂ hw₂ => hlost (hchk ▸ h₁) w₂ (hall.trans hw₂)
  cases c with
  | toClient content =>
    unfold Call.run sendToClient
    simp only [wp_bind, wp_getSess, wp_ite, wp_pure, wp_modifySess, Bool.not_eq_true]
    refine ⟨fun hclosing => absurd (h.live.symm.trans hclosing) Bool.false_ne_true, fun _ => ⟨fun hlost => ?_, fun _ => ?_⟩⟩
    · exact absurd (h.fd.symm.trans hlost) (by decide)
    · exact wp_mono (write_passed hX hlive₀ content) (fun _ w₁ hw₁ => hchecks w₁ hw₁) fun _ _ h => h.elim
  | toServer body =>
    obtain ⟨len, hlen⟩ := Option.isSome_iff_exists.1 hpacks
    have hcount : (w.sess s).limit.addRecv len = Call.counted e s w (.toServer body) := by
      simp only [Call.counted, Call.count, hlen, Option.getD_some]
    unfold Call.run sendToServer
    simp only [wp_bind, wp_getSess, wp_ite, wp_pure]
    refine ⟨fun hrouter => absurd hrouter h.router, fun _ => ⟨fun hlost => absurd h.owner hlost.1, fun _ => ?_⟩⟩
    rw [hlen]
    unfold sendData
    simp only [wp_bind, wp_modifySess, wp_get, wp_modify, wp_pure]
    refine hchecks (w.noticed s body len (e.sendData w.sent.length)) ⟨rfl, rfl, ?_⟩
    rw [World.noticed_sess, hcount, ← hsess₀]
    exact (Passed.refl hlive₀).sess

/-! ## Which limit closes a session -/

/-- a limit of its own direction is exceeded -/
def ownExceeded (send : Bool) (c : GwConf) (l : Limit) : Bool :=
  if send then
    exceeds c.hour.sendBytes l.hour.sendBytes || exceeds c.hour.sendTimes l.hour.sendTimes ||
      exceeds c.minute.sendBytes l.minute.sendBytes || exceeds c.minute.sendTimes l.minute.sendTimes ||
      exceeds c.total.sendBytes l.total.sendBytes || exceeds c.total.sendTimes l.total.sendTimes
  else
    exceeds c.hour.recvBytes l.hour.recvBytes || exceeds c.hour.recvTimes l.hour.recvTimes ||
      exceeds c.minute.recvBytes l.minute.recvBytes || exceeds c.minute.recvTimes l.minute.recvTimes ||
      exceeds c.total.recvBytes l.total.recvBytes || exceeds c.total.recvTimes l.total.recvTimes

/-- the call comes back, and has closed the session, with `EN_CRT_TRAFIC_EXTENDED` unless its object was closing
already, exactly if a limit of its own is exceeded -/
def Call.CutsExactly (e : GwEnv) (s : ℕ) (w : World) (c : Call) : Prop :=
  ∃ ret w', exec (c.run e (reentry e e.depth) s) w = (.ok ret, w') ∧
    ((w'.sess s).flags.closing = true ↔ ownExceeded c.send w.conf (c.counted e s w) = true) ∧
    ((w'.sess s).flags.closing = true → (w.sess s).proto.flags.closing = false →
      (w'.sess s).proto.closeReason = EN_CRT_TRAFIC_EXTENDED)

/-- no test closes the session, and no limit of its own is exceeded; or the first test that closes it is the last one
of its check, a limit of its own is exceeded, and the remove notice closes nothing -/
def Call.CutsRight (e : GwEnv) (s : ℕ) (w : World) (c : Call) : Prop :=
  checked c.send w.conf (c.counted e s w) = .pass ∧ ownExceeded c.send w.conf (c.counted e s w) = false ∨
    checked c.send w.conf (c.counted e s w) = .cut ∧ ownExceeded c.send w.conf (c.counted e s w) = true ∧
      NoticePasses e w.conf (w.sess s) (c.counted e s w)

section close

variable {c : Call} {n : ℕ} (hX : Writable e s X) (h : w.Live X s) (hwin : (w.sess s).limit.Covers w.now)
  (hw' : Passed X s (w.modSess s fun x => x.setLimit (c.counted e s w)) w')
include hX h hwin hw'

/-- the close that a test of the call leads to -/
theorem Call.close_comes (n : ℕ) (hnotice : NoticePasses e w.conf (w.sess s) (c.counted e s w)) :
    wp ((reentry e (n + 2)).close s EN_CRT_TRAFIC_EXTENDED)
      (fun _ => Down s EN_CRT_TRAFIC_EXTENDED ((w.sess s).proto.flags.closing = false)) (fun _ _ => False) w' := by
  have hlive := hw'.live (live_setLimit h _)
  have hwin₀ := covers_counted (e := e) hwin c
  obtain ⟨hconf, hnow, p, b, u, hsess, hc, -⟩ := hw'
  rw [World.modSess_sess] at hsess hc hwin₀
  have hclose := sessionClose_comes hX n EN_CRT_TRAFIC_EXTENDED hlive
  rw [hsess, hconf, hnow] at hclose
  rw [show (w.sess s).proto.flags.closing = p.flags.closing from hc.symm]
  exact hclose hwin₀ hnotice

/-- and the one that does not come back -/
theorem Call.close_lost (hroom : ∀ len, e.serialize (w.sess s).id (.removeSession (w.sess s).peer) = some len →
    (c.counted e s w).Room len (n + 2)) (hnotice : ¬ NoticePasses e w.conf (w.sess s) (c.counted e s w)) :
    wp ((reentry e (n + 2)).close s EN_CRT_TRAFIC_EXTENDED) (fun _ _ => False) (fun _ _ => True) w' := by
  have hlive := hw'.live (live_setLimit h _)
  have hwin₀ := covers_counted (e := e) hwin c
  obtain ⟨hconf, hnow, p, b, u, hsess, hc, -⟩ := hw'
  rw [World.modSess_sess] at hsess hc hwin₀
  unfold NoticePasses at hnotice
  push Not at hnotice
  obtain ⟨hnotifies, len, hlen, htrips⟩ := hnotice
  have hclose := sessionClose_lost hX (n + 1) EN_CRT_TRAFIC_EXTENDED len hlive
  rw [hsess, hconf, hnow] at hclose
  exact hclose hwin₀ hnotifies hlen (hroom len hlen) htrips

end close

/-- **Traffic limits.** A call cuts the session exactly where a limit of its own is exceeded if it `CutsRight`, and
only then unless the remove notices of a close run over a counter. -/
theorem cut_exactly (e : GwEnv) (s : ℕ) (w : World) (c : Call) {X : Proto → Prop} (hX : Writable e s X) (h : w.Live X s)
    (hwin : (w.sess s).limit.Covers w.now) (hpacks : c.Packs e (w.sess s).id) (hdepth : 2 ≤ e.depth) :
    (c.CutsRight e s w → c.CutsExactly e s w) ∧
      ((∀ len, e.serialize (w.sess s).id (.removeSession (w.sess s).peer) = some len → (c.counted e s w).Room len e.depth) →
        c.CutsExactly e s w → c.CutsRight e s w) := by
  obtain ⟨n, hn⟩ : ∃ n, e.depth = n + 2 := ⟨e.depth - 2, by omega⟩
  have hopen : ∀ {w'}, Passed X s (w.modSess s fun x => x.setLimit (c.counted e s w)) w' →
      (w'.sess s).flags.closing = false := fun hw' => (hw'.live (live_setLimit h _)).live
  rw [Call.CutsRight, Call.CutsExactly, hn]
  constructor
  · intro hright
    refine wp_total (c.run_wp (Q := fun w' => ((w'.sess s).flags.closing = true ↔
      ownExceeded c.send w.conf (c.counted e s w) = true) ∧ ((w'.sess s).flags.closing = true →
        (w.sess s).proto.flags.closing = false → (w'.sess s).proto.closeReason = EN_CRT_TRAFIC_EXTENDED))
      hX h hwin hpacks (fun hchk w' hw' => ?_) (fun hchk => ?_) fun hchk => ?_)
    · obtain ⟨-, hown⟩ := hright.resolve_right fun h => nomatch hchk.symm.trans h.1
      rw [hopen hw', hown]
      exact ⟨Iff.rfl, fun h => absurd h Bool.false_ne_true⟩
    · obtain ⟨-, hown, hnotice⟩ := hright.resolve_left fun h => nomatch hchk.symm.trans h.1
      refine ⟨stable_sess (P := fun x => (x.flags.closing = true ↔ _) ∧ (x.flags.closing = true → _ → x.proto.closeReason = _))
        fun _ _ h => h, fun w' hw' => ?_⟩
      refine wp_post (Call.close_comes hX h hwin hw' n hnotice) fun _ w'' hdown => ⟨hdown.owner, ?_, fun _ => hdown.reason⟩
      exact ⟨fun _ => hown, fun _ => hdown.closing⟩
    · rcases hright with h | h <;> exact nomatch hchk.symm.trans h.1
  · rintro hroom ⟨ret, w', hexec, hiff, -⟩
    have hnever : ¬ wp (c.run e (reentry e (n + 2)) s) (fun _ _ => False) (fun _ _ => True) w := fun hwp => wp_ok hwp hexec
    cases hchk : checked c.send w.conf (c.counted e s w) with
    | pass =>
      have hwp : wp (c.run e (reentry e (n + 2)) s) (fun _ w' => (w'.sess s).flags.closing = false) (fun _ _ => True) w :=
        c.run_wp (Q := fun w' => (w'.sess s).flags.closing = false) hX h hwin hpacks (fun _ w' hw' => hopen hw')
        (fun hcut => nomatch hchk.symm.trans hcut) fun hlost => nomatch hchk.symm.trans hlost
      have hstays := wp_ok hwp hexec
      exact .inl ⟨rfl, Bool.eq_false_iff.2 fun hown => absurd (hstays.symm.trans (hiff.2 hown)) Bool.false_ne_true⟩
    | cut =>
      by_cases hnotice : NoticePasses e w.conf (w.sess s) (c.counted e s w)
      · have hwp : wp (c.run e (reentry e (n + 2)) s) (fun _ w' => (w'.sess s).flags.closing = true) (fun _ _ => True) w :=
          c.run_wp (Q := fun w' => (w'.sess s).flags.closing = true) hX h hwin hpacks (fun hpass => nomatch hchk.symm.trans hpass)
          (fun _ => ⟨stable_sess (P := fun x => x.flags.closing = true) fun _ _ h => h, fun w' hw' =>
            wp_mono (Call.close_comes hX h hwin hw' n hnotice) (fun _ _ hdown => ⟨hdown.owner, hdown.closing⟩)
              fun _ _ _ => trivial⟩) fun hlost => nomatch hchk.symm.trans hlost
        have hclosed := wp_ok hwp hexec
        exact .inr ⟨rfl, hiff.1 hclosed, hnotice⟩
      · refine absurd (c.run_wp (Q := fun _ => False) hX h hwin hpacks (fun hpass => nomatch hchk.symm.trans hpass)
          (fun _ => ⟨stable_false, fun w' hw' => ?_⟩) fun hlost => nomatch hchk.symm.trans hlost) hnever
        exact wp_post (Call.close_lost hX h hwin hw' hroom hnotice) fun _ _ h => h.elim
    | lost =>
      refine absurd (c.run_wp (Q := fun _ => False) hX h hwin hpacks (fun hpass => nomatch hchk.symm.trans hpass)
        (fun hcut => nomatch hchk.symm.trans hcut) fun _ w' hw' => ?_) hnever
      by_cases hnotice : NoticePasses e w.conf (w.sess s) (c.counted e s w)
      · have hcomes := Call.close_comes hX h hwin hw' n hnotice
        exact wp_mono hcomes (fun _ _ hdown => ⟨hdown.owner, trivial⟩) fun _ _ _ => trivial
      · exact wp_post (Call.close_lost hX h hwin hw' hroom hnotice) fun _ _ h => h.elim

/-- an object with an outstanding write only queues what is written -/
theorem writable_writing (e : GwEnv) (s : ℕ) (hstack : 0 < e.stack) : Writable e s fun p => p.flags.writing = true where
  steady h hp := hp.writing.trans h
  writeBytes rec w buf h hopen := by
    obtain ⟨n, hn⟩ : ∃ n, e.stack = n + 1 := ⟨e.stack - 1, by omega⟩
    have htry : ∀ w : World, (w.sess s).proto.flags.writing = true → wp (tryWrite (gwHost e rec s) e.stack)
        (fun _ w' => (w'.sess s).proto.flags.writing = true) (fun _ _ => False) w := by
      intro w hw
      rw [hn, tryWrite]
      simp only [wp_bind, Host.wp_get, wp_ite, wp_pure]
      exact ⟨fun _ => hw, fun hidle => absurd hw hidle⟩
    unfold writeBytes
    simp only [wp_ite, wp_pure, wp_bind, Host.wp_get]
    refine ⟨fun _ => ⟨fun _ => h, fun _ => ?_⟩, fun _ => htry w h⟩
    cases (w.sess s).proto.writeBuffers.pushBack _ _ with
    | none => exact h
    | some q =>
      refine htry _ ?_
      rw [World.setSess_sess]
      exact h

/-- an object that is idle, or was and has handed its bytes over -/
theorem writable_idle (e : GwEnv) (s : ℕ) (hstack : 3 ≤ e.stack) :
    Writable e s fun p => p.flags.writing = true ∨ Idle e p where
  steady h hp := by
    refine h.imp hp.writing.trans fun h => ⟨hp.writing.trans h.writing, ?_, ?_, ?_⟩
    · rw [hp.queue]
      exact h.nothing
    · rw [hp.offset]
      exact h.request
    · rw [hp.offset]
      exact h.offset
  writeBytes rec w buf h hopen := by
    rcases h with hwriting | hidle
    · exact wp_post ((writable_writing e s (by omega)).writeBytes rec buf hwriting hopen) fun _ _ => .inl
    · rw [← w.written_self]
      refine wp_post (writeBytes_idle hstack hidle hopen buf) fun _ w' ⟨q, b, n, hw', hdrain⟩ => ?_
      rw [hw', World.written_proto]
      exact hidle.drains hdrain

/-- a gateway with one session and these limits, which sent one message to its client -/
def World.limited (conf : GwConf) : World :=
  (exec (gwRun (scriptEnv [plainStartReq] 2) (startOne ++ [.serverPost 1 1 [] [9]])) (World.start conf 1500000000 none)).2

/-- the same gateway when everything is written -/
def World.limitedIdle (conf : GwConf) : World :=
  (exec (gwRun (scriptEnv [plainStartReq] 2) (startOne ++ [.serverPost 1 1 [] [9], .uvWritten 0 0, .uvWritten 0 0]))
    (World.start conf 1500000000 none)).2

/-- one message in a minute -/
def minuteConf : GwConf := { openConf with minute := { sendTimes := 1 } }

/-- two bytes in an hour -/
def hourConf : GwConf := { openConf with hour := { sendBytes := 2 } }

theorem live_minute : (World.limited minuteConf).Live (fun p => p.flags.writing = true) 0 :=
  ⟨⟨by decide +kernel, by decide +kernel, by decide +kernel, by decide +kernel, by decide +kernel⟩, by decide +kernel,
    fun _ => by decide +kernel⟩

theorem live_hour : (World.limited hourConf).Live (fun p => p.flags.writing = true) 0 :=
  ⟨⟨by decide +kernel, by decide +kernel, by decide +kernel, by decide +kernel, by decide +kernel⟩, by decide +kernel,
    fun _ => by decide +kernel⟩

theorem live_idle : (World.limitedIdle minuteConf).Live (fun p => p.flags.writing = true ∨ Idle (scriptEnv [plainStartReq] 2) p) 0 := by
  have hidle : Idle (scriptEnv [plainStartReq] 2) ((World.limitedIdle minuteConf).sess 0).proto :=
    ⟨by decide +kernel, by decide +kernel, by decide +kernel, by decide +kernel⟩
  exact ⟨⟨by decide +kernel, by decide +kernel, by decide +kernel, by decide +kernel, by decide +kernel⟩, by decide +kernel,
    fun _ => .inr hidle⟩

/-- the last test cuts the session, and the remove notice of two bytes passes -/
theorem cutsRight_cut (hchk : checked true w.conf ((Call.toClient [7]).counted (scriptEnv [plainStartReq] 2) 0 w) = .cut)
    (hown : ownExceeded true w.conf ((Call.toClient [7]).counted (scriptEnv [plainStartReq] 2) 0 w) = true)
    (hnotice : checked false w.conf (((Call.toClient [7]).counted (scriptEnv [plainStartReq] 2) 0 w).addRecv 2) = .pass) :
    (Call.toClient [7]).CutsRight (scriptEnv [plainStartReq] 2) 0 w := by
  refine .inr ⟨hchk, hown, fun _ len hlen => ?_⟩
  rw [Option.some.inj hlen] at hnotice
  exact hnotice

theorem cut_exactly_minute :
    (Call.toClient [7]).CutsExactly (scriptEnv [plainStartReq] 2) 0 (World.limited minuteConf) ∧
      (Call.toClient [7]).CutsExactly (scriptEnv [plainStartReq] 2) 0 (World.limitedIdle minuteConf) := by
  constructor
  · exact (cut_exactly (scriptEnv [plainStartReq] 2) 0 (World.limited minuteConf) (.toClient [7]) (writable_writing _ 0 (by decide))
      live_minute ⟨by decide +kernel, by decide +kernel⟩ True.intro (by decide)).1
      (cutsRight_cut (by decide +kernel) (by decide +kernel) (by decide +kernel))
  · exact (cut_exactly (scriptEnv [plainStartReq] 2) 0 (World.limitedIdle minuteConf) (.toClient [7]) (writable_idle _ 0 (by decide))
      live_idle ⟨by decide +kernel, by decide +kernel⟩ True.intro (by decide)).1
      (cutsRight_cut (by decide +kernel) (by decide +kernel) (by decide +kernel))

/-- **The bytes of an hour are never tested**: the limit of the hour is exceeded, and the session stays open. -/
theorem hour_send_bytes_stays : (World.limited hourConf).Live (fun p => p.flags.writing = true) 0 ∧
    ((World.limited hourConf).sess 0).limit.Covers (World.limited hourConf).now ∧
    ¬ (Call.toClient [7, 8]).CutsExactly (scriptEnv [plainStartReq] 2) 0 (World.limited hourConf) := by
  have hown : ownExceeded (Call.toClient [7, 8]).send (World.limited hourConf).conf
      ((Call.toClient [7, 8]).counted (scriptEnv [plainStartReq] 2) 0 (World.limited hourConf)) = true := by decide +kernel
  have hstays : ((exec ((Call.toClient [7, 8]).run (scriptEnv [plainStartReq] 2)
      (reentry (scriptEnv [plainStartReq] 2) (scriptEnv [plainStartReq] 2).depth) 0)
      (World.limited hourConf)).2.sess 0).flags.closing = false := by decide +kernel
  refine ⟨live_hour, ⟨by decide +kernel, by decide +kernel⟩, ?_⟩
  rintro ⟨ret, w', hexec, hiff, -⟩
  have hlast := congrArg Prod.snd hexec
  subst hlast
  exact absurd (hstays.symm.trans (hiff.2 hown)) Bool.false_ne_true

end AtFrame.Gateway
