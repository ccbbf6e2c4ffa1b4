/-
Every closing function of the gateway is a `Shut`.

The functions are taken in the order in which they call each other; those that come back through the protocol object or a check
of limits are in `Reentry`, and `reentry_ok` closes the circle by induction on the depth of the calls. Faults are allowed, except
that a null owner is used only behind a step that leads to it (`Orphans`).

- `checkLimits_checks`, `sendToServer_sent`: limits and notices;
- `closeFd_wp`, `sessionClose_shut`, `managerClose_shut`: closing.
-/
import AtFrame.Inner.Runs
import AtFrame.Gateway.Moves

namespace AtFrame.Gateway

open AtFrame.Lib

/-- the step leads to a use of `owner_` where it is null -/
def Orphans : Core × Step → Prop
  | (c, .check s period checkRecv checkSend) => c.TripsFirst s period checkRecv checkSend
  | (c, .checkReconnect s old ok) => ok = true ∧ old = s ∧ 0 < c.conf.reconnectTimeout
  | _ => False

/-- a fault; a null owner has its reason in the history -/
def Faulty (fault : Fault) (w : World) : Prop := fault = .nullOwner → ∃ x ∈ w.history, Orphans x

theorem faulty_of_ne {fault : Fault} {w : World} (h : fault ≠ .nullOwner) : Faulty fault w := fun h' => absurd h' h

/-- what the functions that closings lead back to do -/
structure ReentryOk (rec : Reentry) : Prop where
  close : ∀ {S : Set ℕ} {s : ℕ} {w : World} (reason : ℤ), s ∈ S → w.Ready S → w.Cause s →
    wp (rec.close s reason) (fun _ w' => Shut S w w') Faulty w
  onClose : ∀ {S : Set ℕ} {s : ℕ} {w : World} (reason : ℤ), s ∈ S → w.Ready S → (w.sess s).proto.flags.closing = true →
    wp (rec.onClose s reason) (fun _ w' => Shut S w w') Faulty w

/-- a check of the limits of the session closed it -/
def Tripped (s : ℕ) : Core × Step → Prop
  | (c, .check t period checkRecv checkSend) => t = s ∧ c.Trips s period checkRecv checkSend
  | _ => False

/-- an open object stays open, or a check closed the session -/
def Survives (s : ℕ) (w w' : World) : Prop :=
  ((w.sess s).proto.flags.closing = false → (w'.sess s).proto.flags.closing = false) ∨ ∃ x ∈ w'.history, Tripped s x

/-- closings in `S` that the session survives, except for its limits -/
structure Checks (S : Set ℕ) (s : ℕ) (w w' : World) : Prop where
  shut : Shut S w w'
  survives : Survives s w w'

theorem Checks.refl {S : Set ℕ} {s : ℕ} (w : World) : Checks S s w w := ⟨.refl w, .inl id⟩

theorem Checks.trans {S : Set ℕ} {s : ℕ} {w w₁ w₂ : World} (h : Checks S s w w₁) (h' : Checks S s w₁ w₂) :
    Checks S s w w₂ where
  shut := h.shut.trans h'.shut
  survives := by
    rcases h'.survives with hopen' | htrip
    · exact h.survives.imp (fun hopen => hopen' ∘ hopen) fun ⟨x, hx, htrip⟩ => ⟨x, h'.shut.older.history.subset hx, htrip⟩
    · exact .inr htrip

variable {e : GwEnv} {rec : Reentry} {S : Set ℕ} {s : ℕ} {w w₀ : World}

theorem Checks.of_same {w' : World} (h : Shut S w w') (hsame : (w'.sess s).proto = (w.sess s).proto) : Checks S s w w' :=
  ⟨h, .inl fun hopen => by rwa [hsame]⟩

/-! ## The protocol object -/

theorem Session.light_proto {x : Session} {p : Proto} (hclosing : p.flags.closing = x.proto.flags.closing)
    (hdone : p.flags.handshakeDone = x.proto.flags.handshakeDone) : x.Light { x with proto := p } :=
  ⟨rfl, rfl, rfl, rfl, rfl, rfl, rfl, hclosing, hdone, rfl⟩

theorem Session.light_writingFd (x : Session) (b : Bool) : x.Light (x.setFlags { x.flags with writingFd := b }) :=
  ⟨rfl, rfl, rfl, rfl, rfl, rfl, rfl, rfl, rfl, rfl⟩

theorem Session.light_setLimit {x : Session} {l : Limit} (h : l.total.recvTimes = x.limit.total.recvTimes) :
    x.Light (x.setLimit l) := ⟨rfl, rfl, rfl, rfl, rfl, rfl, rfl, rfl, rfl, h⟩

theorem Session.light_shutdownIfClosed (x : Session) : x.Light x.shutdownIfClosed := by
  unfold Session.shutdownIfClosed
  split_ifs <;> exact ⟨rfl, rfl, rfl, rfl, rfl, rfl, rfl, rfl, rfl, rfl⟩

theorem onWrite_shut (hs : s ∈ S) (h : Shut S w₀ w) (buf : Bytes) :
    wp (onWrite e s buf) (fun _ w' => Shut S w₀ w') Faulty w := by
  unfold onWrite
  simp only [wp_ite, wp_throw, wp_bind, wp_get, wp_modify, wp_modifySess, wp_getSess, wp_pure]
  exact ⟨fun _ => faulty_of_ne (by decide), fun _ => (h.trans (.wrote _)).trans (.light hs (Session.light_writingFd _ _))⟩

theorem onWrite_open (h : (w.sess s).proto.flags.closing = false) (buf : Bytes) :
    wp (onWrite e s buf) (fun _ w' => (w'.sess s).proto.flags.closing = false) Faulty w := by
  unfold onWrite
  simp only [wp_ite, wp_throw, wp_bind, wp_get, wp_modify, wp_modifySess, wp_getSess, wp_pure, World.setSess_sess]
  exact ⟨fun _ => faulty_of_ne (by decide), fun _ => h⟩

/-- a write leaves the object as it is -/
theorem writeFn_proto (e : GwEnv) (rec : Reentry) (s : ℕ) : ∀ f ∈ (gwHost e rec s).writeFn, ∀ buf w,
    wp (f buf) (fun _ w' => (gwHost e rec s).proto w' = (gwHost e rec s).proto w) (fun _ _ => True) w := by
  intro f hf buf w
  cases hf
  unfold onWrite
  simp only [wp_ite, wp_throw, wp_bind, wp_get, wp_modify, wp_modifySess, wp_getSess, wp_pure, World.setSess_sess]
  exact ⟨fun _ => trivial, fun _ => rfl⟩

/-- **The write queue** of a session's object. -/
theorem gwHost_writes (hok : ReentryOk rec) (hs : s ∈ S) (hw₀ : w₀.Ready S) :
    (gwHost e rec s).Writes (Shut S w₀) (Shut S w₀) Faulty where
  quiet h hp := h.trans (.light hs (Session.light_proto hp.closing hp.handshakeDone))
  overflow _ _ := faulty_of_ne (by decide)
  assertFail _ := faulty_of_ne (by decide)
  errorFn f hf errcode errmsg w h := by
    cases hf
    exact h
  writeFn f hf w p buf h hopen hwriting hp := by
    cases hf
    have hlight : Shut S w₀ (w.setSess s { w.sess s with proto := p }) := by
      refine h.trans (.light hs (Session.light_proto ?_ ?_)) <;> rw [hp]
    exact wp_post (onWrite_shut hs hlight buf) fun _ _ hw' => ⟨fun _ => hw', fun _ => hw'⟩
  idle h _ := h
  release h _ _ hp := by refine h.trans (.light hs (Session.light_proto ?_ ?_)) <;> rw [hp]
  written {w} hopen hclosing h p hp := by
    have hset : Shut S w₀ (w.setSess s { w.sess s with proto := p }) := by
      refine (h.elim And.left And.left).trans (.light hs (Session.light_proto ?_ ?_)) <;> rw [hp]
      exact hclosing.symm
    refine ⟨fun h => (nomatch h), fun f hf reason => ?_⟩
    cases hf
    refine wp_post (hok.onClose reason hs (hset.ready hw₀) ?_) fun _ _ h' => hset.trans h'
    rw [World.setSess_sess, hp]

/-- the object of a session without a socket is closed -/
theorem gwHost_finishClose (hok : ReentryOk rec) (hs : s ∈ S) (hw₀ : w₀.Ready S) (hfd : (w₀.sess s).flags.hasFd = false)
    (h : Shut S w₀ w) : wp (finishClose (gwHost e rec s))
      (fun _ w' => Shut S w₀ w' ∧ (w'.sess s).proto.flags.closing = true) Faulty w := by
  have hlost : (w.sess s).flags.hasFd = false := by
    rcases h.socket s with ⟨-, hfd', -⟩ | ⟨-, hfd', -⟩
    · exact hfd'.trans hfd
    · exact hfd'
  have hset : ∀ p : Proto, p.flags.closing = true → p.flags.handshakeDone = (w.sess s).proto.flags.handshakeDone →
      Shut S w₀ (w.setSess s { w.sess s with proto := p }) := fun p hc hd => h.trans (.object hs hlost hc hd)
  refine Host.finishClose_wp (fun _ p hp => ⟨hset p (by rw [hp]) (by rw [hp]), ?_⟩)
    fun _ _ p hp => ⟨fun h => (nomatch h), fun f hf reason => ?_⟩
  · rw [World.setSess_sess, hp]
  · cases hf
    have hclosed := hset p (by rw [hp]) (by rw [hp])
    have hclosing : ((w.setSess s { w.sess s with proto := p }).sess s).proto.flags.closing = true := by
      rw [World.setSess_sess, hp]
    refine wp_post (hok.onClose reason hs (hclosed.ready hw₀) hclosing) fun _ w' h' => ⟨hclosed.trans h', ?_⟩
    exact (h'.kept s).object hclosing

theorem close_object (hok : ReentryOk rec) (hs : s ∈ S) (hw : w.Ready S) (hfd : (w.sess s).flags.hasFd = false)
    (reason : ℤ) (kick : Bool) : wp (close (gwHost e rec s) reason kick)
      (fun _ w' => Shut S w w' ∧ (w'.sess s).proto.flags.closing = true) Faulty w := by
  have hcalm : (gwHost e rec s).Calm (Shut S w) Faulty := (gwHost_writes hok hs hw).calm
  exact hcalm.close (fun _ h hclosing => ⟨h, hclosing⟩) (fun _ h => gwHost_finishClose hok hs hw hfd h) reason kick (.refl w)

/-- a write does not close an object that is open -/
theorem gwHost_writes_open (hok : ReentryOk rec) (hs : s ∈ S) (hw₀ : w₀.Ready S) : (gwHost e rec s).Writes
    (fun w => Shut S w₀ w ∧ (w.sess s).proto.flags.closing = false)
    (fun w => Shut S w₀ w ∧ (w.sess s).proto.flags.closing = false) Faulty where
  quiet h hp := by
    refine ⟨(gwHost_writes (e := e) hok hs hw₀).quiet h.1 hp, ?_⟩
    rw [World.setSess_sess]
    exact hp.closing.trans h.2
  overflow _ _ := faulty_of_ne (by decide)
  assertFail _ := faulty_of_ne (by decide)
  errorFn f hf errcode errmsg w h := by
    cases hf
    exact h
  writeFn f hf w p buf h hopen hwriting hp := by
    cases hf
    have hlight : Shut S w₀ (w.setSess s { w.sess s with proto := p }) := by
      refine h.1.trans (.light hs (Session.light_proto ?_ ?_)) <;> rw [hp]
    have hopen' : ((w.setSess s { w.sess s with proto := p }).sess s).proto.flags.closing = false := by
      rw [World.setSess_sess, hp]
      exact hopen
    refine wp_mono (wp_and (onWrite_shut hs hlight buf) (onWrite_open hopen' buf)) (fun _ w' hw' => ?_) fun _ _ h => h.1
    exact ⟨fun _ => hw', fun _ => hw'⟩
  idle h _ := h
  release h hwriting hclosed hp := by
    refine ⟨(gwHost_writes (e := e) hok hs hw₀).release h.1 hwriting hclosed hp, ?_⟩
    rw [World.setSess_sess, hp]
    exact h.2
  written hopen hclosing h := by
    have hopen' := h.elim (fun h => h.1.2) fun h => h.1.2
    exact absurd (hopen'.symm.trans hclosing) (by decide)

/-- a new key for a session whose handshake is done -/
theorem sendKeySyn_checks (hok : ReentryOk rec) (hs : s ∈ S) (hw : w.Ready S)
    (hdone : (w.sess s).proto.flags.handshakeDone = true) :
    wp (sendKeySyn (gwHost e rec s)) (fun _ w' => Checks S s w w') Faulty w := by
  by_cases hclosing : (w.sess s).proto.flags.closing = true
  · unfold sendKeySyn
    simp only [wp_bind, Host.wp_get, wp_ite, wp_pure]
    exact ⟨fun _ => .refl w, fun hopen => absurd hclosing hopen⟩
  · have hcalm := (gwHost_writes_open (e := e) hok hs hw).calm
    have hends : (gwHost e rec s).Ends (fun w' => Shut S w w' ∧ (w'.sess s).proto.flags.closing = false) Faulty
        Host.Guard.free :=
      { hcalm with
        done := fun h hopen => absurd (((h.1.kept s).done.trans hdone).symm.trans hopen) (by decide)
        updateFn := fun f hf status w' h => by
          cases hf
          exact h
        finishCalm := hcalm.free }
    have hopen : (w.sess s).proto.flags.closing = false := Bool.not_eq_true _ ▸ hclosing
    exact wp_post (hends.sendKeySyn ⟨.refl w, hopen⟩ fun _ _ => trivial) fun _ _ h => ⟨h.1, .inl fun _ => h.2⟩

/-! ## Limits -/

/-- one test of a check that started in `w₀`, with `tests` still to be made. Up to the first close the session is as it was;
`T` is that some test closes it, `F` that another one follows then -/
structure Testing (S : Set ℕ) (w₀ : World) (s : ℕ) (T F : Prop) (tests : List (Bool × (GwConf → Limit → Bool))) (w : World) :
    Prop where
  shut : Shut S w₀ w
  phase : w.sess s = w₀.sess s ∧ w.conf = w₀.conf ∧ (trips w₀.conf (w₀.sess s).limit tests = true → T) ∧
        (tripsFirst w₀.conf (w₀.sess s).limit tests = true → F) ∨
    T ∧ (tests.any Prod.fst = true → F)

/-- a test that does not close the session -/
theorem Testing.skip {T F : Prop} {t : Bool × (GwConf → Limit → Bool)} {tests : List (Bool × (GwConf → Limit → Bool))}
    (h : Testing S w₀ s T F (t :: tests) w) : Testing S w₀ s T F tests w := by
  refine ⟨h.shut, h.phase.imp (fun ⟨hsess, hconf, ht, hf⟩ => ⟨hsess, hconf, fun hrest => ht ?_, fun hrest => hf ?_⟩)
    fun ⟨ht, hf⟩ => ⟨ht, fun hrest => hf ?_⟩⟩
  · simp only [trips, List.any_cons] at hrest ⊢
    rw [hrest, Bool.or_true]
  · simp only [tripsFirst, hrest, Bool.or_true]
  · simp only [List.any_cons, hrest, Bool.or_true]

theorem limitCheck_testing (hok : ReentryOk rec) (hs : s ∈ S) (hw₀ : w₀.Ready S) (howner : (w₀.sess s).owner = true)
    {T F : Prop} (hT : T → ∃ x ∈ w₀.history, Blames s x)
    (hF : F → (w₀.sess s).flags.hasFd = true → ∃ x ∈ w₀.history, Orphans x) {t : Bool × (GwConf → Limit → Bool)}
    {tests : List (Bool × (GwConf → Limit → Bool))} (h : Testing S w₀ s T F (t :: tests) w) :
    wp (limitCheck rec s t.1 t.2) (fun _ w' => Testing S w₀ s T F tests w') Faulty w := by
  have hclose : ∀ P : World → Prop, T → (∀ w', Shut S w w' → P w') →
      wp (rec.close s EN_CRT_TRAFIC_EXTENDED) (fun _ => P) Faulty w := fun P ht hP =>
    wp_post (hok.close _ hs (h.shut.ready hw₀) (World.Cause.shut (.inl (hT ht)) h.shut)) fun _ w' h' => hP w' h'
  unfold limitCheck
  simp only [wp_ite, wp_bind, wp_getSess, wp_get, wp_pure, wp_throw, Bool.not_eq_true]
  refine ⟨fun hmade => ⟨fun _ => ⟨fun hexc => ?_, fun _ => h.skip⟩, fun hlost => ?_⟩, fun _ => h.skip⟩
  · -- the limit is exceeded
    rcases h.phase with ⟨hsess, hconf, ht, hf⟩ | ⟨ht, hf⟩
    · rw [hsess, hconf] at hexc
      have htrip : T := ht (by simp only [trips, List.any_cons, hmade, hexc, Bool.and_self, Bool.true_or])
      refine hclose _ htrip fun w' h' => ⟨h.shut.trans h', .inr ⟨htrip, fun hrest => hf ?_⟩⟩
      simp only [tripsFirst, hmade, hexc, hrest, Bool.and_self, Bool.true_or]
    · refine hclose _ ht fun w' h' => ⟨h.shut.trans h', .inr ⟨ht, fun hrest => hf ?_⟩⟩
      simp only [List.any_cons, hrest, Bool.or_true]
  · -- the owner is gone
    intro _
    rcases h.phase with ⟨hsess, -⟩ | ⟨ht, hf⟩
    · rw [hsess, howner] at hlost
      exact absurd hlost (by decide)
    · have hfd : (w₀.sess s).flags.hasFd = true := by
        rcases h.shut.socket s with ⟨howner', -⟩ | ⟨hfd, -⟩
        · exact absurd ((howner'.trans howner).symm.trans hlost) (by decide)
        · exact hfd
      obtain ⟨x, hx, horphan⟩ := hF (hf (by simp only [List.any_cons, hmade, Bool.true_or])) hfd
      exact ⟨x, h.shut.older.history.subset hx, horphan⟩

section checks

variable {period : Period} {checkRecv checkSend : Bool} {tests : List (Bool × (GwConf → Limit → Bool))} {w' : World}

/-- the tests of a check that is called in `w` -/
def Checking (S : Set ℕ) (w : World) (s : ℕ) (period : Period) (checkRecv checkSend : Bool) :
    List (Bool × (GwConf → Limit → Bool)) → World → Prop :=
  Testing S (w.recorded (.check s period checkRecv checkSend)) s (w.Trips s period checkRecv checkSend)
    ((w.sess s).flags.hasFd = true → w.TripsFirst s period checkRecv checkSend)

theorem checking_start (htested : w.Tested s period) : Checking S w s period checkRecv checkSend
    (limitTests checkRecv checkSend period) (w.recorded (.check s period checkRecv checkSend)) :=
  ⟨.refl _, .inl ⟨rfl, rfl, fun h => ⟨htested, h⟩, fun h hfd => ⟨htested, hfd, h⟩⟩⟩

theorem Checking.checks (h : Checking S w s period checkRecv checkSend tests w') : Checks S s w w' := by
  refine ⟨(Shut.check ..).trans (Testing.shut h), ?_⟩
  rcases Testing.phase h with ⟨hsess, -⟩ | ⟨htrip, -⟩
  · exact .inl fun hopen => by rwa [hsess]
  · have hmem : (w.toCore, Step.check s period checkRecv checkSend) ∈
        (w.recorded (.check s period checkRecv checkSend)).history := List.mem_append_right _ (List.mem_singleton_self _)
    exact .inr ⟨_, (Testing.shut h).older.history.subset hmem, rfl, htrip⟩

theorem limitCheck_checking (hok : ReentryOk rec) (hs : s ∈ S) (hw : w.Ready S) (howner : (w.sess s).owner = true)
    {t : Bool × (GwConf → Limit → Bool)} (h : Checking S w s period checkRecv checkSend (t :: tests) w') :
    wp (limitCheck rec s t.1 t.2) (fun _ w'' => Checking S w s period checkRecv checkSend tests w'') Faulty w' := by
  have hmem : (w.toCore, Step.check s period checkRecv checkSend) ∈
      (w.recorded (.check s period checkRecv checkSend)).history := List.mem_append_right _ (List.mem_singleton_self _)
  exact limitCheck_testing hok hs (hw.recorded _) howner (fun ht => ⟨_, hmem, rfl, ht⟩) (fun hf hfd => ⟨_, hmem, hf hfd⟩) h

theorem checks_recorded (w : World) (s : ℕ) (period : Period) (checkRecv checkSend : Bool) :
    Checks S s w (w.recorded (.check s period checkRecv checkSend)) := .of_same (.check ..) rfl

/-- the counters start again in a new period, those for all time apart -/
theorem checks_setLimit (hs : s ∈ S) (w : World) {l : Limit} (h : l.total.recvTimes = (w.sess s).limit.total.recvTimes) :
    Checks S s w (w.setSess s ((w.sess s).setLimit l)) := by
  refine .of_same (.light hs (Session.light_setLimit h)) ?_
  rw [World.setSess_sess]
  rfl

theorem checkHourLimit_checks (hok : ReentryOk rec) (hs : s ∈ S) (hw : w.Ready S) :
    wp (checkHourLimit rec s checkRecv checkSend) (fun _ w' => Checks S s w w') Faulty w := by
  have hrec : Checks S s w _ := checks_recorded w s .hour checkRecv checkSend
  unfold checkHourLimit
  rw [wp_bind, wp_record]
  simp only [wp_bind, wp_get, wp_getSess, wp_ite, wp_modifySess, wp_pure, Bool.not_eq_true, not_not, Bool.not_eq_false]
  refine ⟨fun _ => hrec.trans (checks_setLimit hs _ rfl), fun hnow => ⟨fun _ => hrec, fun howner =>
    ⟨fun _ => hrec, fun hopen => ?_⟩⟩⟩
  have hstep := fun {t tests w'} (h : Checking S w s .hour checkRecv checkSend (t :: tests) w') =>
    limitCheck_checking hok hs hw howner h
  refine wp_post (hstep (checking_start ⟨hnow, howner, hopen⟩)) fun _ _ h₁ => wp_post (hstep h₁) fun _ _ h₂ => ?_
  exact wp_post (hstep h₂) fun _ _ h₃ => wp_post (hstep h₃) fun _ _ h₄ => h₄.checks

theorem checkTotalLimit_checks (hok : ReentryOk rec) (hs : s ∈ S) (hw : w.Ready S) :
    wp (checkTotalLimit rec s checkRecv checkSend) (fun _ w' => Checks S s w w') Faulty w := by
  have hrec : Checks S s w _ := checks_recorded w s .total checkRecv checkSend
  unfold checkTotalLimit
  rw [wp_bind, wp_record]
  simp only [wp_bind, wp_getSess, wp_ite, wp_pure, Bool.not_eq_true, Bool.not_eq_false]
  refine ⟨fun _ => hrec, fun howner => ⟨fun _ => hrec, fun hopen => ?_⟩⟩
  have hstep := fun {t tests w'} (h : Checking S w s .total checkRecv checkSend (t :: tests) w') =>
    limitCheck_checking hok hs hw howner h
  refine wp_post (hstep (checking_start ⟨trivial, howner, hopen⟩)) fun _ _ h₁ => wp_post (hstep h₁) fun _ _ h₂ => ?_
  exact wp_post (hstep h₂) fun _ _ h₃ => wp_post (hstep h₃) fun _ _ h₄ => h₄.checks

theorem updateKey_checks (hok : ReentryOk rec) (hs : s ∈ S) (hw : w.Ready S)
    (hdone : (w.sess s).proto.flags.handshakeDone = true) :
    wp (updateKey e rec s) (fun _ w' => Checks S s w w') Faulty w := by
  unfold updateKey
  simp only [wp_bind, wp_get, wp_getSess, wp_ite, wp_modifySess, wp_pure]
  refine ⟨fun _ => ?_, fun _ => .refl w⟩
  have hlimit := checks_setLimit hs w
    (l := { (w.sess s).limit with updateHandshakeTimepoint := w.now + w.conf.crypt.updateInterval }) rfl
  refine wp_post (sendKeySyn_checks hok hs (hlimit.shut.ready hw) ?_) fun _ _ h => hlimit.trans h
  exact (hlimit.shut.kept s).done.trans hdone

theorem checkMinuteLimit_checks (hok : ReentryOk rec) (hs : s ∈ S) (hw : w.Ready S)
    (hdone : (w.sess s).proto.flags.handshakeDone = true) :
    wp (checkMinuteLimit e rec s checkRecv checkSend) (fun _ w' => Checks S s w w') Faulty w := by
  have hrec : Checks S s w _ := checks_recorded w s .minute checkRecv checkSend
  have hmem : (w.toCore, Step.check s .minute checkRecv checkSend) ∈
      (w.recorded (.check s .minute checkRecv checkSend)).history := List.mem_append_right _ (List.mem_singleton_self _)
  unfold checkMinuteLimit
  rw [wp_bind, wp_record]
  simp only [wp_bind, wp_get, wp_getSess, wp_ite, wp_modifySess, wp_pure, Bool.not_eq_true, not_not, Bool.not_eq_false]
  refine ⟨fun _ => hrec.trans (checks_setLimit hs _ rfl), fun hnow => ⟨fun _ => hrec, fun howner =>
    ⟨fun _ => hrec, fun hopen => ⟨fun hexc => ?_, fun _ => ?_⟩⟩⟩⟩
  · have htrip : w.Trips s .minute checkRecv checkSend := by
      refine ⟨⟨hnow, howner, hopen⟩, ?_⟩
      simp only [limitTests, trips, List.any_cons, Bool.true_and]
      rw [hexc, Bool.true_or]
    refine wp_post (hok.close _ hs (hw.recorded _) (.inl ⟨_, hmem, rfl, htrip⟩)) fun _ _ h => ⟨hrec.shut.trans h, .inr ?_⟩
    exact ⟨_, h.older.history.subset hmem, rfl, htrip⟩
  · exact wp_post (updateKey_checks hok hs (hw.recorded _) hdone) fun _ _ h => hrec.trans h

theorem checkLimits_checks (hok : ReentryOk rec) (hs : s ∈ S) (hw : w.Ready S)
    (hdone : (w.sess s).proto.flags.handshakeDone = true) :
    wp (checkLimits e rec s checkRecv checkSend) (fun _ w' => Checks S s w w') Faulty w := by
  unfold checkLimits
  simp only [wp_bind]
  refine wp_post (checkHourLimit_checks hok hs hw) fun _ w₁ h₁ => ?_
  refine wp_post (checkMinuteLimit_checks hok hs (h₁.shut.ready hw) ((h₁.shut.kept s).done.trans hdone)) fun _ w₂ h₂ => ?_
  exact wp_post (checkTotalLimit_checks hok hs ((h₁.trans h₂).shut.ready hw)) fun _ w₃ h₃ => (h₁.trans h₂).trans h₃

end checks

/-! ## Notices -/

/-- the result of a notice: it was not sent, or it was sent and the limits were checked -/
def Sent (S : Set ℕ) (s : ℕ) (body : SsBody) (w : World) (ret : ℤ) (w' : World) : Prop :=
  ret < 0 ∧ w' = w ∨ ret ≤ 0 ∧ ∃ len, Checks S s (w.noticed s body len ret) w'

theorem sendToServer_sent (hok : ReentryOk rec) (hs : s ∈ S) (hw : w.Ready S)
    (hdone : (w.sess s).proto.flags.handshakeDone = true) (body : SsBody) (mgr : Bool) :
    wp (sendToServer e rec s body mgr) (Sent S s body w) Faulty w := by
  unfold sendToServer
  simp only [wp_bind, wp_getSess, wp_ite, wp_pure]
  refine ⟨fun _ => .inl ⟨by decide, rfl⟩, fun _ => ⟨fun _ => .inl ⟨by decide, rfl⟩, fun _ => ?_⟩⟩
  cases e.serialize (w.sess s).id body with
  | none => exact .inl ⟨by decide, rfl⟩
  | some len =>
    unfold sendData
    simp only [wp_bind, wp_modifySess, wp_get, wp_modify, wp_pure]
    have hnotice : (w.noticed s body len (e.sendData w.sent.length)).Ready S :=
      hw.after (w.older_noticed _ _ _ _) (World.kept_modSess (Session.kept_noticed len) w s)
    refine wp_post (checkLimits_checks hok hs hnotice ?_) fun _ w' h => .inr ⟨e.sendData_le _, len, h⟩
    exact (World.kept_modSess (Session.kept_noticed len) w s s).done.trans hdone

theorem sendRemoveSession_shut (hok : ReentryOk rec) (hs : s ∈ S) (hw : w.Ready S) (mgr : Bool)
    (hreg : (w.sess s).flags.registered = true) (hrec : (w.sess s).flags.reconnected = false)
    (hwait : (w.sess s).flags.waitReconnect = false) :
    wp (sendRemoveSession e rec s mgr) (fun _ w' => Shut S w w') Faulty w := by
  unfold sendRemoveSession
  simp only [wp_bind, wp_getSess, wp_ite, wp_pure, wp_modifySess, hreg, not_true_eq_false, false_implies, true_and]
  refine fun _ => wp_post (sendToServer_sent hok hs hw (hw.known s hreg) _ mgr) fun ret w₁ h => ?_
  rcases h with ⟨hret, rfl⟩ | ⟨-, len, h⟩
  · exact ⟨fun h0 => absurd h0 hret.ne, fun _ => .refl _⟩
  · have hremove := Shut.remove hs hreg hrec hwait h.shut
    refine ⟨fun h0 => ?_, fun hne => ?_⟩
    · rwa [if_pos h0] at hremove
    · rwa [if_neg hne] at hremove

/-! ## Closing -/

/-- `close_fd`: nothing without a socket, else the socket is lost first and the owner last -/
theorem closeFd_wp (hok : ReentryOk rec) (hs : s ∈ S) (hw : w.Ready S) (reason : ℤ) {Q : ℤ → World → Prop}
    (hdead : ¬ ((w.sess s).flags.hasFd = true ∧ (w.sess s).flags.closingFd = false) → Q 0 w)
    (hlive : (w.sess s).flags.hasFd = true → (w.sess s).flags.closingFd = false → ∀ w₁,
      Shut S (w.modSess s Session.loseFd) w₁ → (w₁.sess s).proto.flags.closing = true →
        Q 0 ((w₁.modSess s Session.dropOwner).modSess s Session.shutdownIfClosed)) :
    wp (closeFd e rec s reason) Q Faulty w := by
  unfold closeFd
  simp only [wp_bind, wp_getSess, wp_ite, wp_pure, wp_modifySess, Bool.not_eq_true]
  refine ⟨fun hclosing => hdead fun h => ?_, fun hopen => ⟨fun hfd => ?_, fun hlost => hdead fun h => ?_⟩⟩
  · exact absurd (hclosing.symm.trans h.2) (by decide)
  · have hready : (w.modSess s Session.loseFd).Ready S := hw.modSess Session.kept_loseFd s
    have hlost : ((w.modSess s Session.loseFd).sess s).flags.hasFd = false := by
      rw [World.modSess_sess]
      rfl
    exact wp_post (close_object hok hs hready hlost reason true) fun _ w₁ ⟨h₁, hclosing⟩ => hlive hfd hopen w₁ h₁ hclosing
  · exact absurd (hlost.symm.trans h.1) (by decide)

theorem closeWithManager_shut (hok : ReentryOk rec) (hs : s ∈ S) (hw : w.Ready S) (hcause : w.Cause s) (reason : ℤ)
    (mgr : Bool) : wp (closeWithManager e rec s reason mgr)
      (fun _ w' => Shut S w w' ∧ (w'.sess s).flags.closing = true) Faulty w := by
  have hrest : ∀ w₁, Shut S w w₁ → wp (do
      let x ← getSess s
      if x.flags.closing then return 0
      else
        modifySess s fun x => x.setFlags { x.flags with closing := true }
        closeFd e rec s reason) (fun _ w' => Shut S w w' ∧ (w'.sess s).flags.closing = true) Faulty w₁ := by
    intro w₁ h₁
    simp only [wp_bind, wp_getSess, wp_ite, wp_pure, wp_modifySess, Bool.not_eq_true]
    refine ⟨fun hclosing => ⟨h₁, hclosing⟩, fun hopen => ?_⟩
    have hready : (w₁.modSess s Session.markClosing).Ready S := (h₁.ready hw).modSess Session.kept_markClosing s
    have hmarked : ((w₁.modSess s Session.markClosing).sess s).flags.closing = true := by
      rw [World.modSess_sess]
      rfl
    refine closeFd_wp hok hs hready reason (fun hdead => ⟨?_, hmarked⟩) fun hfd hclosing w₂ h₂ hproto => ⟨?_, ?_⟩
    · rw [World.modSess_sess] at hdead
      exact h₁.trans (.closeDead hs (hcause.shut h₁) hopen hdead)
    · rw [World.modSess_sess] at hfd hclosing
      rw [World.modSess_modSess] at h₂
      exact (h₁.trans (.close hs (hcause.shut h₁) hopen hfd hclosing h₂ hproto)).trans
        (.light hs (Session.light_shutdownIfClosed _))
    · rw [World.modSess_sess, World.modSess_sess]
      have hkept := (h₂.kept s).closing ((World.kept_modSess Session.kept_loseFd _ s s).closing hmarked)
      exact ((Session.kept_dropOwner _).trans (Session.light_shutdownIfClosed _).kept).closing hkept
  unfold closeWithManager
  simp only [wp_bind, wp_getSess, wp_ite, wp_pure, Bool.not_eq_true]
  simp only [wp_bind, wp_getSess, wp_ite, wp_pure, Bool.not_eq_true] at hrest
  refine ⟨fun ⟨hreg, hrec, hwait⟩ => ?_, fun _ => hrest w (.refl w)⟩
  exact wp_post (sendRemoveSession_shut hok hs hw mgr hreg hrec hwait) fun _ w₁ h₁ => hrest w₁ h₁

theorem sessionClose_shut (hok : ReentryOk rec) (hs : s ∈ S) (hw : w.Ready S) (hcause : w.Cause s) (reason : ℤ) :
    wp (sessionClose e rec s reason) (fun _ w' => Shut S w w' ∧ (w'.sess s).flags.closing = true) Faulty w := by
  unfold sessionClose
  simp only [wp_bind, wp_getSess]
  exact closeWithManager_shut hok hs hw hcause reason _

/-- **`session_manager::close`** is a `Shut`, and its entry is gone behind it; without a reconnect nothing takes its place. -/
theorem managerClose_shut (hok : ReentryOk rec) (hw : w.Ready S) (id : UInt64)
    (hscope : ∀ x, (w.actived.lookup id = some x ∨ w.reconnectCache.lookup id = some x) → x ∈ S) (reason : ℤ) (allow : Bool) :
    wp (managerClose e rec id reason allow) (fun _ w' => Shut S w w' ∧ w'.actived.lookup id = none ∧
      (allow = false → w.actived.lookup id ≠ none → w'.held < w.held)) Faulty w := by
  have hready : (w.recorded (.managerClose id reason allow)).Ready S := hw.recorded _
  have hmem : (w.toCore, Step.managerClose id reason allow) ∈ (w.recorded (.managerClose id reason allow)).history :=
    List.mem_append_right _ (List.mem_singleton_self _)
  unfold managerClose
  rw [wp_bind, wp_record]
  simp only [wp_bind, wp_get]
  cases hlook : w.actived.lookup id with
  | none =>
    simp only [wp_ite, wp_pure]
    refine ⟨fun hallow => ⟨.miss reason hw.known hlook (.inl hallow), hlook, fun _ h => absurd rfl h⟩, fun hallow => ?_⟩
    rw [Bool.not_eq_true] at hallow
    subst hallow
    unfold closeCached
    simp only [wp_bind, wp_get]
    cases hcache : w.reconnectCache.lookup id with
    | none =>
      simp only [wp_pure]
      exact ⟨.miss reason hw.known hlook (.inr hcache), hlook, fun _ h => absurd rfl h⟩
    | some s =>
      simp only [wp_bind, wp_modifySess, wp_pure]
      have hs : s ∈ S := hscope s (.inr hcache)
      refine wp_post (sessionClose_shut hok hs hready (.inl ⟨_, hmem, .inr ⟨rfl, hlook, hcache⟩⟩) reason) fun _ w₁ hclose => ?_
      obtain ⟨h₁, hclosing⟩ := hclose
      unfold eraseCache
      simp only [wp_bind, wp_get, wp_ite, wp_modify, wp_throw]
      refine ⟨fun hfound => ?_, fun _ => faulty_of_ne (by decide)⟩
      have hdrop : Shut S w ((w₁.modSess s (Session.setWaiting false)).dropCached id) :=
        .dropCached hw.known hlook hcache hs h₁ hclosing hfound
      exact ⟨hdrop, hdrop.older.lookup_none hlook, fun _ h => absurd rfl h⟩
  | some s =>
    have hs : s ∈ S := hscope s (.inl hlook)
    simp only [wp_bind, wp_ite, wp_pure]
    unfold eraseActived
    simp only [wp_bind, wp_get, wp_ite, wp_modify, wp_throw]
    refine ⟨fun hwait => ?_, fun hno => ?_⟩
    · obtain ⟨htime, rfl⟩ := hwait
      unfold waitReconnect
      simp only [wp_bind, wp_modify, wp_modifySess]
      have hstart : ((w.recorded (.managerClose id reason true)).startWait s).Ready S :=
        hready.after (World.older_startWait hlook hs htime) (World.kept_startWait _ s)
      refine closeFd_wp hok hs hstart reason
        (fun hdead => ⟨fun hfound => ⟨?_, ?_, fun h => Bool.noConfusion h⟩, fun _ => faulty_of_ne (by decide)⟩)
        fun hfd hclosing w₁ h₁ hproto => ⟨fun hfound => ⟨?_, ?_, fun h => Bool.noConfusion h⟩, fun _ => faulty_of_ne (by decide)⟩
      · refine .waitDead hw.known hlook hs htime ?_
        rw [World.startWait, World.modSess_sess] at hdead
        exact hdead
      · exact AList.lookup_erase _ _
      · have hsess : ((w.recorded (.managerClose id reason true)).startWait s).sess s = (w.sess s).setWaiting true :=
          World.modSess_sess
        rw [hsess] at hfd hclosing
        exact (Shut.wait hw.known hlook hs htime hfd hclosing h₁ hproto hfound).trans
          (.light hs (w := (w₁.modSess s Session.dropOwner).dropActived id) (Session.light_shutdownIfClosed _))
      · exact AList.lookup_erase _ _
    · refine wp_post (sessionClose_shut hok hs hready (.inl ⟨_, hmem, .inl hlook⟩) reason) fun _ w₁ hclose => ?_
      obtain ⟨h₁, hclosing⟩ := hclose
      refine ⟨fun hfound => ⟨.drop hw.known hlook hs hno h₁ hclosing hfound, AList.lookup_erase _ _, fun _ _ => ?_⟩,
        fun _ => faulty_of_ne (by decide)⟩
      exact (World.held_dropActived hfound).le.trans h₁.held

/-- it stays in every set of sessions that it does not lead out of -/
theorem managerClose_all (hok : ReentryOk rec) (hknown : w.Known) (id : UInt64) (reason : ℤ) (allow : Bool) :
    wp (managerClose e rec id reason allow) (fun _ w' => ∀ S : Set ℕ, w.Scope S →
      (∀ x, (w.actived.lookup id = some x ∨ w.reconnectCache.lookup id = some x) → x ∈ S) → Shut S w w') Faulty w := by
  let Scopes := { S : Set ℕ // w.Scope S ∧ ∀ x, (w.actived.lookup id = some x ∨ w.reconnectCache.lookup id = some x) → x ∈ S }
  have : Nonempty Scopes := ⟨⟨Set.univ, .univ w.toCore, fun _ _ => trivial⟩⟩
  have hall : ∀ S : Scopes, wp (managerClose e rec id reason allow) (fun _ w' => Shut S.1 w w') Faulty w := fun S =>
    wp_post (managerClose_shut hok ⟨S.2.1, hknown⟩ id S.2.2 reason allow) fun _ _ h => h.1
  exact wp_post (wp_forall hall) fun _ w' h S hscope hid => h ⟨S, hscope, hid⟩

theorem onClose_shut (hok : ReentryOk rec) (hs : s ∈ S) (hw : w.Ready S) (hproto : (w.sess s).proto.flags.closing = true)
    (reason : ℤ) : wp (onClose e rec s reason) (fun _ w' => Shut S w w') Faulty w := by
  have hclose : ∀ w₁, Shut S w w₁ → wp (sessionClose e rec s reason >>= fun _ => pure (0 : ℤ))
      (fun _ w' => Shut S w w') Faulty w₁ := fun w₁ h₁ =>
    (wp_bind _ _).2 (wp_post (sessionClose_shut hok hs (h₁.ready hw) (World.Cause.shut (.inr (.inr hproto)) h₁) reason)
      fun _ w₂ h₂ => h₁.trans h₂.1)
  unfold onClose
  simp only [wp_bind, wp_getSess, wp_ite, wp_pure]
  simp only [wp_bind, wp_pure] at hclose
  refine ⟨fun _ => .refl w, fun _ => ⟨fun _ => ?_, fun _ => hclose w (.refl w)⟩⟩
  refine wp_post (managerClose_shut hok hw _ (hw.scope s hs) reason _) fun ret w₁ ⟨h₁, _⟩ => ⟨fun _ => hclose w₁ h₁, fun _ => h₁⟩

/-- **The re-entrant functions**, at every depth. -/
theorem reentry_ok (e : GwEnv) (n : ℕ) : ReentryOk (reentry e n) := by
  induction n with
  | zero => exact ⟨fun _ _ _ _ => faulty_of_ne (by decide), fun _ _ _ _ => faulty_of_ne (by decide)⟩
  | succ n ih =>
    refine ⟨fun reason hs hw hcause => ?_, fun reason hs hw hproto => onClose_shut ih hs hw hproto reason⟩
    exact wp_post (sessionClose_shut ih hs hw hcause reason) fun _ _ h => h.1

end AtFrame.Gateway
