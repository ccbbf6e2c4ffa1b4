/-
What the receive counters of a session count.

`send_to_server` counts the add and remove notices of a session; `message_fn` posts what a client sends without counting it.
`Core.debt` is what `total_recv_times` shows beyond the session's own notices and beyond what `init_reconnect` copied into it,
modulo the width of the counter. No step of the gateway changes it, so that a POST is never counted, and no limit for received
data sees one.

- `Shut.debt`, `Path.debt`: closings and messages;
- `Walk.balanced`: every session, over whole runs;
- `run_accounted`: the counters cover the POSTs of a session exactly as long as there is none.

The runs are those that end without a fault; nothing else is assumed of them.
-/
import Mathlib.Data.ZMod.Basic
import AtFrame.Gateway.NullOwner

namespace AtFrame.Gateway

open AtFrame.Lib

/-! ## Counting -/

/-- the values of a `size_t` counter, with its arithmetic -/
abbrev SizeT := ZMod (2 ^ 64)

theorem cast_addSizeT (a b : ℕ) : (addSizeT a b : SizeT) = a + b := by
  rw [addSizeT, ZMod.natCast_mod, Nat.cast_add]

/-- an add or remove notice of the session, whether it was sent or not -/
def Notice.own (s : ℕ) (n : Notice) : Bool :=
  match n.body with
  | .addSession _ | .removeSession _ => n.sender = some s
  | _ => false

/-- the length of a POST of the session that was forwarded -/
def Notice.forwards (s : ℕ) (n : Notice) : Option ℕ :=
  match n.body with
  | .post _ _ len => if n.sender = some s ∧ n.ret = 0 then some len else none
  | _ => none

/-- the POSTs of a session that were forwarded, by their lengths -/
def posts (s : ℕ) (sent : List Notice) : List ℕ := sent.filterMap (Notice.forwards s)

def told (s : ℕ) (sent : List Notice) : ℕ := sent.countP (Notice.own s)

/-- what a counter of the session gained from the one that it took over -/
def gained (counter : Traffic → ℕ) (s : ℕ) : Core × Step → SizeT
  | (c, .initReconnect t old) =>
    if t = s then (counter (c.sess old).limit.total : SizeT) - counter (c.sess s).limit.total else 0
  | _ => 0

theorem gained_eq_zero {counter : Traffic → ℕ} {t : ℕ} {c : Core} {step : Step} (h : ∀ s old, step ≠ .initReconnect s old) :
    gained counter t (c, step) = 0 := by
  cases step with
  | initReconnect s old => exact absurd rfl (h s old)
  | _ => rfl

def inherited (counter : Traffic → ℕ) (s : ℕ) (history : List (Core × Step)) : SizeT := (history.map (gained counter s)).sum

/-- what a counter of the session counted since it was accepted -/
def World.counted (counter : Traffic → ℕ) (w : World) (s : ℕ) : SizeT :=
  counter (w.sess s).limit.total - inherited counter s w.history

/-- what `total_recv_times` shows beyond the notices of the session -/
@[irreducible] def World.debt (w : World) (s : ℕ) : SizeT := w.counted Traffic.recvTimes s - told s w.sent

variable {e : GwEnv} {P : Permit} {S : Set ℕ} {w w' : World} {s t : ℕ}

theorem told_snoc (s : ℕ) (sent : List Notice) (n : Notice) :
    told s (sent ++ [n]) = told s sent + if n.own s then 1 else 0 := by
  rw [told, List.countP_append, List.countP_singleton]
  rfl

theorem inherited_snoc (counter : Traffic → ℕ) (s : ℕ) (history : List (Core × Step)) (x : Core × Step) :
    inherited counter s (history ++ [x]) = inherited counter s history + gained counter s x := by
  rw [inherited, List.map_append, List.sum_append, List.map_singleton, List.sum_singleton]
  rfl

/-! ## Closings -/

/-- nothing that counts -/
theorem World.debt_same (htimes : (w'.sess t).limit.total.recvTimes = (w.sess t).limit.total.recvTimes)
    (hsent : told t w'.sent = told t w.sent)
    (hhistory : inherited Traffic.recvTimes t w'.history = inherited Traffic.recvTimes t w.history) : w'.debt t = w.debt t := by
  unfold World.debt World.counted
  rw [htimes, hsent, hhistory]

/-- only maps, lists and the clock differ -/
theorem World.debt_congr (hsess : w'.sess = w.sess) (hsent : w'.sent = w.sent) (hhistory : w'.history = w.history) :
    w'.debt t = w.debt t :=
  World.debt_same (by rw [hsess]) (by rw [hsent]) (by rw [hhistory])

theorem World.debt_recorded {step : Step} (h : ∀ s old, step ≠ .initReconnect s old) : (w.recorded step).debt t = w.debt t := by
  refine World.debt_same rfl rfl ((inherited_snoc _ _ _ _).trans ?_)
  rw [gained_eq_zero h, add_zero]

theorem World.debt_setSess {x : Session} (h : x.limit.total.recvTimes = (w.sess s).limit.total.recvTimes) :
    (w.setSess s x).debt t = w.debt t := by
  refine World.debt_same ?_ rfl rfl
  by_cases hts : t = s
  · subst hts
    rw [World.setSess_sess]
    exact h
  · rw [World.setSess_sess_ne hts]

theorem World.debt_modSess {f : Session → Session} (hf : ∀ x, (f x).limit.total.recvTimes = x.limit.total.recvTimes)
    (w : World) (s : ℕ) : (w.modSess s f).debt t = w.debt t := World.debt_setSess (hf _)

/-- a notice of the session is counted -/
theorem World.debt_noticed (w : World) (s : ℕ) {body : SsBody} (len : ℕ) (ret : ℤ)
    (hown : ∀ t, Notice.own t ⟨some s, (w.sess s).id, (w.sess s).router, body, ret⟩ = decide (s = t)) (t : ℕ) :
    (w.noticed s body len ret).debt t = w.debt t := by
  by_cases hts : t = s
  · subst hts
    unfold World.debt World.counted
    rw [World.noticed_sess]
    show ((addSizeT (w.sess t).limit.total.recvTimes 1 : ℕ) : SizeT) - _ - (told t (w.sent ++ [_]) : ℕ) = _
    rw [cast_addSizeT, told_snoc, hown, if_pos (decide_eq_true rfl), Nat.cast_add]
    show (_ : SizeT) + (1 : ℕ) - inherited _ t w.history - _ = _
    ring
  · refine World.debt_same (congrArg (fun x => x.limit.total.recvTimes) (World.noticed_sess_ne hts _ _ _)) ?_ rfl
    show told t (w.sent ++ [_]) = _
    rw [told_snoc, hown, decide_eq_false (Ne.symm hts)]
    exact add_zero _

theorem own_add (s : ℕ) (id target : UInt64) (peer : Peer) (ret : ℤ) (t : ℕ) :
    Notice.own t ⟨some s, id, target, .addSession peer, ret⟩ = decide (s = t) := by
  simp only [Notice.own, Option.some.injEq]

theorem own_remove (s : ℕ) (id target : UInt64) (peer : Peer) (ret : ℤ) (t : ℕ) :
    Notice.own t ⟨some s, id, target, .removeSession peer, ret⟩ = decide (s = t) := by
  simp only [Notice.own, Option.some.injEq]

theorem World.debt_startWait (w : World) (s : ℕ) : (w.startWait s).debt t = w.debt t := by
  have hsame : (w.startWait s).debt t = (w.modSess s (Session.setWaiting true)).debt t := World.debt_congr rfl rfl rfl
  exact hsame.trans (World.debt_modSess (f := Session.setWaiting true) (fun _ => rfl) w s)

theorem World.debt_dropActived (w : World) (id : UInt64) : (w.dropActived id).debt t = w.debt t := World.debt_congr rfl rfl rfl

theorem World.debt_dropCached (w : World) (id : UInt64) : (w.dropCached id).debt t = w.debt t := World.debt_congr rfl rfl rfl

theorem World.debt_enrolled (w : World) (s : ℕ) : (w.enrolled s).debt t = w.debt t := World.debt_congr rfl rfl rfl

theorem World.debt_managerClose (w : World) (id : UInt64) (reason : ℤ) (allow : Bool) :
    (w.recorded (.managerClose id reason allow)).debt t = w.debt t := World.debt_recorded fun _ _ h => nomatch h

theorem Shut.debt (h : Shut S w w') (t : ℕ) : w'.debt t = w.debt t := by
  induction h with
  | refl => rfl
  | trans _ _ ih ih' => exact ih'.trans ih
  | wrote => exact World.debt_congr rfl rfl rfl
  | check => exact World.debt_recorded fun _ _ h => nomatch h
  | miss => exact World.debt_managerClose _ _ _ _
  | light _ hx => exact World.debt_setSess hx.recvTimes
  | object => exact World.debt_setSess rfl
  | @close w w₁ s _ _ _ _ _ _ _ ih =>
    rw [World.debt_modSess (f := Session.dropOwner) fun _ => rfl, ih]
    exact World.debt_modSess (f := fun x => x.markClosing.loseFd) (fun _ => rfl) w s
  | @closeDead w s => exact World.debt_modSess (f := Session.markClosing) (fun _ => rfl) w s
  | @remove w w₁ s len ret _ _ _ _ _ ih =>
    have hmid := ih.trans (w.debt_noticed s len ret (own_remove s _ _ _ _) t)
    split_ifs
    · exact (World.debt_modSess (f := Session.setRegistered false) (fun _ => rfl) w₁ s).trans hmid
    · exact hmid
  | @wait w w₁ id reason s _ _ _ _ _ _ _ _ _ ih =>
    rw [World.debt_dropActived, World.debt_modSess (f := Session.dropOwner) fun _ => rfl, ih,
      World.debt_modSess (f := Session.loseFd) fun _ => rfl, World.debt_startWait, World.debt_managerClose]
  | waitDead => rw [World.debt_dropActived, World.debt_startWait, World.debt_managerClose]
  | drop _ _ _ _ _ _ _ ih => rw [World.debt_dropActived, ih, World.debt_managerClose]
  | dropCached _ _ _ _ _ _ _ ih =>
    rw [World.debt_dropCached, World.debt_modSess (f := Session.setWaiting false) fun _ => rfl, ih, World.debt_managerClose]

/-- closings send notices of registered sessions only -/
theorem Shut.told (h : Shut S w w') (hreg : (w.sess t).flags.registered = false) : told t w'.sent = told t w.sent := by
  have hstay : ∀ {w₁ w₂ : World}, (w₁.sess t).Kept (w₂.sess t) → (w₁.sess t).flags.registered = false →
      (w₂.sess t).flags.registered = false := fun hkept h =>
    Bool.eq_false_iff.2 fun hreg' => Bool.false_ne_true (h.symm.trans (hkept.registered hreg'))
  induction h with
  | refl | check | miss | wrote | light | object | closeDead | waitDead => rfl
  | trans h _ ih ih' => exact (ih' (hstay (h.kept t) hreg)).trans (ih hreg)
  | @close w w₁ s _ _ _ _ _ _ _ ih =>
    have hmark : ∀ x : Session, x.Kept x.markClosing.loseFd := fun x => x.kept_markClosing.trans (Session.kept_loseFd _)
    exact ih (hstay (World.kept_modSess hmark w s t) hreg)
  | @remove w w₁ s len ret _ hreg' _ _ _ ih =>
    have hts : s ≠ t := fun hst => Bool.false_ne_true (hreg.symm.trans (hst ▸ hreg'))
    have hmid := ih (hstay (World.kept_modSess (Session.kept_noticed len) w s t) hreg)
    have hnotice : Gateway.told t (w.noticed s (.removeSession (w.sess s).peer) len ret).sent = Gateway.told t w.sent := by
      refine (told_snoc _ _ _).trans ?_
      rw [own_remove, decide_eq_false hts]
      exact add_zero _
    split_ifs
    · exact hmid.trans hnotice
    · exact hmid.trans hnotice
  | @wait w w₁ id reason s _ _ _ _ _ _ _ _ _ ih =>
    refine ih (hstay ((World.kept_startWait (w.recorded (.managerClose id reason true)) s t).trans ?_) hreg)
    exact World.kept_modSess Session.kept_loseFd _ s t
  | drop _ _ _ _ _ _ _ ih | dropCached _ _ _ _ _ _ _ ih => exact ih hreg

theorem Shut.inherited (h : Shut S w w') (counter : Traffic → ℕ) (t : ℕ) :
    inherited counter t w'.history = inherited counter t w.history := by
  obtain ⟨new, hnew, hrec⟩ := h.recorded
  have hzero : (new.map (gained counter t)).sum = 0 := List.sum_eq_zero fun y hy => by
    obtain ⟨⟨c, step⟩, hx, rfl⟩ := List.mem_map.1 hy
    exact gained_eq_zero fun s old hstep => by
      subst hstep
      exact (hrec _ hx).1
  rw [Gateway.inherited, hnew, List.map_append, List.sum_append, hzero, add_zero]
  rfl

/-! ## Messages -/

/-- nothing happened to the sessions that are still to come -/
structure World.Blank (w : World) : Prop where
  hasFd : ∀ s, w.count ≤ s → (w.sess s).flags.hasFd = false
  registered : ∀ s, w.count ≤ s → (w.sess s).flags.registered = false
  told : ∀ s, w.count ≤ s → told s w.sent = 0
  inherited : ∀ s, w.count ≤ s → inherited Traffic.recvTimes s w.history = 0

theorem Shut.blank (h : Shut S w w') (hw : w.Blank) : w'.Blank where
  hasFd s hs := h.lost (hw.hasFd s (h.older.count ▸ hs))
  registered s hs := Bool.eq_false_iff.2 fun hreg =>
    Bool.false_ne_true ((hw.registered s (h.older.count ▸ hs)).symm.trans ((h.kept s).registered hreg))
  told s hs := (h.told (hw.registered s (h.older.count ▸ hs))).trans (hw.told s (h.older.count ▸ hs))
  inherited s hs := (h.inherited _ s).trans (hw.inherited s (h.older.count ▸ hs))

theorem World.debt_takenOver {old : ℕ} (hne : old ≠ s) (oldId : UInt64) (t : ℕ) : (w.takenOver s old oldId).debt t = w.debt t := by
  have hhistory : Gateway.inherited Traffic.recvTimes t (w.takenOver s old oldId).history =
      Gateway.inherited Traffic.recvTimes t w.history + gained Traffic.recvTimes t (w.toCore, .initReconnect s old) :=
    inherited_snoc _ _ _ _
  by_cases hts : t = s
  · subst hts
    unfold World.debt World.counted
    rw [hhistory, World.takenOver_new hne, gained, if_pos rfl]
    show ((w.sess old).limit.total.recvTimes : SizeT) - _ - (Gateway.told t w.sent : ℕ) = _
    ring
  · refine World.debt_same ?_ rfl (hhistory.trans ?_)
    · by_cases hto : t = old
      · subst hto
        rw [World.takenOver_old hne]
        rfl
      · rw [World.takenOver_other hts hto]
    · rw [gained, if_neg (Ne.symm hts), add_zero]

theorem Path.debt (h : Path e w w') (hsound : w.Sound) (t : ℕ) : w'.debt t = w.debt t := by
  induction h with
  | refl => rfl
  | trans h _ ih ih' => exact (ih' (h.sound hsound)).trans (ih hsound)
  | shut h => exact h.debt t
  | @record w step hallow =>
    refine World.debt_recorded fun s old hstep => ?_
    subst hstep
    exact hallow
  | object | done => exact World.debt_setSess rfl
  | current | enroll => exact World.debt_congr rfl rfl rfl
  | post =>
    refine World.debt_same rfl ?_ rfl
    rw [told_snoc]
    rfl
  | @start w s router _ =>
    have hset := World.debt_modSess (t := t) (f := fun x => (x.initNew (e.allocate w.allocated) router).initDone w)
      (fun _ => rfl) (w.recorded (.initNewSession s)) s
    have hsame : (w.startNew e s router).debt t = ((w.recorded (.initNewSession s)).modSess s
      fun x => (x.initNew (e.allocate w.allocated) router).initDone w).debt t := World.debt_congr rfl rfl rfl
    exact (hsame.trans hset).trans (World.debt_recorded fun _ _ h => nomatch h)
  | @announce w w₁ s len _ _ _ _ h =>
    rw [World.debt_enrolled, World.debt_modSess (f := Session.setRegistered true) fun _ => rfl, h.shut.debt t]
    exact w.debt_noticed s len 0 (own_add s _ _ _ _) t
  | @unheard w w₁ s len ret _ _ h => exact (h.debt t).trans (w.debt_noticed s len ret (own_add s _ _ _ _) t)
  | @resume w s old oldId halive _ hlook _ _ =>
    obtain ⟨-, -, -, hlost⟩ := hsound.cached oldId old hlook
    have hne : old ≠ s := fun hos => Bool.false_ne_true (hlost.symm.trans (hos ▸ halive.1))
    have hrecord : ((w.takenOver s old oldId).recorded (.reconnected s oldId)).debt t = (w.takenOver s old oldId).debt t :=
      World.debt_recorded fun _ _ h => nomatch h
    exact hrecord.trans (World.debt_takenOver hne oldId t)

/-- a step that leaves the sessions to come alone -/
theorem World.Blank.next (h : w.Blank) (hcount : w.count ≤ w'.count)
    (hsess : ∀ s, w'.count ≤ s → (w'.sess s).flags.hasFd = (w.sess s).flags.hasFd ∧
      (w'.sess s).flags.registered = (w.sess s).flags.registered)
    (hsent : ∀ s, w'.count ≤ s → Gateway.told s w'.sent = Gateway.told s w.sent)
    (hhistory : ∀ s, w'.count ≤ s → Gateway.inherited Traffic.recvTimes s w'.history =
      Gateway.inherited Traffic.recvTimes s w.history) : w'.Blank where
  hasFd s hs := (hsess s hs).1.trans (h.hasFd s (hcount.trans hs))
  registered s hs := (hsess s hs).2.trans (h.registered s (hcount.trans hs))
  told s hs := (hsent s hs).trans (h.told s (hcount.trans hs))
  inherited s hs := (hhistory s hs).trans (h.inherited s (hcount.trans hs))

theorem World.Blank.recorded (h : w.Blank) {a : Step} (hstep : ∀ s old, a ≠ .initReconnect s old) :
    (w.recorded a).Blank :=
  h.next le_rfl (fun _ _ => ⟨rfl, rfl⟩) (fun _ _ => rfl) fun s _ =>
    (inherited_snoc _ _ _ _).trans (by rw [gained_eq_zero hstep, add_zero])

/-- a change of one session -/
theorem World.Blank.setSess (h : w.Blank) {x : Session} (hfd : x.flags.hasFd = true → (w.sess s).flags.hasFd = true)
    (hreg : x.flags.registered = true → (w.sess s).flags.registered = true ∨ s < w.count) : (w.setSess s x).Blank where
  hasFd t ht := by
    by_cases hts : t = s
    · subst hts
      rw [World.setSess_sess]
      exact Bool.eq_false_iff.2 fun hx => Bool.false_ne_true ((h.hasFd t ht).symm.trans (hfd hx))
    · rw [World.setSess_sess_ne hts]
      exact h.hasFd t ht
  registered t ht := by
    by_cases hts : t = s
    · subst hts
      rw [World.setSess_sess]
      refine Bool.eq_false_iff.2 fun hx => ?_
      rcases hreg hx with hreg | hcount
      · exact Bool.false_ne_true ((h.registered t ht).symm.trans hreg)
      · exact absurd hcount (not_lt.2 ht)
    · rw [World.setSess_sess_ne hts]
      exact h.registered t ht
  told := h.told
  inherited := h.inherited

theorem World.Blank.noticed (h : w.Blank) (hs : s < w.count) {body : SsBody} (len : ℕ) (ret : ℤ)
    (hown : ∀ t, Notice.own t ⟨some s, (w.sess s).id, (w.sess s).router, body, ret⟩ = decide (s = t)) :
    (w.noticed s body len ret).Blank := by
  have hset : (w.modSess s fun x => x.setLimit (x.limit.addRecv len)).Blank := h.setSess (fun h => h) fun h => .inl h
  refine hset.next le_rfl (fun _ _ => ⟨rfl, rfl⟩) (fun t ht => (told_snoc _ _ _).trans ?_) fun _ _ => rfl
  have hts : s ≠ t := fun hst => absurd (hst ▸ hs) (not_lt.2 ht)
  rw [hown, decide_eq_false hts]
  exact add_zero _

theorem World.Blank.counted (h : w.Blank) (hfd : (w.sess s).flags.hasFd = true) : s < w.count :=
  not_le.1 fun hle => Bool.false_ne_true ((h.hasFd s hle).symm.trans hfd)

theorem World.Blank.takenOver {old : ℕ} (h : w.Blank) (hs : s < w.count) (hne : old ≠ s) (oldId : UInt64) :
    (w.takenOver s old oldId).Blank := by
  refine h.next le_rfl (fun t ht => ?_) (fun _ _ => rfl) fun t ht => ?_
  · have hts : t ≠ s := fun hst => absurd (hst ▸ hs) (not_lt.2 ht)
    by_cases hto : t = old
    · subst hto
      rw [World.takenOver_old hne]
      exact ⟨rfl, rfl⟩
    · rw [World.takenOver_other hts hto]
      exact ⟨rfl, rfl⟩
  · have hts : s ≠ t := fun hst => absurd (hst ▸ hs) (not_lt.2 ht)
    refine (inherited_snoc _ _ _ _).trans ?_
    rw [gained, if_neg hts, add_zero]

theorem Path.blank (h : Path e w w') (hsound : w.Sound) (hw : w.Blank) : w'.Blank := by
  induction h with
  | refl w => exact hw
  | trans h _ ih ih' => exact ih' (h.sound hsound) (ih hsound hw)
  | shut h => exact h.blank hw
  | @record w step hallow =>
    refine hw.recorded fun s old hstep => ?_
    subst hstep
    exact hallow
  | object | done => exact hw.setSess (fun h => h) fun h => .inl h
  | current | enroll => exact ⟨hw.hasFd, hw.registered, hw.told, hw.inherited⟩
  | post =>
    refine hw.next le_rfl (fun _ _ => ⟨rfl, rfl⟩) (fun s _ => (told_snoc _ _ _).trans ?_) fun _ _ => rfl
    exact add_zero _
  | @start w s router _ =>
    have hset := (hw.recorded (a := .initNewSession s) fun _ _ h => nomatch h).setSess (s := s)
      (x := ((w.sess s).initNew (e.allocate w.allocated) router).initDone w) (fun h => h) fun h => .inl h
    exact ⟨hset.hasFd, hset.registered, hset.told, hset.inherited⟩
  | @announce w w₁ s len hs _ _ _ h =>
    have h₁ : w₁.Blank := h.shut.blank (hw.noticed hs.counted len 0 (own_add s _ _ _ _))
    have hset := h₁.setSess (s := s) (x := (w₁.sess s).setRegistered true) (fun h => h)
      fun _ => .inr (h.shut.older.count ▸ hs.counted)
    exact ⟨hset.hasFd, hset.registered, hset.told, hset.inherited⟩
  | @unheard w w₁ s len ret hs _ h => exact h.blank (hw.noticed hs.counted len ret (own_add s _ _ _ _))
  | @resume w s old oldId halive _ hlook _ _ =>
    obtain ⟨-, -, -, hlost⟩ := hsound.cached oldId old hlook
    have hne : old ≠ s := fun hos => Bool.false_ne_true (hlost.symm.trans (hos ▸ halive.1))
    exact (hw.takenOver (hw.counted halive.1) hne oldId).recorded fun _ _ h => nomatch h

/-! ## Runs -/

/-- the counter of each session is made up of its own notices and of what it took over -/
structure World.Balanced (w : World) : Prop extends w.Blank where
  debt : ∀ s, w.debt s = 0

theorem Shut.balanced (h : Shut S w w') (hw : w.Balanced) : w'.Balanced :=
  ⟨h.blank hw.toBlank, fun s => (h.debt s).trans (hw.debt s)⟩

theorem World.Balanced.accepted (h : w.Balanced) (seed : ℕ) (fd : Bool) (peer : Peer) : (w.accepted e seed fd peer).Balanced := by
  have hne : ∀ {t}, t ≠ w.count → (w.accepted e seed fd peer).sess t = w.sess t := fun ht => World.accepted_sess_ne ht seed fd peer
  refine ⟨h.toBlank.next (Nat.le_succ _) (fun t ht => ?_) (fun _ _ => rfl) fun _ _ => rfl, fun t => ?_⟩
  · rw [hne (Nat.ne_of_gt ht)]
    exact ⟨rfl, rfl⟩
  · by_cases htc : t = w.count
    · subst htc
      have hnew : (w.accepted e seed fd peer).sess w.count = Session.accepted e w.conf seed fd peer := World.joined_sess _
      unfold World.debt World.counted
      rw [hnew]
      show ((0 : ℕ) : SizeT) - inherited Traffic.recvTimes w.count w.history - (told w.count w.sent : ℕ) = 0
      rw [h.inherited _ le_rfl, h.told _ le_rfl, Nat.cast_zero, sub_zero, sub_zero]
    · have hsame : (w.accepted e seed fd peer).debt t = w.debt t :=
        World.debt_same (congrArg (fun x => x.limit.total.recvTimes) (hne htc)) rfl rfl
      exact hsame.trans (h.debt t)

/-- **The ledger** along every walk. -/
theorem Walk.balanced (h : Walk e P w w') (hsound : w.Sound) (hw : w.Balanced) : w'.Balanced := by
  have hquiet : ∀ {u v : World}, u.Balanced → v.sess = u.sess → v.sent = u.sent → v.history = u.history → v.count = u.count →
      v.Balanced := by
    intro u v hu hsess hsent hhistory hcount
    refine ⟨?_, fun s => (World.debt_congr hsess hsent hhistory).trans (hu.debt s)⟩
    refine hu.toBlank.next hcount.ge (fun s _ => ?_) (fun s _ => by rw [hsent]) fun s _ => by rw [hhistory]
    rw [hsess]
    exact ⟨rfl, rfl⟩
  have hrecord : ∀ {u : World} {a : Step}, u.Balanced → (∀ s old, a ≠ .initReconnect s old) → (u.recorded a).Balanced :=
    fun hu hstep => ⟨hu.toBlank.recorded hstep, fun s => (World.debt_recorded hstep).trans (hu.debt s)⟩
  have hset : ∀ {u : World} {s : ℕ} {x : Session}, u.Balanced → x.limit.total.recvTimes = (u.sess s).limit.total.recvTimes →
      (x.flags.hasFd = true → (u.sess s).flags.hasFd = true) → x.flags.registered = (u.sess s).flags.registered →
      (u.setSess s x).Balanced := fun hu htimes hfd hreg =>
    ⟨hu.toBlank.setSess hfd fun h => .inl (hreg.symm.trans h), fun t => (World.debt_setSess htimes).trans (hu.debt t)⟩
  induction h with
  | refl w => exact hw
  | trans h _ ih ih' => exact ih' (h.sound hsound) (ih hsound hw)
  | path h => exact ⟨h.blank hsound hw.toBlank, fun s => (h.debt hsound s).trans (hw.debt s)⟩
  | accept => exact hw.accepted _ _ _
  | @listen w s due _ _ =>
    exact hquiet (hset (s := s) (x := (w.sess s).setReading true) hw rfl (fun h => h) rfl) rfl rfl rfl rfl
  | stream | router => exact hset hw rfl (fun h => h) rfl
  | @giveUp w w₁ s _ _ h _ =>
    have hlose : ((w.recorded (.allocRead s)).modSess s Session.loseFd).Balanced :=
      hset (hrecord hw fun _ _ h => nomatch h) rfl (fun h => absurd h Bool.false_ne_true) rfl
    exact hset (h.balanced hlose) rfl (fun h => h) rfl
  | @answer w id body target ret _ =>
    have hown : ∀ s, Notice.own s ⟨none, id, target, body, ret⟩ = false := fun s => by cases body <;> rfl
    have htold : ∀ s, told s (w.sent ++ [⟨none, id, target, body, ret⟩]) = told s w.sent := fun s => by
      rw [told_snoc, hown]
      rfl
    have hsame : ∀ s, World.debt { w with sent := w.sent ++ [⟨none, id, target, body, ret⟩] } s = w.debt s := fun s =>
      World.debt_same rfl (htold s) rfl
    exact ⟨hw.toBlank.next le_rfl (fun _ _ => ⟨rfl, rfl⟩) (fun s _ => htold s) fun _ _ => rfl, fun s =>
      (hsame s).trans (hw.debt s)⟩
  | @expire w w₁ t _ _ _ h =>
    have hstart : (w.expired t.2).Balanced := by
      refine hset (s := t.2) (x := (w.sess t.2).setWaiting false) ?_ rfl (fun h => h) rfl
      exact hquiet (hrecord (a := .expireReconnect t.2) hw fun _ _ h => nomatch h) rfl rfl rfl rfl
    exact hquiet (h.balanced hstart) rfl rfl rfl rfl
  | tick => exact hquiet (hrecord (a := .tick) hw fun _ _ h => nomatch h) rfl rfl rfl rfl
  | reset => exact hrecord hw fun _ _ h => nomatch h
  | clearCache => exact hquiet (hrecord (a := .cleared) hw fun _ _ h => nomatch h) rfl rfl rfl rfl
  | clock | reload | idle | clearActived | clearIdle | clearTimers => exact hquiet hw rfl rfl rfl rfl

/-- what the counters of a session should cover: its notices and the POSTs that were forwarded for it -/
structure World.Accounted (w : World) (s : ℕ) : Prop where
  times : told s w.sent + (posts s w.sent).length ≤ (w.counted Traffic.recvTimes s).val
  bytes : (posts s w.sent).sum ≤ (w.counted Traffic.recvBytes s).val

/-- the POSTs exceed a limit for what is received -/
def overLimit (t : Traffic) (lens : List ℕ) : Bool := exceeds t.recvTimes lens.length || exceeds t.recvBytes lens.sum

/-- once the POSTs of a session exceed a limit, its limits close it, and no further one is forwarded -/
def World.Throttled (w : World) (s : ℕ) : Prop := ∀ pre post, w.sent = pre ++ post → overLimit w.conf.total (posts s pre) = true →
  posts s post = [] ∧ (w.sess s).flags.closing = true ∧ ∃ x ∈ w.history, Tripped s x

theorem posts_append (s : ℕ) (pre post : List Notice) : posts s (pre ++ post) = posts s pre ++ posts s post :=
  List.filterMap_append

theorem overLimit_nil (t : Traffic) : overLimit t [] = false := by
  simp [overLimit, exceeds]

theorem World.throttled_of_posts (h : posts s w.sent = []) : w.Throttled s := by
  intro pre post hsent hover
  rw [hsent, posts_append] at h
  rw [(List.append_eq_nil_iff.1 h).1, overLimit_nil] at hover
  exact absurd hover Bool.false_ne_true

/-- the counter shows the notices of the session, up to its width -/
theorem World.Balanced.counted_val (h : w.Balanced) (s : ℕ) : (w.counted Traffic.recvTimes s).val = told s w.sent % 2 ^ 64 := by
  have hdebt := h.debt s
  unfold World.debt at hdebt
  rw [sub_eq_zero.1 hdebt, ZMod.val_natCast]

theorem World.start_balanced (conf : GwConf) (now : ℤ) (current : Option CryptGlobal) : (World.start conf now current).Balanced := by
  refine ⟨⟨fun _ _ => rfl, fun _ _ => rfl, fun _ _ => rfl, fun _ _ => rfl⟩, fun t => ?_⟩
  unfold World.debt World.counted
  show ((0 : ℕ) : SizeT) - 0 - ((0 : ℕ) : SizeT) = 0
  rw [Nat.cast_zero, sub_zero, sub_zero]

/-- **No POST is counted.** In every run the counters of a session cover the POSTs that were forwarded for it, and its limits
stop them, exactly if there was none (and the counter did not wrap around at its notices). -/
theorem run_accounted (e : GwEnv) (conf : GwConf) (now : ℤ) (current : Option CryptGlobal) (events : List GwEvent) {w : World}
    (hrun : exec (gwRun e events) (World.start conf now current) = (.ok (), w)) (s : ℕ) :
    (w.Accounted s ∧ w.Throttled s) ↔ posts s w.sent = [] ∧ told s w.sent < 2 ^ 64 := by
  have hwalk := (wp_ok (run_went e conf now current events) hrun).walk
  have hval := (hwalk.balanced (World.start_sound conf now current) (World.start_balanced conf now current)).counted_val s
  constructor
  · rintro ⟨hacc, -⟩
    have hle := hacc.times.trans hval.le
    have hlt : told s w.sent < 2 ^ 64 := (Nat.le_of_add_right_le hle).trans_lt (Nat.mod_lt _ (by positivity))
    rw [Nat.mod_eq_of_lt hlt] at hle
    exact ⟨List.length_eq_zero_iff.1 (Nat.eq_zero_of_le_zero (by omega)), hlt⟩
  · rintro ⟨hnone, hlt⟩
    refine ⟨⟨?_, ?_⟩, World.throttled_of_posts hnone⟩
    · rw [hnone, hval, Nat.mod_eq_of_lt hlt]
      exact le_rfl
    · rw [hnone]
      exact Nat.zero_le _

/-- two messages from a client may reach the server -/
def tightConf : GwConf := { openConf with total := { recvTimes := 2 } }

/-- a client starts a session and sends `n` messages -/
def chatter (n : ℕ) : List GwEvent := startOne ++ List.replicate n (.uvRead 0 (.ok (scriptFrame 1)))

theorem run_accounted_chatter :
    let w := (exec (gwRun (scriptEnv [plainStartReq, plainPost] 2) (chatter 1)) (World.start openConf 1500000000 none)).2
    ¬ (w.Accounted 0 ∧ w.Throttled 0) := by
  intro w h
  have hposts := ((run_accounted _ _ _ _ _ (exec_of_fst (by decide +kernel)) 0).1 h).1
  exact absurd hposts (by decide +kernel)

/-- five messages, with a limit of two -/
theorem run_accounted_unlimited : ¬ ∀ (e : GwEnv) (conf : GwConf) (now : ℤ) (current : Option CryptGlobal) (events : List GwEvent)
    (w : World) (s : ℕ), exec (gwRun e events) (World.start conf now current) = (.ok (), w) → w.Accounted s ∧ w.Throttled s := by
  intro h
  have hrun := h (scriptEnv [plainStartReq, plainPost] 2) tightConf 1500000000 none (chatter 5) _ 0 (exec_of_fst (by decide +kernel))
  have hclosed := (hrun.2 _ [] (List.append_nil _).symm (by decide +kernel)).2.1
  exact absurd hclosed (by decide +kernel)

end AtFrame.Gateway
