/-
What `session_manager::tick` leaves of the timers.

`tick` takes timers from the front of `reconnect_timeout_` and of `first_idle_` until it finds one that is not due, so that it
relies on both lists being in the order of their times. Every timer is added at the end, with a timeout of the configuration,
and a reload may have shortened it since the timers before it were added.

- `Walk.inOrder`, `run_timed`: the order of both lists, as long as no timer is added that is due before one in its list;
- `Walk.retired`: a session with a timer is not active any more, so that what `tick` erases from the cache stays out of it;
- `tick_leaves_none`: in such a run no tick leaves a timer that is due, or a session in the cache whose timer expired;
- `run_ordinary`: a run that neither sets the clock back nor lowers a timeout is such a run;
- `tick_leaves_idle`: a reload between two connections.

Premises: each timer is added behind those that are due no later (`ClosesInOrder`, `AcceptsInOrder`), and the tick comes in a new
second. Witness `tick_leaves_none_notBack`: another client connects, and the one that lost its connection does not come back. In
`tick_leaves_idle` the connection that came first has the longer timeout, stands in front, and hides the one behind it.
-/
import AtFrame.Gateway.Distinct

namespace AtFrame.Gateway

open AtFrame.Lib

/-- a session with a timer is not active -/
def Core.Retired (w : Core) : Prop := ∀ t ∈ w.reconnectTimeout, ∀ k, w.actived.lookup k ≠ some t.2

/-- where a connection is accepted, no timer in the list is due later than its one -/
def GwEvent.AcceptsInOrder (w : World) (ev : GwEvent) : Prop := ev.Accepts w → ∀ t ∈ w.firstIdle, t.1 ≤ w.idleDue

/-- what `tick` has to leave in `w'` of the timers of `w` -/
structure World.NoneLeft (w w' : World) : Prop where
  reconnects : ∀ t ∈ w'.reconnectTimeout, w'.now < t.1
  idles : ∀ t ∈ w'.firstIdle, w'.now < t.1
  expired : ∀ t ∈ w.reconnectTimeout, t.1 ≤ w'.now → ∀ k, w'.reconnectCache.lookup k ≠ some t.2
  /-- whoever is in the cache has a timer, which is not due -/
  waits : w'.Waits

instance (w : Core) (id : UInt64) : Decidable (w.StartsWait id) := inferInstanceAs (Decidable (_ ∧ _))

instance : DecidablePred ClosesInOrder := by
  rintro ⟨_, _ | _⟩ <;> dsimp only [ClosesInOrder] <;> try infer_instance
  rename_i allow
  rcases allow with _ | _ <;> infer_instance

instance (w : World) (ev : GwEvent) : Decidable (ev.Accepts w) := by
  rcases ev with _ | _ <;> dsimp only [GwEvent.Accepts] <;> infer_instance

instance (ev : GwEvent) (w : World) : Decidable (ev.AcceptsInOrder w) :=
  inferInstanceAs (Decidable (_ → ∀ t ∈ w.firstIdle, t.1 ≤ w.idleDue))

variable {e : GwEnv} {P : Permit} {S : Set ℕ} {w w' w₁ : World} {s : ℕ}

/-! ## Sessions with a timer -/

theorem Shut.retired (h : Shut S w w') (hparted : w.Parted) (hw : w.Retired) : w'.Retired := by
  intro t ht k hk
  obtain ⟨new, hnew⟩ := h.waiting
  rw [hnew.timers] at ht
  rcases List.mem_append.1 ht with ht | ht
  · exact hw t ht k (h.older.actived k t.2 hk)
  · exact hnew.out hparted.single t ht k hk

theorem Core.Retired.enrolled (hw : w.Retired) (hs : ∀ t ∈ w.reconnectTimeout, t.2 ≠ s) : (w.enrolled s).Retired := by
  intro t ht k hk
  rcases lookup_enrolled hk with ⟨-, hts⟩ | ⟨-, hk⟩
  · exact hs t ht hts
  · exact hw t ht k hk

/-- a connected session that is in no map has no timer -/
theorem World.Sound.no_timer (h : w.Sound) (hs : s ∉ w.listed) (halive : (w.sess s).Alive) (hw₁ : w.Older S w₁) :
    ∀ t ∈ w₁.reconnectTimeout, t.2 ≠ s := by
  rintro t ht rfl
  rcases hw₁.waits t ht with ht | ⟨j, hj⟩
  · exact Bool.false_ne_true ((h.timers t ht).2.symm.trans halive.1)
  · exact hs ⟨j, .inl hj⟩

theorem Path.retired (h : Path e w w') (hsound : w.Sound) (hparted : w.Parted) (hw : w.Retired) : w'.Retired := by
  induction h with
  | trans h _ ih ih' => exact ih' (h.sound hsound) (h.parted hparted) (ih hsound hparted hw)
  | shut h => exact h.retired hparted hw
  | unheard _ _ h => exact h.retired ⟨hparted.single, hparted.apart⟩ hw
  | @announce w w₁ s len hs halive _ _ h =>
    have h₁ : w₁.Retired := h.shut.retired ⟨hparted.single, hparted.apart⟩ hw
    have hnone : ∀ t ∈ w₁.reconnectTimeout, t.2 ≠ s :=
      hsound.no_timer hs.unlisted halive (S := Set.univ) ((w.older_noticed s _ len 0).trans h.shut.older fun x =>
        (World.kept_modSess (Session.kept_noticed len) w s x).id)
    exact Core.Retired.enrolled (w := w₁.modSess s (Session.setRegistered true)) h₁ hnone
  | enroll hs halive _ _ => exact hw.enrolled (hsound.no_timer hs.unlisted halive (S := Set.univ) (.refl _))
  | _ => exact hw

theorem Walk.retired (h : Walk e P w w') (hsound : w.Sound) (hparted : w.Parted) (hw : w.Retired) : w'.Retired := by
  induction h with
  | trans h _ ih ih' => exact ih' (h.sound hsound) (h.parted hparted) (ih hsound hparted hw)
  | path h => exact h.retired hsound hparted hw
  | giveUp _ _ h _ => exact h.retired ⟨hparted.single, hparted.apart⟩ hw
  | @expire w w₁ t _ _ _ h =>
    have hexpired : (w.expired t.2).Parted :=
      hparted.fewer (fun _ _ hk => hk) fun _ _ hk => .inl (lookup_of_erase hk).2
    exact fun t ht => h.retired hexpired hw t (List.mem_of_mem_tail ht)
  | clearActived => exact fun _ _ _ hk => SessionMap.empty_elim hk
  | clearTimers => exact fun t ht => absurd ht List.not_mem_nil
  | _ => exact hw

/-! ## The order of the lists -/

/-- **`reconnect_timeout_`** is in order along a walk whose closes add to its end. -/
theorem Walk.inOrder (h : Walk e P w w') (hclose : ∀ x ∈ w'.history, ClosesInOrder x) (hw : InOrder w.reconnectTimeout) :
    InOrder w'.reconnectTimeout := by
  induction h with
  | trans _ h' ih ih' => exact ih' hclose (ih (fun x hx => hclose x (h'.history.subset hx)) hw)
  | path h => exact h.inOrder hclose hw
  | giveUp _ _ h _ => exact h.inOrder hclose hw
  | expire _ _ h => exact (h.inOrder hclose hw).sublist (List.tail_sublist _)
  | clearTimers => exact List.Pairwise.nil
  | _ => exact hw

/-- **`first_idle_`** is in order in a run that accepts in order, and whoever is in the cache has a timer. -/
theorem run_timed (e : GwEnv) (conf : GwConf) (now : ℤ) (current : Option CryptGlobal) (events : List GwEvent)
    (hidle : EachMeets (gwEvent e) (fun ev w => ev.AcceptsInOrder w) events (World.start conf now current)) :
    wp (gwRun e events) (fun _ w' => Went e .all (World.start conf now current) w' ∧ w'.Waits ∧ InOrder w'.firstIdle) Faulty
      (World.start conf now current) := by
  have hsound := World.start_sound conf now current
  refine wp_forM (I := fun w => Went e .all (World.start conf now current) w ∧ w.Waits ∧ InOrder w.firstIdle)
    (fun ev w ⟨hwent, hwaits, horder⟩ hev => ?_) ⟨⟨.refl _, fun s hs => (nomatch hs)⟩, fun k s hk => ?_, List.Pairwise.nil⟩ hidle
  · refine wp_post (event_timed (hwent.walk.sound hsound) hwent.known ev (ev.permitted_all e w)) ?_
    rintro - w' (h | ⟨haccept, h⟩)
    · exact ⟨hwent.trans h.toWent, h.waits hwaits, horder.sublist h.idle.sublist⟩
    · refine ⟨hwent.trans h.toWent, h.waits hwaits, ?_⟩
      rw [h.idle]
      exact horder.append (fun _ => hev haccept) fun t ht => by rw [List.mem_singleton.1 ht]
  · exact SessionMap.empty_elim hk

/-! ## Runs that shorten no timeout -/

/-- the clock is not set back, and a reload lowers neither timeout -/
def GwEvent.KeepsTimeouts (w : World) : GwEvent → Prop
  | .clock now => w.now ≤ now
  | .reload conf => w.conf.reconnectTimeout ≤ conf.reconnectTimeout ∧ w.conf.firstIdleTimeout ≤ conf.firstIdleTimeout
  | _ => True

/-- no reconnect timer is due later than one that is added now, and this was so at each close -/
structure World.Timely (w : World) : Prop where
  reconnects : ∀ t ∈ w.reconnectTimeout, t.1 ≤ w.waitDue
  closes : ∀ x ∈ w.history, ClosesInOrder x

theorem World.Timely.recorded (h : w.Timely) (step : Step) : (w.recorded step).Timely := by
  refine ⟨h.reconnects, fun x hx => ?_⟩
  rcases List.mem_append.1 hx with hx | hx
  · exact h.closes x hx
  · rw [List.mem_singleton.1 hx]
    cases step with
    | managerClose id reason allow =>
      cases allow with
      | false => trivial
      | true => exact fun _ => h.reconnects
    | _ => trivial

theorem World.Timely.startWait (h : w.Timely) (s : ℕ) : (w.startWait s).Timely := by
  refine ⟨fun t ht => ?_, h.closes⟩
  rcases List.mem_append.1 ht with ht | ht
  · exact h.reconnects t ht
  · rw [List.mem_singleton.1 ht]
    exact le_rfl

theorem Shut.timely (h : Shut S w w') (hw : w.Timely) : w'.Timely := by
  induction h with
  | refl w => exact hw
  | trans _ _ ih ih' => exact ih' (ih hw)
  | check | miss => exact hw.recorded _
  | wrote | light | object | closeDead => exact ⟨hw.reconnects, hw.closes⟩
  | close _ _ _ _ _ _ _ ih =>
    have h₁ := ih ⟨hw.reconnects, hw.closes⟩
    exact ⟨h₁.reconnects, h₁.closes⟩
  | remove _ _ _ _ _ ih =>
    have h₁ := ih ⟨hw.reconnects, hw.closes⟩
    split_ifs
    · exact ⟨h₁.reconnects, h₁.closes⟩
    · exact h₁
  | @wait w w₁ id reason s _ _ _ _ _ _ _ _ _ ih =>
    have hstart := (hw.recorded (.managerClose id reason true)).startWait s
    have h₁ := ih ⟨hstart.reconnects, hstart.closes⟩
    exact ⟨h₁.reconnects, h₁.closes⟩
  | @waitDead w id reason s =>
    have hstart := (hw.recorded (.managerClose id reason true)).startWait s
    exact ⟨hstart.reconnects, hstart.closes⟩
  | drop _ _ _ _ _ _ _ ih | dropCached _ _ _ _ _ _ _ ih =>
    have h₁ := ih (hw.recorded _)
    exact ⟨h₁.reconnects, h₁.closes⟩

theorem Path.timely (h : Path e w w') (hw : w.Timely) : w'.Timely := by
  induction h with
  | trans _ _ ih ih' => exact ih' (ih hw)
  | shut h | unheard _ _ h => exact h.timely ⟨hw.reconnects, hw.closes⟩
  | record => exact hw.recorded _
  | @start w s => exact ⟨hw.reconnects, (hw.recorded (.initNewSession s)).closes⟩
  | announce _ _ _ _ h =>
    have h₁ := h.shut.timely ⟨hw.reconnects, hw.closes⟩
    exact ⟨h₁.reconnects, h₁.closes⟩
  | @resume w s old oldId =>
    have hinit : (w.takenOver s old oldId).Timely := ⟨hw.reconnects, (hw.recorded (.initReconnect s old)).closes⟩
    exact hinit.recorded _
  | _ => exact ⟨hw.reconnects, hw.closes⟩

theorem Walk.timely (h : Walk e P w w') (hP : ¬ P.sets) (hw : w.Timely) : w'.Timely := by
  induction h with
  | trans _ _ ih ih' => exact ih' (ih hw)
  | path h => exact h.timely hw
  | @giveUp w w₁ s _ _ h _ =>
    have hstart := hw.recorded (.allocRead s)
    have h₁ := h.timely ⟨hstart.reconnects, hstart.closes⟩
    exact ⟨h₁.reconnects, h₁.closes⟩
  | clock _ _ hsets | reload _ _ hsets => exact absurd hsets hP
  | @expire w w₁ t _ _ _ h =>
    have hstart := hw.recorded (.expireReconnect t.2)
    have h₁ := h.timely ⟨hstart.reconnects, hstart.closes⟩
    exact ⟨fun t ht => h₁.reconnects t (List.mem_of_mem_tail ht), h₁.closes⟩
  | tick => exact ⟨hw.reconnects, (hw.recorded .tick).closes⟩
  | reset => exact hw.recorded _
  | clearCache => exact ⟨hw.reconnects, (hw.recorded .cleared).closes⟩
  | clearTimers => exact ⟨fun t ht => absurd ht List.not_mem_nil, hw.closes⟩
  | _ => exact ⟨hw.reconnects, hw.closes⟩

theorem Walk.unset (h : Walk e P w w') (hP : ¬ P.sets) : w'.now = w.now ∧ w'.conf = w.conf := by
  induction h with
  | trans _ _ ih ih' => exact ⟨ih'.1.trans ih.1, ih'.2.trans ih.2⟩
  | path h => exact ⟨h.later.now, h.later.conf⟩
  | giveUp _ _ h _ | expire _ _ h => exact ⟨h.older.now, h.older.conf⟩
  | clock _ _ hsets | reload _ _ hsets => exact absurd hsets hP
  | _ => exact ⟨rfl, rfl⟩

/-- the clock and the configuration are not set -/
def Permit.steady : Permit := ⟨False, fun _ _ => True⟩

/-- where such a run stands: a timer that is added now is the last one to be due -/
structure Ordinary (e : GwEnv) (w₀ w : World) : Prop extends Went e .all w₀ w where
  timely : w.Timely
  idles : ∀ t ∈ w.firstIdle, t.1 ≤ w.idleDue

theorem Core.idleDue_mono {w w' : Core} (hnow : w.now ≤ w'.now) (hidle : w.conf.firstIdleTimeout ≤ w'.conf.firstIdleTimeout) :
    w.idleDue ≤ w'.idleDue := by
  unfold Core.idleDue
  split_ifs <;> omega

theorem Ordinary.event {w₀ : World} (h : Ordinary e w₀ w) (hsound : w₀.Sound) (ev : GwEvent) (hev : ev.KeepsTimeouts w) :
    wp (gwEvent e ev) (fun _ w' => Ordinary e w₀ w') Faulty w := by
  have hw := h.walk.sound hsound
  have hall := event_went hw h.known ev (ev.permitted_all e w)
  have hrest : ev.Permitted e .steady w → wp (gwEvent e ev) (fun _ w' => Ordinary e w₀ w') Faulty w := by
    intro hP
    refine wp_mono (wp_and hall (event_timed hw h.known ev hP)) (fun _ w' ⟨hwent, htimed⟩ => ?_) fun _ _ hfault => hfault.1
    have hsteady : Went e .steady w w' := htimed.elim WentOn.toWent fun htimed => htimed.2.toWent
    obtain ⟨hnow, hconf⟩ := hsteady.walk.unset id
    have hdue : w'.idleDue = w.idleDue := by rw [Core.idleDue, Core.idleDue, hnow, hconf]
    refine ⟨h.toWent.trans hwent, hsteady.walk.timely id h.timely, fun t ht => ?_⟩
    rw [hdue]
    rcases htimed with hon | ⟨-, hlistened⟩
    · exact h.idles t (hon.idle.subset ht)
    · rw [hlistened.idle] at ht
      rcases List.mem_append.1 ht with ht | ht
      · exact h.idles t ht
      · rw [List.mem_singleton.1 ht]
  cases ev with
  | clock now =>
    have hgo : w.now ≤ now := hev
    refine ⟨h.toWent.trans hall, ⟨fun t ht => (h.timely.reconnects t ht).trans ?_, h.timely.closes⟩, fun t ht => ?_⟩
    · exact Int.add_le_add_right hgo _
    · exact (h.idles t ht).trans (Core.idleDue_mono hgo le_rfl)
  | reload conf =>
    obtain ⟨hreconnect, hidle⟩ := hev
    have hwaits : ∀ t ∈ w.reconnectTimeout, t.1 ≤ w.now + conf.reconnectTimeout := fun t ht =>
      (h.timely.reconnects t ht).trans (Int.add_le_add_left hreconnect _)
    have hidles : ∀ t ∈ w.firstIdle, t.1 ≤ ({ w with conf := conf } : World).idleDue := fun t ht =>
      (h.idles t ht).trans (Core.idleDue_mono le_rfl hidle)
    have hreload : wp (gwEvent e (.reload conf)) (fun _ w' => w'.Timely ∧ ∀ t ∈ w'.firstIdle, t.1 ≤ w'.idleDue) Faulty w := by
      unfold gwEvent reload
      rw [wp_bind, wp_modify]
      cases globalReload e.ext conf.crypt with
      | none => exact ⟨⟨hwaits, h.timely.closes⟩, hidles⟩
      | some g => exact ⟨⟨hwaits, h.timely.closes⟩, hidles⟩
    refine wp_mono (wp_and hall hreload) (fun _ w' ⟨hwent, htimely, hidles⟩ => ?_) fun _ _ hfault => hfault.1
    exact ⟨h.toWent.trans hwent, htimely, hidles⟩
  | serverPost source id ids content => exact hrest fun _ _ _ _ => trivial
  | _ => exact hrest trivial

/-- **Every timer is added in order** in a run that neither sets the clock back nor lowers a timeout. -/
theorem run_ordinary (e : GwEnv) (conf : GwConf) (now : ℤ) (current : Option CryptGlobal) (events : List GwEvent)
    (hkeeps : EachMeets (gwEvent e) (fun ev w => ev.KeepsTimeouts w) events (World.start conf now current)) :
    EachMeets (gwEvent e) (fun ev w => ev.AcceptsInOrder w) events (World.start conf now current) ∧
      ∀ w, exec (gwRun e events) (World.start conf now current) = (.ok (), w) → ∀ x ∈ w.history, ClosesInOrder x := by
  have hsound := World.start_sound conf now current
  have hbegin : Ordinary e (World.start conf now current) (World.start conf now current) :=
    ⟨⟨.refl _, fun s hs => (nomatch hs)⟩, ⟨fun t ht => absurd ht List.not_mem_nil, fun x hx => absurd hx List.not_mem_nil⟩,
      fun t ht => absurd ht List.not_mem_nil⟩
  refine ⟨hkeeps.imp (fun ev w h hev => ⟨fun _ => h.idles, h.event hsound ev hev⟩) hbegin, fun w hrun => ?_⟩
  exact (wp_ok (wp_forM (fun ev w h hev => h.event hsound ev hev) hbegin hkeeps) hrun).timely.closes

/-! ## Ticks -/

/-- the session of the timer leaves the maps -/
theorem World.Expires.unlisted (h : w.Expires s w') (hsound : w.Sound) (hactive : ∀ k, w.actived.lookup k ≠ some s) :
    s ∉ w'.listed := by
  obtain ⟨w₁, h₁, rfl⟩ := h
  refine h₁.unlisted ?_
  rintro ⟨k, hk | hk⟩
  · exact hactive k hk
  · obtain ⟨hne, hk⟩ := lookup_of_erase hk
    exact hne (hsound.cached k s hk).2.2.1.symm

theorem World.Expires.stays {t : ℕ} (h : w.Expires s w') (ht : t ∉ w.listed) : t ∉ w'.listed := by
  obtain ⟨w₁, h₁, rfl⟩ := h
  refine h₁.unlisted ?_
  rintro ⟨k, hk | hk⟩
  · exact ht ⟨k, .inl hk⟩
  · exact ht ⟨k, .inr (lookup_of_erase hk).2⟩

theorem World.Idles.stays {t : ℕ} (h : w.Idles s w') (ht : t ∉ w.listed) : t ∉ w'.listed := by
  obtain ⟨w₁, rfl | h₁, rfl⟩ := h
  · exact ht
  · exact h₁.unlisted ht

theorem World.Ticks.noneLeft (h : w.Ticks w') (hsecond : w.lastTickTime ≠ w.now) (hsound : w.Sound) (hknown : w.Known)
    (hparted : w.Parted) (hretired : w.Retired) (hwaits : w.Waits) (hreconnects : InOrder w.reconnectTimeout)
    (hidles : InOrder w.firstIdle) (e : GwEnv) : w.NoneLeft w' := by
  obtain ⟨w₁, h₁, h₂⟩ := h
  set dues := w.reconnectTimeout.takeWhile (·.1 ≤ w.now)
  set rest := w.reconnectTimeout.dropWhile (·.1 ≤ w.now)
  -- a timer is to come, or its session was taken out of the maps
  have hexpired := h₁.keeps (I := fun ts w₂ => Expiring e .all w rest ts w₂ ∧ ∀ t ∈ dues, t ∈ ts ∨ t.2 ∉ w₂.listed)
    ⟨World.ticked_expiring hknown hsecond, fun t ht => .inl ht⟩ fun t ts w₂ w₃ hround ⟨hexpiring, hdues⟩ => by
      refine ⟨hexpiring.round hsound hround, fun u hu => ?_⟩
      have hwalk := hexpiring.went.walk
      rcases hdues u hu with hu | hu
      · rcases List.mem_cons.1 hu with rfl | hu
        · obtain ⟨new, htimers, -⟩ := hexpiring.timers
          refine .inr (hround.unlisted (hwalk.sound hsound) (hwalk.retired hsound hparted hretired u ?_))
          rw [htimers]
          exact List.mem_cons_self
        · exact .inl hu
      · exact .inr (hround.stays hu)
  obtain ⟨hexpiring, hdues⟩ := hexpired
  have hidled := h₂.keeps (I := fun ts w₂ => Idling e .all w₁ (w₁.firstIdle.dropWhile (·.1 ≤ w₁.now)) ts w₂ ∧
    ∀ t ∈ dues, t.2 ∉ w₂.listed) ⟨World.idling hexpiring.went.known, fun t ht => (hdues t ht).resolve_left List.not_mem_nil⟩
    fun t ts w₂ w₃ hround ⟨hidling, hdues⟩ => ⟨hidling.round hround, fun u hu => hround.stays (hdues u hu)⟩
  obtain ⟨hidling, hout⟩ := hidled
  have hnow : w'.now = w.now := hidling.now.trans hexpiring.now
  refine ⟨fun t ht => ?_, fun t ht => ?_, fun t ht hdue k hk => ?_, hidling.went.waits (hexpiring.went.waits hwaits)⟩
  · obtain ⟨new, htimers, hnew⟩ := hexpiring.timers
    obtain ⟨new', htimers', hnew'⟩ := hidling.timers
    rw [htimers', htimers, List.nil_append] at ht
    rw [hnow]
    rcases List.mem_append.1 ht with ht | ht
    · rcases List.mem_append.1 ht with ht | ht
      · exact hreconnects.lt_of_mem_dropWhile ht
      · exact hnew t ht
    · exact hexpiring.now ▸ hnew' t ht
  · rw [hidling.idle, List.nil_append, hexpiring.idle, hexpiring.now] at ht
    rw [hnow]
    exact hidles.lt_of_mem_dropWhile ht
  · exact hout t (hreconnects.mem_takeWhile ht (hnow ▸ hdue)) ⟨k, .inr hk⟩

/-- **No timer that is due is left** by a tick, where the run before it added every timer in order. -/
theorem tick_leaves_none (e : GwEnv) (conf : GwConf) (now : ℤ) (current : Option CryptGlobal) (events : List GwEvent) {w w' : World}
    (hidle : EachMeets (gwEvent e) (fun ev w => ev.AcceptsInOrder w) events (World.start conf now current))
    (hrun : exec (gwRun e events) (World.start conf now current) = (.ok (), w)) (hclose : ∀ x ∈ w.history, ClosesInOrder x)
    (hsecond : w.lastTickTime ≠ w.now) (htick : exec (gwEvent e .tick) w = (.ok (), w')) : w.NoneLeft w' := by
  obtain ⟨hwent, hwaits, hidles⟩ := wp_ok (run_timed e conf now current events hidle) hrun
  have hstart := World.start_sound conf now current
  have hparted := (World.start_distinct e.allocate conf now current).toParted
  have hretired := hwent.walk.retired hstart hparted fun t ht => absurd ht List.not_mem_nil
  rcases wp_ok (tick_wp (sessionOk e e.depth).toReentryOk hwent.known) htick with ⟨hsame, -⟩ | ⟨-, h⟩
  · exact absurd hsame hsecond
  · exact h.noneLeft hsecond (hwent.walk.sound hstart) hwent.known (hwent.walk.parted hparted) hretired hwaits
      (hwent.walk.inOrder hclose List.Pairwise.nil) hidles e

/-- a session is disconnected, another client connects, and the first one does not come back in time -/
def notBack : List GwEvent := startOne ++ [.cmdDisconnect 1 0, .clock 1500000055, .acceptTcp 1 {} 0 0, .clock 1500000060]

theorem tick_leaves_none_notBack :
    (exec (gwRun (scriptEnv [plainStartReq] 2) notBack) (World.start openConf 1500000000 none)).2.NoneLeft
      (exec (gwEvent (scriptEnv [plainStartReq] 2) .tick)
        (exec (gwRun (scriptEnv [plainStartReq] 2) notBack) (World.start openConf 1500000000 none)).2).2 :=
  tick_leaves_none (scriptEnv [plainStartReq] 2) openConf 1500000000 none notBack (by decide +kernel)
    (exec_of_fst (by decide +kernel)) (by decide +kernel) (by decide +kernel) (exec_of_fst (by decide +kernel))

/-- the clock that an event sets -/
def GwEvent.setClock : GwEvent → Option ℤ
  | .clock now => some now
  | _ => none

/-- the clock is never set back -/
def ClockRises (now : ℤ) (events : List GwEvent) : Prop := (now :: events.filterMap GwEvent.setClock).Pairwise (· ≤ ·)

/-- two clients connect, with a shorter `first_idle_timeout` for the second one -/
def sooner : List GwEvent :=
  [.acceptTcp 0 {} 0 0, .reload { openConf with firstIdleTimeout := 1 }, .clock 1500000001, .acceptTcp 1 {} 0 0, .clock 1500000005]

/-- the second one stands behind the first one, which has more time -/
theorem tick_leaves_idle : ¬ ∀ (e : GwEnv) (conf : GwConf) (now : ℤ) (current : Option CryptGlobal) (events : List GwEvent)
    (w w' : World), ClockRises now events → exec (gwRun e events) (World.start conf now current) = (.ok (), w) →
      w.lastTickTime ≠ w.now → exec (gwEvent e .tick) w = (.ok (), w') → w.NoneLeft w' := by
  intro h
  have hleft := (h (scriptEnv [] 0) openConf 1500000000 none sooner _ _ (by unfold ClockRises; decide)
    (exec_of_fst (by decide +kernel)) (by decide +kernel) (exec_of_fst (by decide +kernel))).idles (1500000002, 1) (by decide +kernel)
  exact absurd hleft (by decide +kernel)

end AtFrame.Gateway
