/-
How long a session waits for a reconnect.

`session_manager::close` enters the session into `reconnect_cache_` under its id and adds a timer. A reconnect takes the entry
away, but the timer of the old session stays; when it is due, `tick` erases whatever stands under the id then, and that may be
the session that took the id over and waits itself now.

- `Shut.parked`: what closings do to the sessions that wait;
- `Walk.lasting`: the invariant, where no timer and no close meets the entry of another session;
- `run_lasting`: every run;
- `run_lasting_twice`: a client that loses its connection twice.

Premise (`Undisturbed`, for each step): a timer that is due finds its own session under its id, and a close that lets a session
wait finds no other one there. Witness `run_lasting_beyond`: a client that came back loses its connection again when the timer of
the first loss is gone. In `run_lasting_twice` the first timer of the client is still there when its connection is lost again, and
takes the second wait away.
-/
import AtFrame.Gateway.Timers

namespace AtFrame.Gateway

open AtFrame.Lib

/-- a close with which the session starts to wait -/
def Parks (s : ℕ) : Core × Step → Prop
  | (c, .managerClose id _ true) => c.actived.lookup id = some s ∧ 0 < c.conf.reconnectTimeout
  | _ => False

/-- a close of the session that waits, without a reconnect -/
def Frees (s : ℕ) : Core × Step → Prop
  | (c, .managerClose id _ false) => c.actived.lookup id = none ∧ c.reconnectCache.lookup id = some s
  | _ => False

/-- the wait of the session, which began in `c₀`, is over: `tick` finds a timer when its full time is over, the session is
reconnected or closed, or `reset` clears the cache -/
def Releases (c₀ : Core) (s : ℕ) : Core × Step → Prop
  | (c, .expireReconnect _) => c₀.waitDue ≤ c.now
  | (_, .initReconnect _ old) => old = s
  | (c, .managerClose id reason false) => Frees s (c, .managerClose id reason false)
  | (_, .cleared) => True
  | _ => False

/-- the session that starts to wait with the step `x` is in the cache, or its wait is over behind `x` -/
def Core.Holds (w : Core) (x : Core × Step) (post : List (Core × Step)) : Prop :=
  ∀ s, Parks s x → w.reconnectCache.lookup (x.1.sess s).id = some s ∨ ∃ y ∈ post, Releases x.1 s y

def World.Lasts (w : World) : Prop := EachSince w.Holds w.history

/-- the entry of another session under the id is due as well -/
def Core.Overdue (w : Core) (t : ℕ) : Prop := ∃ due ∈ w.reconnectTimeout, due.2 = t ∧ due.1 ≤ w.now

/-- no timer that is due meets the entry of another session that still has time, and no close that starts a wait meets one -/
def Undisturbed : Core × Step → Prop
  | (c, .expireReconnect s) => ∀ t ∈ c.reconnectCache.lookup (c.sess s).id, t = s ∨ c.Overdue t
  | (c, .managerClose id _ true) => 0 < c.conf.reconnectTimeout →
    ∀ s ∈ c.actived.lookup id, ∀ t ∈ c.reconnectCache.lookup (c.sess s).id, t = s
  | _ => True

variable {e : GwEnv} {P : Permit} {S : Set ℕ} {w w' : World} {s : ℕ} {new : List (Core × Step)}

/-! ## Deciding who waits -/

theorem Parks.actived {x : Core × Step} (h : Parks s x) : ∃ id, x.1.actived.lookup id = some s := by
  obtain ⟨c, step⟩ := x
  cases step with
  | managerClose id reason allow =>
    cases allow with
    | true => exact ⟨id, h.1⟩
    | false => exact h.elim
  | _ => exact h.elim

instance (s : ℕ) : DecidablePred (Frees s) := by
  rintro ⟨_, _ | _⟩ <;> dsimp only [Frees] <;> try infer_instance
  rename_i allow
  rcases allow with _ | _ <;> infer_instance

instance (c₀ : Core) (s : ℕ) : DecidablePred (Releases c₀ s) := by
  rintro ⟨_, _ | _⟩ <;> dsimp only [Releases] <;> try infer_instance
  rename_i allow
  rcases allow with _ | _ <;> infer_instance

instance (w : Core) (x : Core × Step) (post : List (Core × Step)) : Decidable (w.Holds x post) := by
  rcases x with ⟨c, _ | _⟩
  case managerClose id reason allow =>
    rcases allow with _ | _
    · exact .isTrue fun _ h => h.elim
    · exact decidable_of_iff (∀ s ∈ c.actived.lookup id, 0 < c.conf.reconnectTimeout →
          w.reconnectCache.lookup (c.sess s).id = some s ∨ ∃ y ∈ post, Releases c s y)
        ⟨fun h s hs => h s hs.1 hs.2, fun h s hs htimeout => h s ⟨hs, htimeout⟩⟩
  all_goals exact .isTrue fun _ h => h.elim

instance (w : World) : Decidable w.Lasts := inferInstanceAs (Decidable (EachSince w.Holds w.history))

instance (w : Core) (t : ℕ) : Decidable (w.Overdue t) := inferInstanceAs (Decidable (∃ due ∈ w.reconnectTimeout, _))

instance : DecidablePred Undisturbed := by
  rintro ⟨_, _ | _⟩ <;> dsimp only [Undisturbed] <;> try infer_instance
  rename_i allow
  rcases allow with _ | _ <;> infer_instance

instance (w : World) (ev : GwEvent) : Decidable (ev.KeepsTimeouts w) := by
  rcases ev with _ | _ <;> dsimp only [GwEvent.KeepsTimeouts] <;> infer_instance

/-! ## Closings -/

theorem Frees.releases {c₀ : Core} {y : Core × Step} (h : Frees s y) : Releases c₀ s y := by
  obtain ⟨c, step⟩ := y
  cases step with
  | managerClose id reason allow =>
    cases allow with
    | false => exact h
    | true => exact h.elim
  | _ => exact h.elim

/-- the session is not in both maps -/
def Core.Apart (w : Core) (s : ℕ) : Prop := ∀ k, w.reconnectCache.lookup k = some s → ∀ j, w.actived.lookup j ≠ some s

/-- the steps `new` are recorded, and sessions start to wait with them or stop to do so -/
structure World.Parked (w w' : World) (new : List (Core × Step)) : Prop where
  history : w'.history = w.history ++ new
  stays : ∀ k s, w.reconnectCache.lookup k = some s → w'.reconnectCache.lookup k = some s ∨ ∃ y ∈ new, Frees s y
  since : EachSince (fun x post => ∀ s, Parks s x → w.Apart s →
    w'.reconnectCache.lookup (x.1.sess s).id = some s ∨ ∃ y ∈ post, Frees s y) new
  cores : ∀ x ∈ new, x.1.now = w.now ∧ x.1.conf = w.conf ∧ ∀ k s, x.1.actived.lookup k = some s → w.actived.lookup k = some s
  timers : ∀ x ∈ new, ∀ s, Parks s x → ∃ due, (due, s) ∈ w'.reconnectTimeout
  out : ∀ x ∈ new, ∀ s, Parks s x → ∀ j, w'.actived.lookup j ≠ some s

theorem World.Parked.none (hhistory : w'.history = w.history)
    (hcached : ∀ k s, w.reconnectCache.lookup k = some s → w'.reconnectCache.lookup k = some s) : w.Parked w' [] where
  history := hhistory.trans (List.append_nil _).symm
  stays k s hk := .inl (hcached k s hk)
  since := eachSince_nil
  cores _ hx := absurd hx List.not_mem_nil
  timers _ hx := absurd hx List.not_mem_nil
  out _ hx := absurd hx List.not_mem_nil

/-- a step with which nobody starts to wait -/
theorem World.Parked.step {step : Step} (hstep : ∀ s, ¬ Parks s (w.toCore, step)) : w.Parked (w.recorded step) [(w.toCore, step)] where
  history := rfl
  stays _ _ hk := .inl hk
  since := eachSince_cons.2 ⟨fun s hs => absurd hs (hstep s), eachSince_nil⟩
  cores x hx := by
    rw [List.mem_singleton.1 hx]
    exact ⟨rfl, rfl, fun _ _ hk => hk⟩
  timers x hx s hs := by
    rw [List.mem_singleton.1 hx] at hs
    exact absurd hs (hstep s)
  out x hx s hs := by
    rw [List.mem_singleton.1 hx] at hs
    exact absurd hs (hstep s)

theorem World.Parked.trans {w₁ : World} {new' : List (Core × Step)} (h : w.Parked w₁ new) (h' : w₁.Parked w' new')
    (holder : w.Older S w₁) (holder' : w₁.Older S w') (hapart : ∀ s, w.Apart s → w₁.Apart s) : w.Parked w' (new ++ new') where
  history := by rw [h'.history, h.history, List.append_assoc]
  stays k s hk := by
    rcases h.stays k s hk with hk | ⟨y, hy, hfree⟩
    · exact (h'.stays k s hk).imp_right fun ⟨y, hy, hfree⟩ => ⟨y, List.mem_append_right _ hy, hfree⟩
    · exact .inr ⟨y, List.mem_append_left _ hy, hfree⟩
  since := by
    refine h.since.append (fun x _ post hx s hs hsapart => ?_) (h'.since.mono fun x _ post hx s hs hsapart => hx s hs (hapart s hsapart))
    rcases hx s hs hsapart with hk | ⟨y, hy, hfree⟩
    · exact (h'.stays _ s hk).imp_right fun ⟨y, hy, hfree⟩ => ⟨y, List.mem_append_right _ hy, hfree⟩
    · exact .inr ⟨y, List.mem_append_left _ hy, hfree⟩
  cores x hx := by
    rcases List.mem_append.1 hx with hx | hx
    · exact h.cores x hx
    · obtain ⟨hnow, hconf, hactived⟩ := h'.cores x hx
      exact ⟨hnow.trans holder.now, hconf.trans holder.conf, fun k s hk => holder.actived k s (hactived k s hk)⟩
  timers x hx s hs := by
    rcases List.mem_append.1 hx with hx | hx
    · exact (h.timers x hx s hs).imp fun _ ht => holder'.timers.subset ht
    · exact h'.timers x hx s hs
  out x hx s hs j hj := by
    rcases List.mem_append.1 hx with hx | hx
    · exact h.out x hx s hs j (holder'.actived j s hj)
    · exact h'.out x hx s hs j hj

/-- a close starts to wait, and then more happens -/
theorem World.Parked.start {w₀ w₁ : World} {id : UInt64} {reason : ℤ} (h : w₀.Parked w₁ new) (holder : w₀.Older S w₁)
    (hsingle : ∀ j k t, w.actived.lookup j = some t → w.actived.lookup k = some t → j = k)
    (hlook : w.actived.lookup id = some s) (hfound : w₁.actived.lookup id = some s)
    (hrec : w₀.history = w.history ++ [(w.toCore, .managerClose id reason true)])
    (hnow : w₀.now = w.now) (hconf : w₀.conf = w.conf) (hactived : w₀.actived = w.actived)
    (hcache : w₀.reconnectCache = w.reconnectCache.insert (w.sess s).id s) (htimer : (w.waitDue, s) ∈ w₀.reconnectTimeout)
    (hundisturbed : ∀ t, w.reconnectCache.lookup (w.sess s).id = some t → t = s)
    (hw' : w'.history = w₁.history ∧ w'.reconnectCache = w₁.reconnectCache ∧ w'.reconnectTimeout = w₁.reconnectTimeout ∧
      w'.actived = w₁.actived.erase id) :
    w.Parked w' ((w.toCore, .managerClose id reason true) :: new) where
  history := by rw [hw'.1, h.history, hrec, List.append_assoc, List.singleton_append]
  stays k t hk := by
    have hk₀ : w₀.reconnectCache.lookup k = some t := by
      rw [hcache]
      by_cases hid : k = (w.sess s).id
      · subst hid
        rw [AList.lookup_insert, hundisturbed t hk]
      · rw [AList.lookup_insert_ne hid]
        exact hk
    rw [hw'.2.1]
    exact (h.stays k t hk₀).imp_right fun ⟨y, hy, hfree⟩ => ⟨y, List.mem_cons_of_mem _ hy, hfree⟩
  since := by
    rw [hw'.2.1]
    refine eachSince_cons.2 ⟨fun t ht _ => ?_, h.since.mono fun x hx post hpost t ht htapart => ?_⟩
    · obtain rfl : s = t := Option.some.inj (hlook.symm.trans ht.1)
      refine h.stays (w.sess s).id s ?_
      rw [hcache, AList.lookup_insert]
    · -- the session itself does not start to wait once more
      have hts : t ≠ s := fun hts => h.out x hx t ht id (hts ▸ hfound)
      refine hpost t ht fun k hk j hj => ?_
      rw [hcache] at hk
      rw [hactived] at hj
      by_cases hid : k = (w.sess s).id
      · subst hid
        rw [AList.lookup_insert] at hk
        exact hts (Option.some.inj hk).symm
      · rw [AList.lookup_insert_ne hid] at hk
        exact htapart k hk j hj
  cores x hx := by
    rcases List.mem_cons.1 hx with rfl | hx
    · exact ⟨rfl, rfl, fun _ _ hk => hk⟩
    · obtain ⟨hnow', hconf', hactived'⟩ := h.cores x hx
      exact ⟨hnow'.trans hnow, hconf'.trans hconf, fun k t hk => hactived ▸ hactived' k t hk⟩
  timers x hx t ht := by
    rw [hw'.2.2.1]
    rcases List.mem_cons.1 hx with rfl | hx
    · obtain rfl : s = t := Option.some.inj (hlook.symm.trans ht.1)
      exact ⟨_, holder.timers.subset htimer⟩
    · exact h.timers x hx t ht
  out x hx t ht j hj := by
    rw [hw'.2.2.2] at hj
    obtain ⟨hne, hj⟩ := lookup_of_erase hj
    rcases List.mem_cons.1 hx with rfl | hx
    · obtain rfl : s = t := Option.some.inj (hlook.symm.trans ht.1)
      refine hne (hsingle j id s ?_ hlook)
      rw [← hactived]
      exact holder.actived j s hj
    · exact h.out x hx t ht j hj

theorem not_parks_drop {c : Core} {id : UInt64} {reason : ℤ} {allow : Bool} (h : ¬ (0 < c.conf.reconnectTimeout ∧ allow = true)) :
    ¬ Parks s (c, .managerClose id reason allow) := by
  cases allow with
  | true => exact fun hs => h ⟨hs.2, rfl⟩
  | false => exact fun hs => hs

/-- closings that leave a session active put it into the cache only if it was there -/
theorem Shut.apart (h : Shut S w w') (hsingle : ∀ j k t, w.actived.lookup j = some t → w.actived.lookup k = some t → j = k)
    (hs : w.Apart s) : w'.Apart s := fun k hk j hj => by
  rcases h.cached_out hsingle hk with hk | hout
  · exact hs k hk j (h.older.actived j s hj)
  · exact hout j hj

theorem Shut.parked (h : Shut S w w') (hsingle : ∀ j k t, w.actived.lookup j = some t → w.actived.lookup k = some t → j = k)
    (hfair : ∀ x ∈ w'.history, Undisturbed x) : ∃ new, w.Parked w' new := by
  induction h with
  | refl w => exact ⟨[], .none rfl fun _ _ hk => hk⟩
  | @trans w w₁ w₂ h h' ih ih' =>
    obtain ⟨new, hnew⟩ := ih hsingle fun x hx => hfair x (h'.older.history.subset hx)
    have hsingle₁ : ∀ j k t, w₁.actived.lookup j = some t → w₁.actived.lookup k = some t → j = k := fun j k t hj hk =>
      hsingle j k t (h.older.actived j t hj) (h.older.actived k t hk)
    obtain ⟨new', hnew'⟩ := ih' hsingle₁ hfair
    exact ⟨new ++ new', hnew.trans hnew' h.older h'.older fun s hs => h.apart hsingle hs⟩
  | check => exact ⟨_, .step fun _ hs => hs.elim⟩
  | @miss w id allow reason _ hlook _ =>
    refine ⟨_, .step fun s hs => ?_⟩
    cases allow with
    | true => exact absurd (hlook.symm.trans hs.1) (Option.some_ne_none s).symm
    | false => exact hs.elim
  | wrote | light | object | closeDead => exact ⟨[], .none rfl fun _ _ hk => hk⟩
  | close _ _ _ _ _ _ _ ih =>
    obtain ⟨new, h⟩ := ih hsingle hfair
    exact ⟨new, h.history, h.stays, h.since, h.cores, h.timers, h.out⟩
  | remove _ _ _ _ _ ih =>
    split_ifs at hfair ⊢
    · obtain ⟨new, h⟩ := ih hsingle hfair
      exact ⟨new, h.history, h.stays, h.since, h.cores, h.timers, h.out⟩
    · obtain ⟨new, h⟩ := ih hsingle hfair
      exact ⟨new, h.history, h.stays, h.since, h.cores, h.timers, h.out⟩
  | @wait w w₁ id reason s _ hlook _ htimeout _ _ h _ hfound ih =>
    have hrecord : (w.toCore, Step.managerClose id reason true) ∈ w₁.history :=
      h.older.history.subset (List.mem_append_right w.history (List.mem_singleton_self _))
    obtain ⟨new, hnew⟩ := ih hsingle hfair
    exact ⟨_, hnew.start h.older hsingle hlook hfound rfl rfl rfl rfl rfl (List.mem_append_right _ (List.mem_singleton_self _))
      (hfair _ hrecord htimeout s hlook) ⟨rfl, rfl, rfl, rfl⟩⟩
  | @waitDead w id reason s _ hlook _ htimeout _ =>
    have hrecord : (w.toCore, Step.managerClose id reason true) ∈ w.history ++ [(w.toCore, .managerClose id reason true)] :=
      List.mem_append_right w.history (List.mem_singleton_self _)
    have hself : ((w.recorded (.managerClose id reason true)).startWait s).Parked
        ((w.recorded (.managerClose id reason true)).startWait s) [] := .none rfl fun _ _ hk => hk
    exact ⟨_, hself.start (S := S) (.refl _) hsingle hlook hlook rfl rfl rfl rfl rfl (List.mem_append_right _ (List.mem_singleton_self _))
      (hfair _ hrecord htimeout s hlook) ⟨rfl, rfl, rfl, rfl⟩⟩
  | @drop w w₁ id reason allow s _ _ _ hno h _ _ ih =>
    obtain ⟨new, hnew⟩ := ih hsingle hfair
    have hstep : w.Parked (w.recorded (.managerClose id reason allow)) [(w.toCore, .managerClose id reason allow)] :=
      .step fun _ => not_parks_drop hno
    have h₁ := hstep.trans hnew (w.older_recorded _) h.older fun _ hs => hs
    exact ⟨_, h₁.history, h₁.stays, h₁.since, h₁.cores, h₁.timers, fun x hx t ht j hj => h₁.out x hx t ht j (lookup_of_erase hj).2⟩
  | @dropCached w w₁ id reason s _ hnone hlook _ h _ hfound ih =>
    obtain ⟨new, hnew⟩ := ih hsingle hfair
    have hstep : w.Parked (w.recorded (.managerClose id reason false)) [(w.toCore, .managerClose id reason false)] :=
      .step fun _ hs => hs.elim
    have h₁ := hstep.trans hnew (w.older_recorded _) h.older fun _ hs => hs
    have herase : ∀ k t, k ≠ id → w₁.reconnectCache.lookup k = some t →
        ((w₁.modSess s (Session.setWaiting false)).dropCached id).reconnectCache.lookup k = some t := fun k t hne hk =>
      (AList.lookup_erase_ne hne).trans hk
    refine ⟨_, h₁.history, fun k t hk => ?_, h₁.since.mono fun x hx post hpost t ht htapart => ?_, h₁.cores, h₁.timers, h₁.out⟩
    · by_cases hid : k = id
      · subst hid
        obtain rfl : s = t := Option.some.inj (hlook.symm.trans hk)
        exact .inr ⟨_, List.mem_cons_self, hnone, hlook⟩
      · exact (h₁.stays k t hk).imp_left (herase k t hid)
    · refine (hpost t ht htapart).imp_left fun hk => herase _ t (fun hid => ?_) hk
      -- the session of the entry waited before, so that it is not active
      obtain rfl : s = t := Option.some.inj (hfound.symm.trans (hid ▸ hk))
      obtain ⟨j, hj⟩ := ht.actived
      exact htapart id hlook j ((h₁.cores x hx).2.2 j s hj)

/-! ## The invariant -/

/-- whoever started to wait lost its socket, is not active, and its timer is due when its full time is over -/
structure World.Lasting (w : World) : Prop where
  lasts : w.Lasts
  gone : ∀ x ∈ w.history, ∀ s, Parks s x → s < w.count ∧ (w.sess s).flags.hasFd = false ∧ (∀ k, w.actived.lookup k ≠ some s) ∧
    ∀ t ∈ w.reconnectTimeout, t.2 = s → t.1 = x.1.waitDue

/-- steps with which nobody starts to wait; an entry goes only where its wait is over -/
theorem World.Lasting.next (h : w.Lasting) (new : List (Core × Step)) (hhistory : w'.history = w.history ++ new)
    (hnew : ∀ x ∈ new, ∀ s, ¬ Parks s x)
    (hcache : ∀ x ∈ w.history, ∀ s, Parks s x → w.reconnectCache.lookup (x.1.sess s).id = some s →
      w'.reconnectCache.lookup (x.1.sess s).id = some s ∨ ∃ y ∈ new, Releases x.1 s y)
    (hcount : w.count ≤ w'.count) (hlost : ∀ s < w.count, (w.sess s).flags.hasFd = false → (w'.sess s).flags.hasFd = false)
    (hactived : ∀ x ∈ w.history, ∀ s, Parks s x → ∀ k, w'.actived.lookup k = some s → w.actived.lookup k = some s)
    (htimers : w'.reconnectTimeout ⊆ w.reconnectTimeout) : w'.Lasting where
  lasts := by
    rw [World.Lasts, hhistory]
    refine EachSince.append h.lasts (fun x hx _ hlast s hs => ?_) fun pre x post hl s hs => ?_
    · rcases hlast s hs with hk | ⟨y, hy, hrelease⟩
      · exact (hcache x hx s hs hk).imp_right fun ⟨y, hy, hrelease⟩ => ⟨y, List.mem_append_right _ hy, hrelease⟩
      · exact .inr ⟨y, List.mem_append_left _ hy, hrelease⟩
    · exact absurd hs (hnew x (hl ▸ List.mem_append_right _ List.mem_cons_self) s)
  gone x hx s hs := by
    rw [hhistory] at hx
    rcases List.mem_append.1 hx with hx | hx
    · obtain ⟨h₁, h₂, h₃, h₄⟩ := h.gone x hx s hs
      exact ⟨h₁.trans_le hcount, hlost s h₁ h₂, fun k hk => h₃ k (hactived x hx s hs k hk), fun t ht => h₄ t (htimers ht)⟩
    · exact absurd hs (hnew x hx s)

/-- nothing is recorded, and the maps and the sockets stay -/
theorem World.Lasting.same (h : w.Lasting) (hhistory : w'.history = w.history) (hcache : w'.reconnectCache = w.reconnectCache)
    (hcount : w.count ≤ w'.count) (hlost : ∀ s < w.count, (w.sess s).flags.hasFd = false → (w'.sess s).flags.hasFd = false)
    (hactived : ∀ k s, w'.actived.lookup k = some s → w.actived.lookup k = some s)
    (htimers : w'.reconnectTimeout ⊆ w.reconnectTimeout) : w'.Lasting :=
  h.next [] (hhistory.trans (List.append_nil _).symm) (fun _ hx => absurd hx List.not_mem_nil)
    (fun _ _ _ _ hk => .inl (hcache ▸ hk)) hcount hlost (fun _ _ _ _ k hk => hactived k _ hk) htimers

theorem World.Lasting.recorded (h : w.Lasting) {step : Step} (hstep : ∀ s, ¬ Parks s (w.toCore, step)) : (w.recorded step).Lasting :=
  h.next [(w.toCore, step)] rfl (fun _ hx s => List.mem_singleton.1 hx ▸ hstep s) (fun _ _ _ _ hk => .inl hk) le_rfl
    (fun _ _ hs => hs) (fun _ _ _ _ _ hk => hk) fun _ ht => ht

/-- a change of one session -/
theorem World.Lasting.setSess {x : Session} (h : w.Lasting) (hfd : (w.sess s).flags.hasFd = false → x.flags.hasFd = false) :
    (w.setSess s x).Lasting := by
  refine h.same rfl rfl le_rfl (fun t _ ht => ?_) (fun _ _ hk => hk) fun _ ht => ht
  by_cases hts : t = s
  · subst hts
    rw [World.setSess_sess]
    exact hfd ht
  · rw [World.setSess_sess_ne hts]
    exact ht

theorem World.Lasting.noticed (h : w.Lasting) (s : ℕ) (body : SsBody) (len : ℕ) (ret : ℤ) : (w.noticed s body len ret).Lasting := by
  have hset : (w.modSess s fun x => x.setLimit (x.limit.addRecv len)).Lasting := h.setSess fun h => h
  exact ⟨hset.lasts, hset.gone⟩

theorem Shut.lasting (h : Shut S w w') (hcounted : ∀ k s, w.actived.lookup k = some s → s < w.count) (hsteady : w.Steady)
    (hparted : w.Parted) (hretired : w.Retired) (hfair : ∀ x ∈ w'.history, Undisturbed x) (hw : w.Lasting) : w'.Lasting := by
  obtain ⟨new, hnew⟩ := h.parked hparted.single hfair
  refine ⟨?_, fun x hx s hs => ?_⟩
  · rw [World.Lasts, hnew.history]
    refine EachSince.append hw.lasts (fun _ _ _ hlast s hs => ?_) (hnew.since.mono fun _ _ _ hlast s hs => ?_)
    · rcases hlast s hs with hk | ⟨y, hy, hrelease⟩
      · exact (hnew.stays _ s hk).imp_right fun ⟨y, hy, hfree⟩ => ⟨y, List.mem_append_right _ hy, hfree.releases⟩
      · exact .inr ⟨y, List.mem_append_left _ hy, hrelease⟩
    · exact (hlast s hs fun k hk => hparted.apart k s hk).imp_right fun ⟨y, hy, hfree⟩ => ⟨y, hy, hfree.releases⟩
  · rw [hnew.history] at hx
    rcases List.mem_append.1 hx with hx | hx
    · obtain ⟨hcount, hlost, hout, hdue⟩ := hw.gone x hx s hs
      refine ⟨h.older.count ▸ hcount, h.lost hlost, fun k hk => hout k (h.older.actived k s hk), fun t ht hts => ?_⟩
      rcases h.older.waits t ht with ht | ⟨j, hj⟩
      · exact hdue t ht hts
      · exact absurd (hts ▸ hj) (hout j)
    · obtain ⟨hnow, hconf, hactived⟩ := hnew.cores x hx
      obtain ⟨id, hid⟩ := hs.actived
      have hactive := hactived id s hid
      obtain ⟨due, htimer⟩ := hnew.timers x hx s hs
      refine ⟨h.older.count ▸ hcounted id s hactive, (h.steady hsteady).timers _ htimer, hnew.out x hx s hs, fun t ht hts => ?_⟩
      obtain ⟨added, hadded⟩ := h.waiting
      rw [hadded.timers] at ht
      rcases List.mem_append.1 ht with ht | ht
      · exact absurd (hts ▸ hactive) (hretired t ht id)
      · rw [hadded.dues t ht, Core.waitDue, Core.waitDue, hnow, hconf]

/-! ## Moves -/

theorem World.Lasting.enrolled (h : w.Lasting) (hs : ∀ x ∈ w.history, ¬ Parks s x) : (w.enrolled s).Lasting := by
  refine h.next [] (List.append_nil _).symm (fun _ hx => absurd hx List.not_mem_nil) (fun _ _ _ _ hk => .inl hk) le_rfl
    (fun _ _ hs => hs) (fun x hx t ht k hk => ?_) fun _ ht => ht
  rcases lookup_enrolled hk with ⟨-, rfl⟩ | ⟨-, hk⟩
  · exact absurd ht (hs x hx)
  · exact hk

/-- a connected session did not wait -/
theorem World.Lasting.not_parks (h : w.Lasting) (halive : (w.sess s).Alive) : ∀ x ∈ w.history, ¬ Parks s x := fun x hx hs =>
  Bool.false_ne_true ((h.gone x hx s hs).2.1.symm.trans halive.1)

/-- the end of `reconnect` -/
theorem World.Lasting.resumed {old : ℕ} {oldId : UInt64} (h : w.Lasting) (hlook : w.reconnectCache.lookup oldId = some old) :
    ((w.takenOver s old oldId).recorded (.reconnected s oldId)).Lasting := by
  have hlater := World.Later.takenOver w s old oldId
  have hinit : (w.takenOver s old oldId).Lasting := by
    refine h.next [(w.toCore, .initReconnect s old)] rfl (fun x hx t ht => ?_) (fun x _ t _ hk => ?_) le_rfl
      (fun t _ ht => (hlater.sess t).lost ht) (fun _ _ _ _ _ hk => hk) fun _ ht => ht
    · rw [List.mem_singleton.1 hx] at ht
      exact ht
    · by_cases hid : (x.1.sess t).id = oldId
      · obtain rfl : old = t := Option.some.inj (hlook.symm.trans (hid ▸ hk))
        exact .inr ⟨_, List.mem_singleton_self _, rfl⟩
      · exact .inl ((AList.lookup_erase_ne hid).trans hk)
  exact hinit.recorded fun _ ht => ht

theorem Path.lasting (h : Path e w w') (hsound : w.Sound) (hparted : w.Parted) (hretired : w.Retired)
    (hfair : ∀ x ∈ w'.history, Undisturbed x) (hw : w.Lasting) : w'.Lasting := by
  induction h with
  | refl w => exact hw
  | trans h h' ih ih' =>
    exact ih' (h.sound hsound) (h.parted hparted) (h.retired hsound hparted hretired) hfair
      (ih hsound hparted hretired (fun x hx => hfair x (h'.later.history.subset hx)) hw)
  | shut h => exact h.lasting (fun k s hk => (hsound.actived k s hk).1) hsound.steady hparted hretired hfair hw
  | @record w step hallow =>
    refine hw.recorded fun s hs => ?_
    cases step with
    | managerClose => exact hallow
    | _ => exact hs
  | object => exact hw.setSess fun h => h
  | done => exact hw.setSess fun h => h
  | current | post => exact hw.same rfl rfl le_rfl (fun _ _ hs => hs) (fun _ _ hk => hk) fun _ ht => ht
  | @start w s router =>
    have hset : ((w.recorded (.initNewSession s)).modSess s fun x => (x.initNew (e.allocate w.allocated) router).initDone w).Lasting :=
      World.Lasting.setSess (w := w.recorded (.initNewSession s)) (hw.recorded fun _ hs => hs) fun h => h
    exact ⟨hset.lasts, hset.gone⟩
  | @announce w w₁ s len hs halive _ _ h =>
    have hnoticed := hw.noticed s (.addSession (w.sess s).peer) len 0
    have hsound' := hsound.noticed s (.addSession (w.sess s).peer) len 0
    have h₁ : w₁.Lasting := h.shut.lasting (fun k s hk => (hsound'.actived k s hk).1) hsound'.steady ⟨hparted.single, hparted.apart⟩
      hretired hfair hnoticed
    have hset : (w₁.modSess s (Session.setRegistered true)).Lasting := h₁.setSess fun h => h
    refine hset.enrolled fun x hx hparks => ?_
    obtain ⟨new, hnew⟩ := h.shut.parked hparted.single hfair
    have hx' : x ∈ w.history ++ new := hnew.history ▸ hx
    rcases List.mem_append.1 hx' with hx | hx
    · exact hw.not_parks halive x hx hparks
    · obtain ⟨id, hid⟩ := hparks.actived
      exact hs.unlisted ⟨id, .inl ((hnew.cores x hx).2.2 id s hid)⟩
  | @unheard w w₁ s len ret _ _ h =>
    have hsound' := hsound.noticed s (.addSession (w.sess s).peer) len ret
    exact h.lasting (fun k s hk => (hsound'.actived k s hk).1) hsound'.steady ⟨hparted.single, hparted.apart⟩ hretired hfair
      (hw.noticed s _ len ret)
  | enroll _ halive => exact hw.enrolled (hw.not_parks halive)
  | resume _ _ hlook => exact hw.resumed hlook

/-- `tick` takes a timer: an entry under its id is due as well -/
theorem World.Lasting.expired {t : ℤ × ℕ} (h : w.Lasting) (ht : t ∈ w.reconnectTimeout) (hdue : t.1 ≤ w.now)
    (hfair : Undisturbed (w.toCore, .expireReconnect t.2)) : (w.expired t.2).Lasting := by
  have hdrop : ((w.recorded (.expireReconnect t.2)).dropCached (w.sess t.2).id).Lasting := by
    refine h.next [(w.toCore, .expireReconnect t.2)] rfl (fun x hx s hs => ?_) (fun x hx s hs hk => ?_) le_rfl
      (fun _ _ hs => hs) (fun _ _ _ _ _ hk => hk) fun _ ht => ht
    · rw [List.mem_singleton.1 hx] at hs
      exact hs
    · by_cases hid : (x.1.sess s).id = (w.sess t.2).id
      · refine .inr ⟨_, List.mem_singleton_self _, ?_⟩
        show x.1.waitDue ≤ w.now
        obtain ⟨-, -, -, hdues⟩ := h.gone x hx s hs
        rcases hfair s (hid ▸ hk) with hts | ⟨due, hmem, hdue₂, hdue₁⟩
        · exact hdues t ht hts.symm ▸ hdue
        · exact hdues due hmem hdue₂ ▸ hdue₁
      · exact .inl ((AList.lookup_erase_ne hid).trans hk)
  exact hdrop.setSess fun h => h

/-- **The invariant** holds along a walk on which no timer and no close meets the entry of another session. -/
theorem Walk.lasting (h : Walk e P w w') (hsound : w.Sound) (hparted : w.Parted) (hretired : w.Retired)
    (hfair : ∀ x ∈ w'.history, Undisturbed x) (hw : w.Lasting) : w'.Lasting := by
  induction h with
  | refl w => exact hw
  | trans h h' ih ih' =>
    exact ih' (h.sound hsound) (h.parted hparted) (h.retired hsound hparted hretired) hfair
      (ih hsound hparted hretired (fun x hx => hfair x (h'.history.subset hx)) hw)
  | path h => exact h.lasting hsound hparted hretired hfair hw
  | @accept seed fd peer w =>
    refine hw.same rfl rfl (Nat.le_succ _) (fun s hs hlost => ?_) (fun _ _ hk => hk) fun _ ht => ht
    rw [World.accepted_sess_ne hs.ne]
    exact hlost
  | @listen w s due _ _ =>
    have hset : (w.modSess s (Session.setReading true)).Lasting := hw.setSess fun h => h
    exact ⟨hset.lasts, hset.gone⟩
  | stream | router => exact hw.setSess fun h => h
  | @giveUp w w₁ s _ _ h _ =>
    have hrec : (w.recorded (.allocRead s)).Lasting := hw.recorded fun _ hs => hs
    have hlose : ((w.recorded (.allocRead s)).modSess s Session.loseFd).Lasting := hrec.setSess fun _ => rfl
    have hsteady : ((w.recorded (.allocRead s)).modSess s Session.loseFd).Steady := (hsound.steady.recorded _).modSess (.lost rfl)
    have h₁ : w₁.Lasting := h.lasting (fun k s hk => (hsound.actived k s hk).1) hsteady ⟨hparted.single, hparted.apart⟩ hretired hfair hlose
    exact h₁.setSess fun h => h
  | @expire w w₁ t rest htimers hdue h =>
    have ht : t ∈ w.reconnectTimeout := htimers ▸ List.mem_cons_self
    have hrecord : (w.toCore, Step.expireReconnect t.2) ∈ w₁.history :=
      h.older.history.subset (List.mem_append_right w.history (List.mem_singleton_self _))
    have hexpired : (w.expired t.2).Parted := hparted.fewer (fun _ _ hk => hk) fun _ _ hk => .inl (lookup_of_erase hk).2
    have hsound' := hsound.expired t.2
    have h₁ : w₁.Lasting := h.lasting (fun k s hk => (hsound'.actived k s hk).1) hsound'.steady hexpired hretired hfair
      (hw.expired ht hdue (hfair _ hrecord))
    exact h₁.same rfl rfl le_rfl (fun _ _ hs => hs) (fun _ _ hk => hk) (List.tail_subset _)
  | @tick w =>
    have hrec : (w.recorded .tick).Lasting := hw.recorded fun _ hs => hs
    exact ⟨hrec.lasts, hrec.gone⟩
  | reset => exact hw.recorded fun _ hs => hs
  | clearActived => exact hw.same rfl rfl le_rfl (fun _ _ hs => hs) (fun _ _ hk => SessionMap.empty_elim hk) fun _ ht => ht
  | @clearCache w =>
    refine hw.next [(w.toCore, .cleared)] rfl (fun x hx s hs => ?_) (fun _ _ _ _ _ => ?_) le_rfl (fun _ _ hs => hs)
      (fun _ _ _ _ _ hk => hk) fun _ ht => ht
    · rw [List.mem_singleton.1 hx] at hs
      exact hs
    · exact .inr ⟨_, List.mem_singleton_self _, trivial⟩
  | clearTimers => exact hw.same rfl rfl le_rfl (fun _ _ hs => hs) (fun _ _ hk => hk) (List.nil_subset _)
  | _ => exact ⟨hw.lasts, hw.gone⟩

theorem World.start_lasting (conf : GwConf) (now : ℤ) (current : Option CryptGlobal) : (World.start conf now current).Lasting :=
  ⟨eachSince_nil, fun _ hx => absurd hx List.not_mem_nil⟩

/-! ## Runs -/

/-- **Whoever waits for a reconnect** has its full time, in every run that leaves the entries of other sessions alone. -/
theorem run_lasting (e : GwEnv) (conf : GwConf) (now : ℤ) (current : Option CryptGlobal) (events : List GwEvent) {w : World}
    (hrun : exec (gwRun e events) (World.start conf now current) = (.ok (), w)) (hfair : ∀ x ∈ w.history, Undisturbed x) : w.Lasts := by
  have hwalk := (wp_ok (run_went e conf now current events) hrun).walk
  have hstart := World.start_distinct e.allocate conf now current
  exact (hwalk.lasting (World.start_sound conf now current) hstart.toParted (fun _ ht => absurd ht List.not_mem_nil) hfair
    (World.start_lasting conf now current)).lasts

/-- a client loses its connection, comes back, stays beyond its timer and loses the connection again -/
def backBeyondTimer : List GwEvent :=
  startOne ++ comeBack ++ [.clock 1500000060, .tick, .cmdDisconnect 1 0, .clock 1500000120, .tick]

theorem run_lasting_beyond : (exec (gwRun (scriptEnv [plainStartReq, plainReconnectReq] 2) backBeyondTimer)
    (World.start openConf 1500000000 none)).2.Lasts :=
  run_lasting _ openConf 1500000000 none backBeyondTimer (exec_of_fst (by decide +kernel)) (by decide +kernel)

/-- a client loses its connection, comes back, and loses it again 30 seconds later; 60 seconds behind the first time -/
def loseTwice : List GwEvent := startOne ++ comeBack ++ [.clock 1500000030, .cmdDisconnect 1 0, .clock 1500000060, .tick]

/-- the timer of the first time takes the session out of the cache 30 seconds too early -/
theorem run_lasting_twice : ¬ ∀ (e : GwEnv) (conf : GwConf) (now : ℤ) (current : Option CryptGlobal) (events : List GwEvent)
    (w : World), 0 < conf.reconnectTimeout → (∀ conf', .reload conf' ∉ events) →
      EachMeets (gwEvent e) (fun ev w => ev.KeepsTimeouts w) events (World.start conf now current) →
      exec (gwRun e events) (World.start conf now current) = (.ok (), w) → w.Lasts := by
  intro h
  have hlasts := h (scriptEnv [plainStartReq, plainReconnectReq] 2) openConf 1500000000 none loseTwice _ (by decide)
    (by simp [loseTwice, startOne, comeBack]) (by decide +kernel) (exec_of_fst (by decide +kernel))
  exact absurd hlasts (by decide +kernel)

end AtFrame.Gateway
