/-
Sessions that wait for a reconnect: their entries in the cache and their timers.

`session_manager::close` adds both at once, and a timer stands at the end of `reconnect_timeout_`. Whether the list stays in the
order of its times depends on the configuration when the timer is added: `ClosesInOrder`.

- `Shut.waiting`: the timers that closings add, with what they are added for;
- `Shut.waits`: whoever is in the cache has a timer;
- `Shut.inOrder`: the order of the list.
-/
import AtFrame.Lib.Expiry
import AtFrame.Gateway.Moves

namespace AtFrame.Gateway

open AtFrame.Lib

/-- whoever is in the cache has a timer -/
def Core.Waits (w : Core) : Prop := ∀ k s, w.reconnectCache.lookup k = some s → ∃ due, (due, s) ∈ w.reconnectTimeout

/-- when the timer of a session that is closed now will be due -/
def Core.waitDue (w : Core) : ℤ := w.now + w.conf.reconnectTimeout

/-- a close that allows to reconnect adds a timer -/
def Core.StartsWait (w : Core) (id : UInt64) : Prop := w.actived.lookup id ≠ none ∧ 0 < w.conf.reconnectTimeout

/-- where a close adds a timer, none in the list is due later -/
def ClosesInOrder : Core × Step → Prop
  | (c, .managerClose id _ true) => c.StartsWait id → ∀ t ∈ c.reconnectTimeout, t.1 ≤ c.waitDue
  | _ => True

/-- the timers `new` are added, for sessions that are not active any more -/
structure World.Waiting (w w' : World) (new : List (ℤ × ℕ)) : Prop where
  timers : w'.reconnectTimeout = w.reconnectTimeout ++ new
  dues : ∀ t ∈ new, t.1 = w.waitDue
  /-- the first of them by a close that was recorded -/
  recorded : new ≠ [] → ∃ c id reason, (c, .managerClose id reason true) ∈ w'.history ∧ c.StartsWait id ∧ c.now = w.now ∧
    c.conf = w.conf ∧ w.reconnectTimeout <+: c.reconnectTimeout
  cached : ∀ k s, w'.reconnectCache.lookup k = some s → w.reconnectCache.lookup k = some s ∨ ∃ due, (due, s) ∈ new
  out : (∀ j k s, w.actived.lookup j = some s → w.actived.lookup k = some s → j = k) →
    ∀ t ∈ new, ∀ j, w'.actived.lookup j ≠ some t.2

variable {S : Set ℕ} {w w' : World} {s : ℕ} {new : List (ℤ × ℕ)}

theorem World.Waiting.none (htimers : w'.reconnectTimeout = w.reconnectTimeout)
    (hcached : ∀ k s, w'.reconnectCache.lookup k = some s → w.reconnectCache.lookup k = some s) : w.Waiting w' [] where
  timers := htimers.trans (List.append_nil _).symm
  dues _ ht := absurd ht List.not_mem_nil
  recorded h := absurd rfl h
  cached k s hk := .inl (hcached k s hk)
  out _ _ ht := absurd ht List.not_mem_nil

theorem World.Waiting.trans {w₁ : World} {new' : List (ℤ × ℕ)} (h : w.Waiting w₁ new) (h' : w₁.Waiting w' new')
    (holder : w.Older S w₁) (holder' : w₁.Older S w') : w.Waiting w' (new ++ new') where
  timers := by rw [h'.timers, h.timers, List.append_assoc]
  dues t ht := by
    rcases List.mem_append.1 ht with ht | ht
    · exact h.dues t ht
    · rw [h'.dues t ht, Core.waitDue, Core.waitDue, holder.now, holder.conf]
  recorded hne := by
    by_cases hnew : new = []
    · obtain ⟨c, id, reason, hc, hstarts, hnow, hconf, hpre⟩ := h'.recorded fun hnew' => hne (by rw [hnew, hnew']; rfl)
      exact ⟨c, id, reason, hc, hstarts, hnow.trans holder.now, hconf.trans holder.conf, holder.timers.trans hpre⟩
    · obtain ⟨c, id, reason, hc, hrest⟩ := h.recorded hnew
      exact ⟨c, id, reason, holder'.history.subset hc, hrest⟩
  cached k s hk := by
    rcases h'.cached k s hk with hk | ⟨due, ht⟩
    · exact (h.cached k s hk).imp_right fun ⟨due, ht⟩ => ⟨due, List.mem_append_left _ ht⟩
    · exact .inr ⟨due, List.mem_append_right _ ht⟩
  out hsingle t ht j hj := by
    rcases List.mem_append.1 ht with ht | ht
    · exact h.out hsingle t ht j (holder'.actived j t.2 hj)
    · refine h'.out (fun j k s hj hk => ?_) t ht j hj
      exact hsingle j k s (holder.actived j s hj) (holder.actived k s hk)

/-- a close starts to wait, and then more happens -/
theorem World.Waiting.start {w₀ w₁ : World} {id : UInt64} {reason : ℤ} (h : w₀.Waiting w₁ new) (holder : w₀.Older S w₁)
    (hlook : w.actived.lookup id = some s) (htimeout : 0 < w.conf.reconnectTimeout) (hnow : w₀.now = w.now)
    (hconf : w₀.conf = w.conf) (hactived : w₀.actived = w.actived)
    (htimers : w₀.reconnectTimeout = w.reconnectTimeout ++ [(w.waitDue, s)])
    (hcached : ∀ k t, w₀.reconnectCache.lookup k = some t → w.reconnectCache.lookup k = some t ∨ t = s)
    (hrecord : (w.toCore, .managerClose id reason true) ∈ w₁.history)
    (hw' : w'.reconnectTimeout = w₁.reconnectTimeout ∧ w'.reconnectCache = w₁.reconnectCache ∧ w'.history = w₁.history ∧
      w'.actived = w₁.actived.erase id) : w.Waiting w' ((w.waitDue, s) :: new) where
  timers := by rw [hw'.1, h.timers, htimers, List.append_assoc, List.singleton_append]
  dues t ht := by
    rcases List.mem_cons.1 ht with rfl | ht
    · rfl
    · rw [h.dues t ht, Core.waitDue, Core.waitDue, hnow, hconf]
  recorded _ := by
    refine ⟨w.toCore, id, reason, hw'.2.2.1 ▸ hrecord, ⟨?_, htimeout⟩, rfl, rfl, List.prefix_refl _⟩
    rw [hlook]
    exact Option.some_ne_none s
  cached k t hk := by
    rw [hw'.2.1] at hk
    rcases h.cached k t hk with hk | ⟨due, ht⟩
    · refine (hcached k t hk).imp_right ?_
      rintro rfl
      exact ⟨_, List.mem_cons_self⟩
    · exact .inr ⟨due, List.mem_cons_of_mem _ ht⟩
  out hsingle t ht j hj := by
    rw [hw'.2.2.2] at hj
    obtain ⟨hne, hj⟩ := lookup_of_erase hj
    rcases List.mem_cons.1 ht with rfl | ht
    · refine hne (hsingle j id _ ?_ hlook)
      rw [← hactived]
      exact holder.actived j _ hj
    · exact h.out (hactived ▸ hsingle) t ht j hj

theorem Shut.waiting (h : Shut S w w') : ∃ new, w.Waiting w' new := by
  induction h with
  | refl w => exact ⟨[], .none rfl fun _ _ hk => hk⟩
  | trans h h' ih ih' =>
    obtain ⟨new, hnew⟩ := ih
    obtain ⟨new', hnew'⟩ := ih'
    exact ⟨new ++ new', hnew.trans hnew' h.older h'.older⟩
  | check | miss | wrote | light | object | closeDead => exact ⟨[], .none rfl fun _ _ hk => hk⟩
  | close _ _ _ _ _ _ _ ih =>
    obtain ⟨new, h⟩ := ih
    exact ⟨new, h.timers, h.dues, h.recorded, h.cached, h.out⟩
  | remove _ _ _ _ _ ih =>
    obtain ⟨new, h⟩ := ih
    refine ⟨new, ?_⟩
    split_ifs
    · exact ⟨h.timers, h.dues, h.recorded, h.cached, h.out⟩
    · exact ⟨h.timers, h.dues, h.recorded, h.cached, h.out⟩
  | @wait w w₁ id reason s _ hlook _ htimeout _ _ h _ _ ih =>
    obtain ⟨new, hnew⟩ := ih
    have hrecord := h.older.history.subset (List.mem_append_right w.history (List.mem_singleton_self _))
    exact ⟨_, hnew.start h.older hlook htimeout rfl rfl rfl rfl (fun _ _ hk => lookup_startWait hk) hrecord ⟨rfl, rfl, rfl, rfl⟩⟩
  | @waitDead w id reason s _ hlook _ htimeout _ =>
    have hself : ((w.recorded (.managerClose id reason true)).startWait s).Waiting
        ((w.recorded (.managerClose id reason true)).startWait s) [] := .none rfl fun _ _ hk => hk
    have hrecord : (w.toCore, .managerClose id reason true) ∈ w.history ++ [(w.toCore, .managerClose id reason true)] :=
      List.mem_append_right w.history (List.mem_singleton_self _)
    exact ⟨_, hself.start (S := S) (.refl _) hlook htimeout rfl rfl rfl rfl (fun _ _ hk => lookup_startWait hk) hrecord
      ⟨rfl, rfl, rfl, rfl⟩⟩
  | drop _ _ _ _ _ _ _ ih =>
    obtain ⟨new, h⟩ := ih
    exact ⟨new, h.timers, h.dues, h.recorded, h.cached, fun hsingle t ht j hj => h.out hsingle t ht j (lookup_of_erase hj).2⟩
  | dropCached _ _ _ _ _ _ _ ih =>
    obtain ⟨new, h⟩ := ih
    exact ⟨new, h.timers, h.dues, h.recorded, fun k s hk => h.cached k s (lookup_of_erase hk).2, h.out⟩

theorem Shut.waits (h : Shut S w w') (hw : w.Waits) : w'.Waits := by
  intro k s hk
  obtain ⟨new, hnew⟩ := h.waiting
  rw [hnew.timers]
  rcases hnew.cached k s hk with hk | ⟨due, ht⟩
  · obtain ⟨due, ht⟩ := hw k s hk
    exact ⟨due, List.mem_append_left _ ht⟩
  · exact ⟨due, List.mem_append_right _ ht⟩

/-- what closings add is not due -/
theorem Shut.timers (h : Shut S w w') : ∃ new, w'.reconnectTimeout = w.reconnectTimeout ++ new ∧ ∀ t ∈ new, w.now < t.1 := by
  obtain ⟨new, hnew⟩ := h.waiting
  refine ⟨new, hnew.timers, fun t ht => ?_⟩
  obtain ⟨c, id, reason, -, ⟨-, htimeout⟩, -, hconf, -⟩ := hnew.recorded (List.ne_nil_of_mem ht)
  rw [hnew.dues t ht]
  exact Int.lt_add_of_pos_right _ (hconf ▸ htimeout)

theorem Shut.inOrder (h : Shut S w w') (hclose : ∀ x ∈ w'.history, ClosesInOrder x) (hw : InOrder w.reconnectTimeout) :
    InOrder w'.reconnectTimeout := by
  obtain ⟨new, hnew⟩ := h.waiting
  have hold : new ≠ [] → ∀ t ∈ w.reconnectTimeout, t.1 ≤ w.waitDue := by
    intro hne t ht
    obtain ⟨c, id, reason, hc, hstarts, hnow, hconf, hpre⟩ := hnew.recorded hne
    have hdue : t.1 ≤ c.waitDue := hclose _ hc hstarts t (hpre.subset ht)
    rwa [Core.waitDue, hnow, hconf] at hdue
  rw [hnew.timers]
  exact hw.append hold hnew.dues

/-! ## Empty maps -/

def Core.Inactive (w : Core) : Prop := ∀ k, w.actived.lookup k = none

def Core.Uncached (w : Core) : Prop := ∀ k, w.reconnectCache.lookup k = none

theorem Shut.inactive (h : Shut S w w') (hw : w.Inactive) : w'.Inactive := fun k => h.older.lookup_none (hw k)

/-- only active sessions enter the cache -/
theorem Shut.uncached (h : Shut S w w') (hactive : w.Inactive) (hw : w.Uncached) : w'.Uncached := by
  intro k
  rw [Option.eq_none_iff_forall_ne_some]
  intro s hk
  rcases h.older.cached k s hk with hk | ⟨-, -, -, j, hj⟩
  · exact nomatch (hw k).symm.trans hk
  · exact nomatch (hactive j).symm.trans hj

end AtFrame.Gateway
