/-
How many session ids the gateway holds.

`on_evt_accept_tcp` compares both maps with `max_client_number` when a socket is accepted; the id of the session is held only
from `active_session` on, where nothing is compared. `FindsRoom` is what that function would have to check. Closings, timers
and reconnects only move entries or erase them, so that the limit holds as long as each activation finds room.

- `Walk.roomy`: the invariant, for any limit;
- `run_capacity`: no run whose activations find room holds more ids than configured;
- `run_capacity_race`: two sockets that are accepted before either handshake ends.

Premise: `FindsRoom`, for each activation, in the state before it. Connections, posts, ticks and the server's commands come in any
order. Witness `run_capacity_startOne`. In `run_capacity_race` the limit is one; both sockets are accepted because none has an id
yet, and both handshakes end with an active session.
-/
import AtFrame.Gateway.NullOwner

namespace AtFrame.Gateway

open AtFrame.Lib

variable {e : GwEnv} {P : Permit} {S : Set ℕ} {w w' : World} {s n : ℕ}

/-- the session ids in `actived_sessions_` and `reconnect_cache_` -/
def Core.heldIds (w : Core) : Finset UInt64 := w.actived.keys.toFinset ∪ w.reconnectCache.keys.toFinset

theorem Core.card_heldIds_le (w : Core) : w.heldIds.card ≤ w.held := by
  have hactived : w.actived.keys.toFinset.card ≤ w.actived.entries.length :=
    (List.toFinset_card_le _).trans (SessionMap.length_keys _).le
  have hcached : w.reconnectCache.keys.toFinset.card ≤ w.reconnectCache.entries.length :=
    (List.toFinset_card_le _).trans (SessionMap.length_keys _).le
  calc w.heldIds.card ≤ w.actived.keys.toFinset.card + w.reconnectCache.keys.toFinset.card := Finset.card_union_le _ _
    _ ≤ w.actived.entries.length + w.reconnectCache.entries.length := Nat.add_le_add hactived hcached
    _ = w.held := Nat.add_comm _ _

/-- where a session is activated, fewer than `n` entries are held, or its id is active already -/
def FindsRoom (n : ℕ) : Core × Step → Prop
  | (c, .activeSession s) => c.held < n ∨ c.actived.lookup (c.sess s).id ≠ none
  | _ => True

instance (n : ℕ) : DecidablePred (FindsRoom n) := by
  rintro ⟨_, _ | _⟩ <;> dsimp only [FindsRoom] <;> infer_instance

/-- at most `n` entries are held, now and at each activation so far -/
structure World.Roomy (n : ℕ) (w : World) : Prop where
  now : w.held ≤ n
  before : ∀ c s, (c, Step.activeSession s) ∈ w.history → c.held ≤ n

/-- nothing is activated, and no entry is added -/
theorem World.Roomy.next (h : w.Roomy n) (hheld : w'.held ≤ w.held)
    (hhistory : ∀ c s, (c, Step.activeSession s) ∈ w'.history → (c, Step.activeSession s) ∈ w.history) : w'.Roomy n :=
  ⟨hheld.trans h.now, fun c s hc => h.before c s (hhistory c s hc)⟩

theorem World.Roomy.recorded {a : Step} (h : w.Roomy n) (hheld : w'.held ≤ w.held)
    (hhistory : w'.history = w.history ++ [(w.toCore, a)]) : w'.Roomy n := by
  refine ⟨hheld.trans h.now, fun c t hc => ?_⟩
  rw [hhistory] at hc
  rcases List.mem_append.1 hc with hc | hc
  · exact h.before c t hc
  · exact (congrArg Core.held (Prod.mk.inj (List.mem_singleton.1 hc)).1).trans_le h.now

/-! ## Moves -/

theorem Shut.roomy (h : Shut S w w') (hw : w.Roomy n) : w'.Roomy n := by
  obtain ⟨new, hnew, hrec⟩ := h.recorded
  refine hw.next h.held fun c s hc => ?_
  rw [hnew] at hc
  exact (List.mem_append.1 hc).resolve_right fun hc => (hrec _ hc).1

theorem World.held_enrolled (w : World) (s : ℕ) : (w.enrolled s).held ≤ w.held + 1 :=
  Nat.add_le_add_left (SessionMap.length_insert_le _ _ _) _

/-- where the session is entered there is room for it -/
theorem Admitted.held_lt (h : Admitted e w s) (hw : w.Roomy n) (hroom : ∀ x ∈ w.history, FindsRoom n x) : w.held < n := by
  obtain ⟨c, hc, hless | ⟨hle, hfree⟩⟩ := h.room
  · exact hless.trans_le (hw.before c s hc)
  · rcases hroom _ hc with hlt | hfound
    · exact hle.trans_lt hlt
    · exact absurd hfree hfound

theorem Path.roomy (h : Path e w w') (hroom : ∀ x ∈ w'.history, FindsRoom n x) (hw : w.Roomy n) : w'.Roomy n := by
  induction h with
  | refl w => exact hw
  | trans _ h' ih ih' => exact ih' hroom (ih (fun x hx => hroom x (h'.later.history.subset hx)) hw)
  | shut h | unheard _ _ h => exact h.roomy ⟨hw.now, hw.before⟩
  | record => exact hw.recorded le_rfl rfl
  | object | done | current | post => exact ⟨hw.now, hw.before⟩
  | start => exact hw.recorded le_rfl rfl
  | @announce w w₁ s len hs _ _ _ h =>
    have h₁ : w₁.Roomy n := h.shut.roomy ⟨hw.now, hw.before⟩
    have hlt : w.held < n := hs.held_lt hw fun x hx => hroom x (h.shut.older.history.subset hx)
    refine ⟨(World.held_enrolled (w₁.modSess s (Session.setRegistered true)) s).trans ?_, h₁.before⟩
    exact (Nat.succ_le_succ h.shut.held).trans hlt
  | @enroll w s hs => exact ⟨(World.held_enrolled w s).trans (hs.held_lt hw hroom), hw.before⟩
  | @resume w s old oldId =>
    have hinit : (w.takenOver s old oldId).Roomy n :=
      hw.recorded (a := .initReconnect s old) (World.held_dropCached w oldId) rfl
    exact hinit.recorded (a := .reconnected s oldId) le_rfl rfl

/-- **The limit** holds along a walk whose activations find room. -/
theorem Walk.roomy (h : Walk e P w w') (hroom : ∀ x ∈ w'.history, FindsRoom n x) (hw : w.Roomy n) : w'.Roomy n := by
  induction h with
  | refl w => exact hw
  | trans _ h' ih ih' => exact ih' hroom (ih (fun x hx => hroom x (h'.history.subset hx)) hw)
  | path h => exact h.roomy hroom hw
  | @giveUp w w₁ s _ _ h _ =>
    have hstart : ((w.recorded (.allocRead s)).modSess s Session.loseFd).Roomy n :=
      hw.recorded (a := .allocRead s) le_rfl rfl
    exact ⟨(h.roomy hstart).now, (h.roomy hstart).before⟩
  | @expire w w₁ t _ _ _ h =>
    have hstart : (w.expired t.2).Roomy n := hw.recorded (a := .expireReconnect t.2) (World.held_dropCached w _) rfl
    exact ⟨(h.roomy hstart).now, (h.roomy hstart).before⟩
  | tick | reset => exact hw.recorded le_rfl rfl
  | clearActived => exact hw.next (Nat.add_le_add_left (Nat.zero_le _) _) fun _ _ hc => hc
  | clearCache => exact hw.recorded (Nat.add_le_add_right (Nat.zero_le _) _) rfl
  | _ => exact ⟨hw.now, hw.before⟩

/-! ## Runs -/

/-- **The configured number of clients** is kept by every run in which each activation finds room. -/
theorem run_capacity (e : GwEnv) (conf : GwConf) (now : ℤ) (current : Option CryptGlobal) (events : List GwEvent) {w : World}
    (hrun : exec (gwRun e events) (World.start conf now current) = (.ok (), w))
    (hroom : ∀ x ∈ w.history, FindsRoom conf.maxClientNumber x) : w.heldIds.card ≤ conf.maxClientNumber := by
  have hwalk := (wp_ok (run_went e conf now current events) hrun).walk
  have hstart : (World.start conf now current).Roomy conf.maxClientNumber :=
    ⟨Nat.zero_le _, fun _ _ hc => absurd hc List.not_mem_nil⟩
  exact w.card_heldIds_le.trans (hwalk.roomy hroom hstart).now

/-- room for one session -/
def smallConf : GwConf := { openConf with maxClientNumber := 1 }

theorem run_capacity_startOne :
    (exec (gwRun (scriptEnv [plainStartReq] 2) startOne) (World.start smallConf 1500000000 none)).2.heldIds.card ≤ 1 :=
  run_capacity (scriptEnv [plainStartReq] 2) smallConf 1500000000 none startOne (exec_of_fst (by decide +kernel)) (by decide +kernel)

/-- two clients connect, and both start a session then -/
def startTwo : List GwEvent :=
  [.acceptTcp 0 {} 0 0, .acceptTcp 1 {} 0 0, .uvRead 0 (.ok (scriptFrame 0)), .uvRead 1 (.ok (scriptFrame 0))]

/-- both sessions are active, with room for one -/
theorem run_capacity_race : ¬ ∀ (e : GwEnv) (conf : GwConf) (now : ℤ) (current : Option CryptGlobal) (events : List GwEvent)
    (w : World), 0 < conf.maxClientNumber → (∀ conf', .reload conf' ∉ events) →
      exec (gwRun e events) (World.start conf now current) = (.ok (), w) → w.heldIds.card ≤ conf.maxClientNumber := by
  intro h
  have hrace := h (scriptEnv [plainStartReq] 2) smallConf 1500000000 none startTwo _ (by decide) (by simp [startTwo])
    (exec_of_fst (by decide +kernel))
  exact absurd hrace (by decide +kernel)

end AtFrame.Gateway
