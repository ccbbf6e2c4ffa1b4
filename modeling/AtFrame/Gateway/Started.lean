/-
A handshake ends only for a session that was started or resumed, as long as no frame skips that.

`dispatch_handshake` takes the steps of both roles in any order, so that a client may send what only a server should: a
`START_RSP`, a `RECONNECT_RSP`, a `DH_PUBKEY_RSP` or a `VERIFY` may end the first handshake of a session that has no id yet.
`Skips` names these frames.

The results:

- `Walk.begun`: the invariant. A session that is inited has an id and was started or resumed in the steps that are recorded;
- `run_started`: in every run without such a frame, a handshake that ends with success, and each call of `active_session`, is one of
  a session that was started or resumed before;
- `not_skips_of_start`: clients that ask only to start send no such frame, so that the premise is met by each of their runs
  (`run_started_startOne`);
- `run_started_startRsp`: the premise is needed. A client that answers where it should ask is active, and nothing was started.
-/
import AtFrame.Gateway.Distinct

namespace AtFrame.Gateway

open AtFrame.Lib

/-- the step is a call of `new_session_fn`, or the end of a `reconnect_fn` that returns 0 -/
def Step.Opens (s : ℕ) : Step → Prop
  | .initNewSession t | .reconnected t _ => t = s
  | _ => False

instance (s : ℕ) : DecidablePred (Step.Opens s) := by
  rintro (_ | _) <;> dsimp only [Step.Opens] <;> infer_instance

/-- the session was started or resumed in these steps -/
def Opened (s : ℕ) (pre : List (Core × Step)) : Prop := ∃ x ∈ pre, x.2.Opens s

instance (s : ℕ) (pre : List (Core × Step)) : Decidable (Opened s pre) := inferInstanceAs (Decidable (∃ x ∈ pre, x.2.Opens s))

/-- what has to come before a handshake ends with success, and before `active_session` is called -/
def Started (pre : List (Core × Step)) : Core × Step → Prop
  | (_, .handshakeDone s status) => status = 0 → Opened s pre
  | (c, .activeSession s) => (c.sess s).flags.inited = true ∧ (c.sess s).id ≠ 0 ∧ Opened s pre
  | _ => True

variable {e : GwEnv} {P : Permit} {S : Set ℕ} {w w' : World} {s : ℕ}

theorem Opened.mono {pre pre' : List (Core × Step)} (h : Opened s pre) (hpre : pre ⊆ pre') : Opened s pre' :=
  h.imp fun _ hx => ⟨hpre hx.1, hx.2⟩

/-! ## The invariant -/

/-- a session is inited by a start or a resumption, which gives it an id, and only such sessions are in the maps -/
structure World.Begun (w : World) : Prop where
  opened : ∀ s, (w.sess s).flags.inited = true → (w.sess s).id ≠ 0 ∧ Opened s w.history
  actived : ∀ k s, w.actived.lookup k = some s → (w.sess s).flags.inited = true
  cached : ∀ k s, w.reconnectCache.lookup k = some s → (w.sess s).flags.inited = true
  steps : EachPast Started w.history

/-- nobody is started or resumed, and nobody enters the maps -/
theorem World.Begun.next (h : w.Begun) (hsess : ∀ t, (w'.sess t).id = (w.sess t).id ∧ (w'.sess t).flags.inited = (w.sess t).flags.inited)
    (hactived : ∀ k t, w'.actived.lookup k = some t → w.actived.lookup k = some t)
    (hcached : ∀ k t, w'.reconnectCache.lookup k = some t → w.reconnectCache.lookup k = some t ∨ (w.sess t).flags.inited = true)
    (new : List (Core × Step)) (hhistory : w'.history = w.history ++ new) (hsteps : EachPast Started w'.history) : w'.Begun where
  opened t ht := by
    rw [(hsess t).2] at ht
    obtain ⟨hid, hopened⟩ := h.opened t ht
    rw [(hsess t).1, hhistory]
    exact ⟨hid, hopened.mono (List.subset_append_left _ _)⟩
  actived k t hk := (hsess t).2.trans (h.actived k t (hactived k t hk))
  cached k t hk := (hsess t).2.trans ((hcached k t hk).elim (h.cached k t) id)
  steps := hsteps

/-- the same where nothing is recorded -/
theorem World.Begun.same (h : w.Begun) (hsess : ∀ t, (w'.sess t).id = (w.sess t).id ∧ (w'.sess t).flags.inited = (w.sess t).flags.inited)
    (hactived : ∀ k t, w'.actived.lookup k = some t → w.actived.lookup k = some t)
    (hcached : ∀ k t, w'.reconnectCache.lookup k = some t → w.reconnectCache.lookup k = some t)
    (hhistory : w'.history = w.history) : w'.Begun :=
  h.next hsess hactived (fun k t hk => .inl (hcached k t hk)) [] (hhistory.trans (List.append_nil _).symm) (hhistory ▸ h.steps)

theorem World.Begun.recorded (h : w.Begun) {step : Step} (hstep : Started w.history (w.toCore, step)) : (w.recorded step).Begun :=
  h.next (fun _ => ⟨rfl, rfl⟩) (fun _ _ hk => hk) (fun _ _ hk => .inl hk) _ rfl (eachPast_snoc.2 ⟨h.steps, hstep⟩)

/-- a session changes, but for its id -/
theorem World.Begun.setSess {x : Session} (h : w.Begun) (hid : x.id = (w.sess s).id)
    (hinited : x.flags.inited = (w.sess s).flags.inited) : (w.setSess s x).Begun := by
  refine h.same (fun t => ?_) (fun _ _ hk => hk) (fun _ _ hk => hk) rfl
  by_cases hts : t = s
  · subst hts
    rw [World.setSess_sess]
    exact ⟨hid, hinited⟩
  · rw [World.setSess_sess_ne hts]
    exact ⟨rfl, rfl⟩

theorem Shut.begun (h : Shut S w w') (hw : w.Begun) : w'.Begun := by
  obtain ⟨new, hnew, hrec⟩ := h.recorded
  refine hw.next (fun t => ⟨(h.kept t).id, (h.kept t).inited⟩) h.older.actived (fun k t hk => ?_) _ hnew ?_
  · rcases h.older.cached k t hk with hk | ⟨-, -, -, j, hj⟩
    · exact .inl hk
    · exact .inr (hw.actived j t hj)
  · rw [hnew]
    refine hw.steps.append fun x hx pre => ?_
    obtain ⟨c, step⟩ := x
    cases step with
    | check | managerClose => trivial
    | _ => exact (hrec _ hx).1.elim

theorem World.Begun.noticed (h : w.Begun) (s : ℕ) (body : SsBody) (len : ℕ) (ret : ℤ) : (w.noticed s body len ret).Begun := by
  have hset : (w.modSess s fun x => x.setLimit (x.limit.addRecv len)).Begun := h.setSess rfl rfl
  exact ⟨hset.opened, hset.actived, hset.cached, hset.steps⟩

theorem World.Begun.enrolled (h : w.Begun) (hinited : (w.sess s).flags.inited = true) : (w.enrolled s).Begun where
  opened := h.opened
  actived k t hk := by
    rcases lookup_enrolled hk with ⟨-, rfl⟩ | ⟨-, hk⟩
    · exact hinited
    · exact h.actived k t hk
  cached := h.cached
  steps := h.steps

/-- `init_new_session` -/
theorem World.Begun.startNew (h : w.Begun) (router : UInt64) : (w.startNew e s router).Begun := by
  have hhistory : (w.startNew e s router).history = w.history ++ [(w.toCore, .initNewSession s)] := rfl
  have hother : ∀ {t}, t ≠ s → (w.startNew e s router).sess t = w.sess t := fun ht => World.startNew_sess_ne e ht router w
  have hinited : ∀ t, (w.sess t).flags.inited = true → ((w.startNew e s router).sess t).flags.inited = true := fun t ht => by
    by_cases hts : t = s
    · subst hts
      rw [World.startNew_sess]
      rfl
    · rwa [hother hts]
  refine ⟨fun t ht => ?_, fun k t hk => hinited t (h.actived k t hk), fun k t hk => hinited t (h.cached k t hk), ?_⟩
  · rw [hhistory]
    by_cases hts : t = s
    · subst hts
      rw [World.startNew_sess]
      exact ⟨e.allocate_ne _, _, List.mem_append_right _ (List.mem_singleton_self _), rfl⟩
    · rw [hother hts] at ht ⊢
      exact ⟨(h.opened t ht).1, (h.opened t ht).2.mono (List.subset_append_left _ _)⟩
  · rw [hhistory]
    exact eachPast_snoc.2 ⟨h.steps, trivial⟩

/-- the end of `reconnect` -/
theorem World.Begun.resumed {old : ℕ} {oldId : UInt64} (h : w.Begun) (hne : old ≠ s)
    (hlook : w.reconnectCache.lookup oldId = some old) : ((w.takenOver s old oldId).recorded (.reconnected s oldId)).Begun := by
  obtain ⟨u, hu⟩ : ∃ u, u = (w.takenOver s old oldId).recorded (.reconnected s oldId) := ⟨_, rfl⟩
  have hnew : (u.sess s).id = (w.sess old).id ∧ (u.sess s).flags.inited = true := by
    rw [hu, show ((w.takenOver s old oldId).recorded (.reconnected s oldId)).sess s = (w.takenOver s old oldId).sess s from rfl,
      World.takenOver_new hne]
    exact ⟨rfl, rfl⟩
  have hold : ∀ {t}, t ≠ s → (u.sess t).id = (w.sess t).id ∧ (u.sess t).flags.inited = (w.sess t).flags.inited := by
    intro t hts
    rw [hu, show ((w.takenOver s old oldId).recorded (.reconnected s oldId)).sess t = (w.takenOver s old oldId).sess t from rfl]
    by_cases hto : t = old
    · subst hto
      rw [World.takenOver_old hne]
      exact ⟨rfl, rfl⟩
    · rw [World.takenOver_other hts hto]
      exact ⟨rfl, rfl⟩
  have hhistory : u.history = w.history ++ [(w.toCore, .initReconnect s old)] ++
      [((w.takenOver s old oldId).toCore, .reconnected s oldId)] := hu ▸ rfl
  have hinited : ∀ t, (w.sess t).flags.inited = true → (u.sess t).flags.inited = true := fun t ht => by
    by_cases hts : t = s
    · exact hts ▸ hnew.2
    · exact (hold hts).2.trans ht
  rw [← hu]
  refine ⟨fun t ht => ?_, fun k t hk => ?_, fun k t hk => ?_, ?_⟩
  · rw [hhistory]
    by_cases hts : t = s
    · subst hts
      rw [hnew.1]
      exact ⟨(h.opened old (h.cached oldId old hlook)).1, _, List.mem_append_right _ (List.mem_singleton_self _), rfl⟩
    · rw [(hold hts).2] at ht
      rw [(hold hts).1, List.append_assoc]
      exact ⟨(h.opened t ht).1, (h.opened t ht).2.mono (List.subset_append_left _ _)⟩
  · rw [hu] at hk
    exact hinited t (h.actived k t hk)
  · rw [hu] at hk
    exact hinited t (h.cached k t (lookup_of_erase hk).2)
  · rw [hhistory]
    exact eachPast_snoc.2 ⟨eachPast_snoc.2 ⟨h.steps, trivial⟩, trivial⟩

/-! ## Moves -/

/-- where no frame skips the start, only a session that was started or resumed is activated -/
theorem World.Earned.inited (h : w.Earned e s) (hskip : ∀ x ∈ w.history, ∀ s, ¬ Skips e s x) : (w.sess s).flags.inited = true :=
  h.resolve_right fun ⟨x, hx, hs⟩ => hskip x hx s hs

theorem Path.begun (h : Path e w w') (hsound : w.Sound) (hskip : ∀ x ∈ w'.history, ∀ s, ¬ Skips e s x) (hw : w.Begun) : w'.Begun := by
  induction h with
  | refl w => exact hw
  | trans h h' ih ih' => exact ih' (h.sound hsound) hskip (ih hsound (fun x hx => hskip x (h'.later.history.subset hx)) hw)
  | shut h => exact h.begun hw
  | @record w step hallow =>
    have hskip' : ∀ x ∈ w.history, ∀ s, ¬ Skips e s x := fun x hx => hskip x (List.mem_append_left _ hx)
    refine hw.recorded ?_
    cases step with
    | handshakeDone s status => exact fun h0 => (hw.opened s ((hallow h0).inited hskip')).2
    | activeSession s =>
      have hinited : (w.sess s).flags.inited = true := World.Earned.inited hallow hskip'
      exact ⟨hinited, hw.opened s hinited⟩
    | _ => trivial
  | object | done => exact hw.setSess rfl rfl
  | current | post => exact hw.same (fun _ => ⟨rfl, rfl⟩) (fun _ _ hk => hk) (fun _ _ hk => hk) rfl
  | start router => exact hw.startNew router
  | @announce w w₁ s len hs _ _ _ h =>
    have hinited : (w.sess s).flags.inited = true := hs.earned.inited fun x hx => hskip x (h.shut.older.history.subset hx)
    have hset : (w₁.modSess s (Session.setRegistered true)).Begun := (h.shut.begun (hw.noticed s _ len 0)).setSess rfl rfl
    refine hset.enrolled ?_
    rw [World.modSess_sess]
    exact ((World.kept_modSess (Session.kept_noticed len) w s s).trans (h.shut.kept s)).inited.trans hinited
  | unheard _ _ h => exact h.begun (hw.noticed _ _ _ _)
  | enroll hs => exact hw.enrolled (hs.earned.inited hskip)
  | resume halive _ hlook =>
    have hlost := (hsound.cached _ _ hlook).2.2.2
    exact hw.resumed (fun hos => Bool.false_ne_true (hlost.symm.trans (hos ▸ halive.1))) hlook

theorem World.Begun.accepted (h : w.Begun) (seed : ℕ) (fd : Bool) (peer : Peer) (hsound : w.Sound) : (w.accepted e seed fd peer).Begun := by
  have hnew : (w.accepted e seed fd peer).sess w.count = Session.accepted e w.conf seed fd peer := World.joined_sess _
  have hsame : ∀ {t}, t ≠ w.count → (w.accepted e seed fd peer).sess t = w.sess t := fun ht => World.accepted_sess_ne ht seed fd peer
  refine ⟨fun t ht => ?_, fun k t hk => ?_, fun k t hk => ?_, h.steps⟩
  · have htc : t ≠ w.count := fun htc => by
      rw [htc, hnew] at ht
      exact absurd ht Bool.false_ne_true
    rw [hsame htc] at ht ⊢
    exact h.opened t ht
  · rw [hsame (hsound.actived k t hk).1.ne]
    exact h.actived k t hk
  · rw [hsame (hsound.cached k t hk).1.ne]
    exact h.cached k t hk

/-- **The invariant** holds along a walk on which no frame skips the start. -/
theorem Walk.begun (h : Walk e P w w') (hsound : w.Sound) (hskip : ∀ x ∈ w'.history, ∀ s, ¬ Skips e s x) (hw : w.Begun) : w'.Begun := by
  induction h with
  | refl w => exact hw
  | trans h h' ih ih' => exact ih' (h.sound hsound) hskip (ih hsound (fun x hx => hskip x (h'.history.subset hx)) hw)
  | path h => exact h.begun hsound hskip hw
  | accept => exact hw.accepted _ _ _ hsound
  | @listen w s due _ _ =>
    have hset : (w.modSess s (Session.setReading true)).Begun := hw.setSess rfl rfl
    exact ⟨hset.opened, hset.actived, hset.cached, hset.steps⟩
  | stream | router => exact hw.setSess rfl rfl
  | @giveUp w w₁ s _ _ h _ =>
    have hlose : ((w.recorded (.allocRead s)).modSess s Session.loseFd).Begun :=
      World.Begun.setSess (w := w.recorded (.allocRead s)) (hw.recorded trivial) rfl rfl
    exact (h.begun hlose).setSess rfl rfl
  | @expire w w₁ t _ _ _ h =>
    have hdrop : ((w.recorded (.expireReconnect t.2)).dropCached (w.sess t.2).id).Begun :=
      (show (w.recorded (.expireReconnect t.2)).Begun from hw.recorded trivial).same (fun _ => ⟨rfl, rfl⟩) (fun _ _ hk => hk)
        (fun _ _ hk => (lookup_of_erase hk).2) rfl
    have hexpired : (w.expired t.2).Begun := hdrop.setSess rfl rfl
    exact (h.begun hexpired).same (fun _ => ⟨rfl, rfl⟩) (fun _ _ hk => hk) (fun _ _ hk => hk) rfl
  | @tick w =>
    have hrec : (w.recorded .tick).Begun := hw.recorded trivial
    exact ⟨hrec.opened, hrec.actived, hrec.cached, hrec.steps⟩
  | reset => exact hw.recorded trivial
  | clearActived => exact hw.same (fun _ => ⟨rfl, rfl⟩) (fun _ _ hk => SessionMap.empty_elim hk) (fun _ _ hk => hk) rfl
  | @clearCache w =>
    exact (show (w.recorded .cleared).Begun from hw.recorded trivial).same (fun _ => ⟨rfl, rfl⟩) (fun _ _ hk => hk)
      (fun _ _ hk => SessionMap.empty_elim hk) rfl
  | _ => exact ⟨hw.opened, hw.actived, hw.cached, hw.steps⟩

theorem World.start_begun (conf : GwConf) (now : ℤ) (current : Option CryptGlobal) : (World.start conf now current).Begun :=
  ⟨fun _ h => absurd h Bool.false_ne_true, fun _ _ hk => SessionMap.empty_elim hk, fun _ _ hk => SessionMap.empty_elim hk, eachPast_nil⟩

/-! ## Runs -/

/-- **No active session without a session start**, in every run without a frame that skips it. -/
theorem run_started (e : GwEnv) (conf : GwConf) (now : ℤ) (current : Option CryptGlobal) (events : List GwEvent) {w : World}
    (hrun : exec (gwRun e events) (World.start conf now current) = (.ok (), w))
    (hskip : ∀ x ∈ w.history, ∀ s, ¬ Skips e s x) : EachPast Started w.history :=
  ((wp_ok (run_went e conf now current events) hrun).walk.begun (World.start_sound conf now current) hskip
    (World.start_begun conf now current)).steps

/-- clients whose only messages are requests to start skip nothing -/
theorem not_skips_of_start {msgs : List CsMsg} {len : ℕ}
    (hmsgs : ∀ m ∈ msgs, ∀ b, m.body = .handshake (some b) → b.step = .EN_HST_START_REQ) {x : Core × Step} :
    ¬ Skips (scriptEnv msgs len) s x := by
  obtain ⟨c, step⟩ := x
  cases step with
  | frame t buffer errcode =>
    rintro ⟨-, -, -, -, -, type, body, b, hverify, ⟨-, rfl, -⟩, hcomp⟩
    obtain ⟨n, -, hmsg⟩ := Option.bind_eq_some_iff.1 hverify
    rw [Completes, hmsgs _ (List.mem_of_getElem? hmsg) b rfl] at hcomp
    exact hcomp
  | _ => exact id

theorem run_started_startOne :
    EachPast Started (exec (gwRun (scriptEnv [plainStartReq] 2) startOne) (World.start openConf 1500000000 none)).2.history := by
  refine run_started (scriptEnv [plainStartReq] 2) openConf 1500000000 none startOne (exec_of_fst (by decide +kernel))
    fun x _ s => not_skips_of_start fun m hm b hb => ?_
  obtain rfl := List.mem_singleton.1 hm
  cases hb
  rfl

/-- the answer of a server that starts a session without encryption -/
def plainStartRsp : CsMsg := handshakeMsg .EN_MTT_HANDSHAKE
  { sessionId := 7, step := .EN_HST_START_RSP, switchType := .EN_SST_DIRECT, cryptType := none, cryptParam := none }

/-- a client that sends this answer to the gateway is active, and nothing was started -/
theorem run_started_startRsp : ¬ ∀ (e : GwEnv) (conf : GwConf) (now : ℤ) (current : Option CryptGlobal) (events : List GwEvent)
    (w : World), exec (gwRun e events) (World.start conf now current) = (.ok (), w) → EachPast Started w.history := by
  intro h
  have hstarted := h (scriptEnv [plainStartRsp] 2) openConf 1500000000 none startOne _ (exec_of_fst (by decide +kernel))
  obtain ⟨w, hw⟩ : ∃ w, w = (exec (gwRun (scriptEnv [plainStartRsp] 2) startOne) (World.start openConf 1500000000 none)).2 := ⟨_, rfl⟩
  rw [← hw] at hstarted
  have hsteps : w.history.map Prod.snd = [.allocRead 0, .frame 0 [0] 0, .handshakeDone 0 0, .activeSession 0, .check 0 .hour true false,
      .check 0 .minute true false, .check 0 .total true false] := by
    rw [hw]
    decide +kernel
  obtain ⟨pre, rest, hsplit, hpre, hrest⟩ := List.map_eq_append_iff.1
    (show w.history.map Prod.snd = [.allocRead 0, .frame 0 [0] 0] ++ [.handshakeDone 0 0, .activeSession 0, .check 0 .hour true false,
      .check 0 .minute true false, .check 0 .total true false] from hsteps)
  obtain ⟨⟨c, step⟩, post, rfl, hx, -⟩ := List.map_eq_cons_iff.1 hrest
  obtain rfl : step = .handshakeDone 0 0 := hx
  obtain ⟨x, hmem, hopens⟩ := hstarted pre _ post hsplit rfl
  have hstep : x.2 ∈ pre.map Prod.snd := List.mem_map_of_mem hmem
  rw [hpre] at hstep
  revert hopens
  generalize x.2 = step at hstep
  simp only [List.mem_cons, List.not_mem_nil, or_false] at hstep
  rcases hstep with rfl | rfl <;> exact id

end AtFrame.Gateway
