/-
Every message of a client leads along a `Path`.

The callbacks that messages reach besides closing are `on_handshake_done_fn` and `reconnect_fn`; `SessionOk` adds them to
`ReentryOk`. Between a reconnect and the end of its handshake the session is registered before its handshake is done
(`Resumed`); nothing closes a session in that time.

- `activeSession_path`, `reconnect_path`: the two ways into the maps;
- `sessionOk`: the re-entrant functions at every depth;
- `frame_path`: every frame.
-/
import AtFrame.Gateway.Events
import AtFrame.Gateway.Paths

namespace AtFrame.Gateway

open AtFrame.Lib

variable {e : GwEnv} {rec : Reentry} {w w' : World} {s : ℕ}

theorem World.Earned.later (h : w.Earned e s) (hl : w.Later w') : w'.Earned e s :=
  h.imp (hl.sess s).inited fun ⟨x, hx, hskip⟩ => ⟨x, hl.history.subset hx, hskip⟩

/-! ## Activation -/

theorem World.Ready.listed (h : w.Known) : w.Ready w.listed := ⟨fun _ _ _ hx => ⟨_, hx⟩, h⟩

/-- `active_session` behind the kickoff of another session with the same id -/
theorem enter_path (hok : ReentryOk rec) (hsound : w.Sound) (hknown : w.Known) (hs : Admitted e w s) (halive : (w.sess s).Alive) :
    wp (do
      let ret ← sendNewSession e rec s
      if ret < 0 then return ret
      else
        modify fun w => { w with actived := w.actived.insert (w.sess s).id s }
        return 0) (fun _ w' => Path e w w' ∧ w'.Known) Faulty w := by
  have hnew : (w.sess s).flags.reconnected = false :=
    Bool.eq_false_iff.2 fun hrec => Bool.false_ne_true (((hsound.sess s).gone hrec).symm.trans halive.1)
  unfold sendNewSession
  simp only [wp_bind, wp_getSess, wp_ite, wp_pure, wp_modify, wp_modifySess, Bool.not_eq_true]
  refine ⟨fun hreg => ⟨fun h => absurd h (by decide), fun _ => ⟨.enroll hs halive hreg hnew, hknown⟩⟩, fun hreg => ?_⟩
  refine wp_post (sendToServer_sent hok (Set.mem_univ s) (.univ hknown) hs.done _ _) fun ret w₁ h => ?_
  rcases h with ⟨hret, rfl⟩ | ⟨hret, len, h⟩
  · exact ⟨fun h0 => absurd h0 hret.ne, fun _ => ⟨fun _ => ⟨.refl _, hknown⟩, fun h => absurd hret h⟩⟩
  · have hnotice : (w.noticed s (.addSession (w.sess s).peer) len ret).Known :=
      hknown.kept (World.kept_modSess (Session.kept_noticed len) w s)
    have hknown₁ : w₁.Known := hnotice.kept h.shut.kept
    refine ⟨fun h0 => ⟨fun hneg => absurd h0 hneg.ne, fun _ => ?_⟩, fun hne => ⟨fun hneg => ?_, fun hpos => ?_⟩⟩
    · subst h0
      have hs₁ := hs.announced h.shut
      have hpath : Path e w ((w₁.modSess s (Session.setRegistered true)).enrolled s) := .announce hs halive hreg hnew h
      refine ⟨hpath, fun t ht => ?_⟩
      have ht' : ((w₁.modSess s (Session.setRegistered true)).sess t).flags.registered = true := ht
      show ((w₁.modSess s (Session.setRegistered true)).sess t).proto.flags.handshakeDone = true
      by_cases hts : t = s
      · subst hts
        exact hs₁.done
      · rw [World.modSess_sess_ne hts] at ht' ⊢
        exact hknown₁ t ht'
    · exact ⟨.unheard hs hneg h.shut, hknown₁⟩
    · exact absurd (le_antisymm hret (not_lt.1 hpos)) hne

/-- **`active_session`** for a session whose first handshake just ended. -/
theorem activeSession_path (hok : ReentryOk rec) (hsound : w.Sound) (hknown : w.Known) (hs : Entering w s)
    (halive : (w.sess s).Alive) (hearned : w.Earned e s) :
    wp (activeSession e rec s) (fun _ w' => Path e w w' ∧ w'.Known) Faulty w := by
  have hrecord : Path e w (w.recorded (.activeSession s)) := .record hearned
  have hready : (w.recorded (.activeSession s)).Ready w.listed := World.Ready.listed (w := w.recorded (.activeSession s)) hknown
  have hrest : ∀ w₁, Shut w.listed (w.recorded (.activeSession s)) w₁ → w₁.actived.lookup (w.sess s).id = none →
      (w₁.held < w.held ∨ w₁.held ≤ w.held ∧ w.actived.lookup (w.sess s).id = none) → wp (do
        let ret ← sendNewSession e rec s
        if ret < 0 then return ret
        else
          modify fun w => { w with actived := w.actived.insert (w.sess s).id s }
          return 0) (fun _ w' => Path e w w' ∧ w'.Known) Faulty w₁ := by
    intro w₁ h₁ hfree hroom
    -- the session itself is not touched by the kickoff of another one
    have hsame : w₁.sess s = w.sess s := h₁.outside hs.unlisted
    have hpath : Path e w w₁ := hrecord.trans (.shut (h₁.mono (Set.subset_univ _)))
    have hmem : (w.toCore, Step.activeSession s) ∈ w₁.history :=
      h₁.older.history.subset (List.mem_append_right _ (List.mem_singleton_self _))
    have hadmit : Admitted e w₁ s :=
      { hs.recorded.shut h₁ with
        earned := hearned.later hpath.later
        free := hsame.symm ▸ hfree
        room := ⟨_, hmem, hroom⟩ }
    refine wp_post (enter_path hok (hpath.sound hsound) (h₁.ready hready).known hadmit (hsame.symm ▸ halive)) fun _ w' h =>
      ⟨hpath.trans h.1, h.2⟩
  unfold activeSession
  rw [wp_bind, wp_record]
  simp only [wp_bind, wp_get, wp_ite, wp_pure, Bool.not_eq_true, Option.isSome_eq_false_iff, Option.isNone_iff_eq_none]
  simp only [wp_bind, wp_ite, wp_pure] at hrest
  refine ⟨fun hfound => ?_, fun hfree => hrest _ (.refl _) hfree (.inr ⟨le_rfl, hfree⟩)⟩
  refine wp_post (managerClose_shut hok hready _ (fun x hx => ⟨_, hx⟩) _ _) fun _ w₁ h₁ => hrest w₁ h₁.1 h₁.2.1 (.inl ?_)
  exact h₁.2.2 rfl fun hnone => Bool.false_ne_true ((congrArg Option.isSome hnone).symm.trans hfound)

theorem onHandshakeDone_path (hok : ReentryOk rec) (hsound : w.Sound) (hknown : w.Known) (hs : Entering w s) (status : ℤ)
    (hzero : status = 0 → (w.sess s).Alive ∧ w.Earned e s) :
    wp (onHandshakeDone e rec s status) (fun _ w' => Path e w w' ∧ w'.Known) Faulty w := by
  have hrecord : Path e w (w.recorded (.handshakeDone s status)) := .record fun h0 => (hzero h0).2
  unfold onHandshakeDone
  rw [wp_bind, wp_record]
  simp only [wp_bind, wp_ite, wp_pure]
  refine ⟨fun h0 => ?_, fun _ => ⟨hrecord, hknown⟩⟩
  refine wp_post (activeSession_path hok (hsound.recorded _) hknown hs.recorded (hzero h0).1
    ((hzero h0).2.later hrecord.later)) fun _ _ h => ⟨hrecord.trans h.1, h.2⟩

/-! ## Reconnecting -/

theorem checkOld_wp (e : GwEnv) (rec : Reentry) (w : World) (s old : ℕ) :
    wp (checkOld e rec s old) (fun ok w' => ∃ p, p.Steady (w.sess s).proto ∧
      w' = (w.setSess s { w.sess s with proto := p }).recorded (.checkReconnect s old ok)) Faulty w := by
  have hstill : (gwHost e rec s).Still
      (fun w' => ∃ p, p.Steady (w.sess s).proto ∧ w' = (gwHost e rec s).setProto p w) Faulty := by
    refine ⟨?_, fun f hf errcode errmsg w' h => ?_⟩
    · rintro _ q ⟨p, hp, rfl⟩ hq
      rw [Host.proto_setProto] at hq
      exact ⟨q, hq.trans hp, Host.setProto_setProto ..⟩
    · cases hf
      exact h
  unfold checkOld
  simp only [wp_bind, wp_getSess]
  refine wp_post (hstill.checkReconnect (w.sess old).proto w ⟨_, Host.steady_refl _, (w.setSess_self s).symm⟩) fun ok w' h => ?_
  obtain ⟨p, hp, rfl⟩ := h
  exact ⟨p, hp, rfl⟩

/-- the session went on elsewhere: only the flag is set -/
theorem sessionClose_reconnected {old : ℕ} (hrec : (w.sess old).flags.reconnected = true)
    (hlost : (w.sess old).flags.hasFd = false) (reason : ℤ) :
    wp (sessionClose e rec old reason) (fun _ w' => w' = w.modSess old Session.markClosing) Faulty w := by
  unfold sessionClose closeWithManager closeFd
  simp only [wp_bind, wp_getSess, wp_modifySess, wp_ite, wp_pure, World.setSess_sess]
  refine ⟨fun h => absurd hrec h.2.1, fun _ => ⟨fun hclosing => ?_, fun _ => ⟨fun _ => rfl, fun _ => ⟨fun hfd => ?_, fun _ => rfl⟩⟩⟩⟩
  · have hmark : (w.sess old).markClosing = w.sess old := by
      rw [Session.markClosing, ← hclosing]
      rfl
    rw [World.modSess, hmark, World.setSess_self]
  · exact absurd (hlost.symm.trans hfd) Bool.false_ne_true

/-- `init_reconnect`, the close of the old session and its erasure, all in one -/
theorem takeOver_wp {old : ℕ} {oldId : UInt64} (halive : (w.sess s).Alive) (howner : (w.sess s).owner = true)
    (hlost : (w.sess old).flags.hasFd = false) (hlook : w.reconnectCache.lookup oldId = some old) :
    wp (do
      initReconnect s old
      let _ ← sessionClose e rec old EN_CRT_LOGOUT
      eraseCache oldId old
      record (.reconnected s oldId)
      return (0 : ℤ)) (fun r w' => r = 0 ∧ w' = (w.takenOver s old oldId).recorded (.reconnected s oldId)) Faulty w := by
  have hne : old ≠ s := fun hos => Bool.false_ne_true (hlost.symm.trans (hos ▸ halive.1))
  have hdrop : ∀ w₁ : World, w₁.reconnectCache = w.reconnectCache → w₁.dropCached oldId = w.takenOver s old oldId →
      wp (eraseCache oldId old >>= fun _ => record (.reconnected s oldId) >>= fun _ => pure (0 : ℤ)) (fun r w' => r = 0 ∧
        w' = (w.takenOver s old oldId).recorded (.reconnected s oldId)) Faulty w₁ := by
    intro w₁ hcache hdrop
    unfold eraseCache
    simp only [wp_bind, wp_get, wp_ite, wp_modify, wp_throw, wp_record, wp_pure]
    exact ⟨fun _ => ⟨trivial, congrArg (World.recorded (.reconnected s oldId)) hdrop⟩, fun hmiss => absurd (hcache ▸ hlook) hmiss⟩
  unfold initReconnect
  rw [wp_bind, wp_bind, wp_record]
  simp only [wp_bind, wp_pure] at hdrop
  simp only [wp_bind, wp_get, wp_getSess, wp_modifySess, wp_ite, wp_throw, wp_pure, World.setSess_sess, World.setSess_setSess,
    World.setSess_sess_ne hne]
  refine ⟨fun _ => ?_, fun hno => absurd howner hno⟩
  refine wp_post (sessionClose_reconnected ?_ ?_ _) fun _ w₁ h₁ => hdrop w₁ (h₁ ▸ rfl) ?_
  · rw [World.setSess_sess]
    rfl
  · rw [World.setSess_sess]
    exact hlost
  · subst h₁
    simp only [World.takenOver, World.modSess, World.setSess_sess, World.setSess_setSess, World.setSess_sess_ne hne]
    rfl

/-- sessions that closings of another session than `s` stay in, for an `s` that was neither started nor resumed -/
theorem exists_scope (hsound : w.Sound) (halive : (w.sess s).Alive) (hinited : (w.sess s).flags.inited = false) {id : UInt64}
    (hfree : w.reconnectCache.lookup id = none) (hother : w.actived.lookup id ≠ some s) :
    ∃ S : Set ℕ, w.Scope S ∧ (∀ x, (w.actived.lookup id = some x ∨ w.reconnectCache.lookup id = some x) → x ∈ S) ∧ s ∉ S := by
  by_cases hlisted : s ∈ w.listed
  · -- it is active under the id 0
    have hactived : ∀ k, w.actived.lookup k = some s → k = 0 := fun k hk =>
      not_not.1 fun hk0 => Bool.false_ne_true (hinited.symm.trans ((hsound.actived k s hk).2.2 hk0).1)
    have hzero : w.actived.lookup 0 = some s := by
      obtain ⟨k, hk | hk⟩ := hlisted
      · exact hactived k hk ▸ hk
      · exact absurd ((hsound.cached k s hk).2.2.2.symm.trans halive.1) Bool.false_ne_true
    have hid : id ≠ 0 := fun h0 => hother (h0 ▸ hzero)
    refine ⟨{ t | (w.sess t).id ≠ 0 }, fun y hy x hx => ?_, fun x hx => ?_, ?_⟩
    · rcases hx with hx | hx
      · exact ((hsound.actived _ x hx).2.2 hy).2
      · exact fun h0 => hy ((hsound.cached _ x hx).2.2.1.symm.trans h0)
    · rcases hx with hx | hx
      · exact ((hsound.actived _ x hx).2.2 hid).2
      · exact absurd (hfree.symm.trans hx) (by simp)
    · exact fun hid => Bool.false_ne_true (hinited.symm.trans ((hsound.sess s).named hid))
  · exact ⟨w.listed, fun _ _ _ hx => ⟨_, hx⟩, fun x hx => ⟨_, hx⟩, hlisted⟩

/-- in `reconnect` until the old session is taken over; the new one may have closed itself -/
structure Rejoining (e : GwEnv) (w₀ : World) (s : ℕ) (oldId : UInt64) (w : World) : Prop where
  path : Path e w₀ w
  known : w.Known
  inited : (w.sess s).flags.inited = false
  alive : (w.sess s).Alive ∨ (w.sess s).owner = false ∧
    ((∃ x ∈ w.history, Orphans x) ∨ w.reconnectCache.lookup oldId = none)
  since : ∃ mid, w.history = w₀.history ++ (w₀.toCore, .reconnect s oldId) :: mid ∧ ∀ x ∈ mid, ¬ x.2.IsReconnect

/-- from the callback of a reconnect to the end of its handshake: the session may be registered before its handshake is done -/
structure Resumed (e : GwEnv) (w₀ : World) (s : ℕ) (w : World) : Prop where
  path : Path e w₀ w
  alive : (w.sess s).Alive
  inited : (w.sess s).flags.inited = true
  known : ∀ t, t ≠ s → (w.sess t).flags.registered = true → (w.sess t).proto.flags.handshakeDone = true

variable {w₀ : World} {oldId : UInt64}

theorem Records.not_reconnect {x : Core × Step} (h : Records x) : ¬ x.2.IsReconnect := by
  obtain ⟨c, step⟩ := x
  cases step <;> exact fun hr => (nomatch h, hr)

theorem Rejoining.checked (h : Rejoining e w₀ s oldId w) {c : Core} {old old' : ℕ}
    (hmem : ∀ mid, w.history = w₀.history ++ (w₀.toCore, .reconnect s oldId) :: mid → (c, .checkReconnect s old' true) ∈ mid)
    (hold : old' = old ∨ c.actived.lookup oldId = some old' ∧ c.reconnectCache.lookup oldId = none ∧
      ∀ S : Set ℕ, c.Scope S → old' ∈ S → old ∈ S) : w.Checked s old oldId := by
  obtain ⟨mid, hmid, hno⟩ := h.since
  exact ⟨_, _, mid, hmid, hno, c, old', hmem mid hmid, hold⟩

theorem Rejoining.shut (h : Rejoining e w₀ s oldId w) {S : Set ℕ} (hs : Shut S w w')
    (halive : (w'.sess s).Alive ∨ (w'.sess s).owner = false ∧
      ((∃ x ∈ w'.history, Orphans x) ∨ w'.reconnectCache.lookup oldId = none)) : Rejoining e w₀ s oldId w' where
  path := h.path.trans (.shut (hs.mono (Set.subset_univ S)))
  known := h.known.kept hs.kept
  inited := (hs.kept s).inited.trans h.inited
  alive := halive
  since := by
    obtain ⟨mid, hmid, hno⟩ := h.since
    obtain ⟨new, hnew, hrec⟩ := hs.recorded
    refine ⟨mid ++ new, by rw [hnew, hmid, List.append_assoc, List.cons_append], fun x hx => ?_⟩
    exact (List.mem_append.1 hx).elim (hno x) fun hx => (hrec x hx).1.not_reconnect

/-- what `check_reconnect` leaves alone, and the record of its success -/
structure Tried (s old : ℕ) (oldId : UInt64) (w₀ w : World) (ok : Bool) (w' : World) : Prop where
  flags : ∀ t, (w'.sess t).flags = (w.sess t).flags
  alive : (w.sess s).Alive → (w'.sess s).Alive
  actived : w'.actived = w.actived
  cached : w'.reconnectCache = w.reconnectCache
  history : w.history ⊆ w'.history
  success : ok = true → ∀ mid, w'.history = w₀.history ++ (w₀.toCore, .reconnect s oldId) :: mid →
    (w'.toCore, .checkReconnect s old true) ∈ mid

theorem Rejoining.checkOld (h : Rejoining e w₀ s oldId w) (old : ℕ) :
    wp (checkOld e rec s old) (fun ok w' => Rejoining e w₀ s oldId w' ∧ Tried s old oldId w₀ w ok w') Faulty w := by
  refine wp_post (checkOld_wp e rec w s old) fun ok w' ⟨p, hp, hw'⟩ => ?_
  have hlight : (w.sess s).Light { w.sess s with proto := p } := Session.light_proto hp.closing hp.handshakeDone
  obtain ⟨u, hu⟩ : ∃ u, u = w.setSess s { w.sess s with proto := p } := ⟨_, rfl⟩
  have hsess : u.sess s = { w.sess s with proto := p } := hu ▸ World.setSess_sess ..
  have hshut : Shut Set.univ w u := hu ▸ .light (Set.mem_univ s) hlight
  rw [← hu] at hw'
  subst hw'
  obtain ⟨mid, hmid, hno⟩ := h.since
  have hhistory : (u.recorded (.checkReconnect s old ok)).history =
      w₀.history ++ (w₀.toCore, .reconnect s oldId) :: (mid ++ [(u.toCore, .checkReconnect s old ok)]) := by
    rw [← List.cons_append, ← List.append_assoc, ← hmid, hu]
    rfl
  have halive : (w.sess s).Alive → (u.sess s).Alive := fun halive =>
    ⟨(congrArg (fun x => x.flags.hasFd) hsess).trans halive.1,
      (congrArg (fun x => x.proto.flags.closing) hsess).trans (hp.closing.trans halive.2)⟩
  refine ⟨⟨(h.path.trans (.shut hshut)).trans (.record trivial), h.known.kept hshut.kept, ?_, ?_, _, hhistory, fun x hx => ?_⟩,
    fun t => ?_, halive, hu ▸ rfl, hu ▸ rfl, ?_, ?_⟩
  · exact (congrArg (fun x => x.flags.inited) hsess).trans h.inited
  · refine h.alive.imp halive fun ⟨howner, hwhy⟩ => ⟨(congrArg (fun x => x.owner) hsess).trans howner, ?_⟩
    refine hwhy.imp (fun ⟨x, hx, horphan⟩ => ⟨x, ?_, horphan⟩) fun hmiss => hu ▸ hmiss
    exact List.mem_append_left _ (hshut.older.history.subset hx)
  · rcases List.mem_append.1 hx with hx | hx
    · exact hno x hx
    · exact List.mem_singleton.1 hx ▸ fun hr => nomatch hr
  · show (u.sess t).flags = _
    by_cases hts : t = s
    · subst hts
      rw [hsess]
    · rw [hu, World.setSess_sess_ne hts]
  · exact fun x hx => List.mem_append_left _ (hshut.older.history.subset hx)
  · rintro rfl mid' hmid'
    rw [hhistory] at hmid'
    rw [← (List.cons.inj (List.append_cancel_left hmid')).2]
    exact List.mem_append_right _ (List.mem_singleton_self _)

/-- the first part of `reconnect`: what it finds in the cache behind a close is checked -/
theorem closeOldConnection_rejoining (hok : ReentryOk rec) (hsound : w₀.Sound) (h : Rejoining e w₀ s oldId w)
    (halive : (w.sess s).Alive) :
    wp (closeOldConnection e rec s oldId) (fun checked w' => Rejoining e w₀ s oldId w' ∧
      (checked = true → ∀ old, w'.reconnectCache.lookup oldId = some old → w'.Checked s old oldId)) Faulty w := by
  unfold closeOldConnection
  rw [wp_bind, wp_get]
  split
  · rename_i old hcache hactived
    simp only [wp_bind, wp_ite, wp_pure]
    refine wp_post (h.checkOld old) fun ok w₁ ⟨h₁, htry⟩ => ⟨fun hok' => ?_, fun _ => ⟨h₁, fun _ old' hold' => ?_⟩⟩
    · have hcache₁ : w₁.reconnectCache.lookup oldId = none := htry.cached ▸ hcache
      have hactived₁ : w₁.actived.lookup oldId = some old := htry.actived ▸ hactived
      refine wp_post (managerClose_all hok h₁.known oldId _ _) fun _ w₂ hall => ?_
      have huniv : Shut Set.univ w₁ w₂ := hall _ (.univ _) fun _ _ => trivial
      have hrejoin : Rejoining e w₀ s oldId w₂ := by
        refine h₁.shut huniv ?_
        have halive₁ := htry.alive halive
        by_cases hself : old = s
        · -- it closes itself
          rcases huniv.socket s with ⟨-, hfd, -, hproto, -⟩ | ⟨-, -, howner, -⟩
          · exact .inl ⟨hfd.trans halive₁.1, (hproto halive₁.1).trans halive₁.2⟩
          · refine .inr ⟨howner, ?_⟩
            by_cases htimeout : 0 < w₁.conf.reconnectTimeout
            · obtain ⟨mid₁, hmid₁, -⟩ := h₁.since
              refine .inl ⟨(w₁.toCore, .checkReconnect s old true), huniv.older.history.subset ?_, rfl, hself, htimeout⟩
              rw [hmid₁]
              exact List.mem_append_right _ (List.mem_cons_of_mem _ (htry.success hok' mid₁ hmid₁))
            · right
              by_contra hhit
              obtain ⟨x, hx⟩ := Option.ne_none_iff_exists'.1 hhit
              rcases huniv.older.cached oldId x hx with hx | ⟨-, -, h, -⟩
              · exact absurd (hcache₁.symm.trans hx) (by simp)
              · exact htimeout h
        · have hother : w₁.actived.lookup oldId ≠ some s := fun h => hself (Option.some.inj (hactived₁.symm.trans h))
          obtain ⟨S, hscope, hid, hs⟩ := exists_scope (h₁.path.sound hsound) halive₁ h₁.inited hcache₁ hother
          exact .inl ((hall S hscope hid).outside hs ▸ halive₁)
      refine ⟨hrejoin, fun _ old' hold' => hrejoin.checked (c := w₁.toCore) (fun mid hmid => ?_)
        (.inr ⟨hactived₁, hcache₁, fun S hscope hold => ?_⟩)⟩
      · obtain ⟨mid₁, hmid₁, -⟩ := h₁.since
        obtain ⟨new, hnew, -⟩ := huniv.recorded
        rw [hnew, hmid₁, List.append_assoc, List.cons_append] at hmid
        rw [← (List.cons.inj (List.append_cancel_left hmid)).2]
        exact List.mem_append_left _ (htry.success hok' mid₁ hmid₁)
      · have hshut := hall S hscope fun x hx => by
          rcases hx with hx | hx
          · exact Option.some.inj (hactived₁.symm.trans hx) ▸ hold
          · exact absurd (hcache₁.symm.trans hx) (by simp)
        rcases hshut.older.cached oldId old' hold' with hx | ⟨hx, -⟩
        · exact absurd (hcache₁.symm.trans hx) (by simp)
        · exact hx
    · -- the check fails: nothing was put in the cache
      rw [htry.cached, hcache] at hold'
      exact nomatch hold'
  · exact ⟨h, fun hf => absurd hf Bool.false_ne_true⟩

section takenOver

variable {old : ℕ}

theorem World.takenOver_new (h : old ≠ s) : (w.takenOver s old oldId).sess s =
    (((w.sess s).takeOver (w.sess old)).initDone w).setRegistered (w.sess old).flags.registered :=
  (World.modSess_sess_ne h.symm).trans World.modSess_sess

theorem World.takenOver_old (h : old ≠ s) : (w.takenOver s old oldId).sess old = (w.sess old).setReconnected :=
  World.modSess_sess.trans (congrArg Session.setReconnected (World.modSess_sess_ne h))

theorem World.takenOver_other {t : ℕ} (ht : t ≠ s) (ht' : t ≠ old) : (w.takenOver s old oldId).sess t = w.sess t :=
  (World.modSess_sess_ne ht').trans (World.modSess_sess_ne ht)

end takenOver

theorem Rejoining.resume {old : ℕ} (h : Rejoining e w₀ s oldId w) (halive : (w.sess s).Alive)
    (hlost : (w.sess old).flags.hasFd = false) (hrec : (w.sess old).flags.reconnected = false)
    (hlook : w.reconnectCache.lookup oldId = some old) (hchecked : w.Checked s old oldId) :
    Resumed e w₀ s ((w.takenOver s old oldId).recorded (.reconnected s oldId)) := by
  have hne : old ≠ s := fun hos => Bool.false_ne_true (hlost.symm.trans (hos ▸ halive.1))
  have hnew : (w.takenOver s old oldId).sess s = _ := World.takenOver_new hne
  refine ⟨h.path.trans (.resume halive h.inited hlook hrec hchecked), ?_, congrArg (fun x => x.flags.inited) hnew, fun t ht hreg => ?_⟩
  · exact ⟨(congrArg (fun x => x.flags.hasFd) hnew).trans halive.1, (congrArg (fun x => x.proto.flags.closing) hnew).trans halive.2⟩
  · show ((w.takenOver s old oldId).sess t).proto.flags.handshakeDone = true
    have hreg' : ((w.takenOver s old oldId).sess t).flags.registered = true := hreg
    by_cases hold : t = old
    · subst hold
      rw [World.takenOver_old hne] at hreg' ⊢
      exact h.known t hreg'
    · rw [World.takenOver_other ht hold] at hreg' ⊢
      exact h.known t hreg'

/-- **`reconnect`** of a session that was neither started nor resumed. -/
theorem reconnect_path (hok : ReentryOk rec) (hsound : w.Sound) (hknown : w.Known) (halive : (w.sess s).Alive)
    (hinited : (w.sess s).flags.inited = false) (oldId : UInt64) : wp (reconnect e rec s oldId)
      (fun r w' => (r = 0 → Resumed e w s w') ∧ (r ≠ 0 → Path e w w' ∧ w'.Known)) Faulty w := by
  have hstart : Rejoining e w s oldId (w.recorded (.reconnect s oldId)) :=
    ⟨.record trivial, hknown, hinited, .inl halive, [], rfl, fun _ hx => absurd hx List.not_mem_nil⟩
  have htake : ∀ w₂ old, Rejoining e w s oldId w₂ → (w₂.sess old).flags.hasFd = false → (w₂.sess old).flags.reconnected = false →
      w₂.reconnectCache.lookup oldId = some old → w₂.Checked s old oldId → wp (do
        initReconnect s old
        let _ ← sessionClose e rec old EN_CRT_LOGOUT
        eraseCache oldId old
        record (.reconnected s oldId)
        return (0 : ℤ)) (fun r w' => (r = 0 → Resumed e w s w') ∧ (r ≠ 0 → Path e w w' ∧ w'.Known)) Faulty w₂ := by
    intro w₂ old h₂ hlost hrec hlook hchecked
    rcases h₂.alive with halive₂ | ⟨howner, ⟨x, hx, horphan⟩ | hmiss⟩
    · have howner := (((h₂.path.sound hsound).sess s).socket halive₂.1).1
      refine wp_post (takeOver_wp halive₂ howner hlost hlook) fun r w' ⟨hr, hw'⟩ => ⟨fun _ => ?_, fun hne => absurd hr hne⟩
      exact hw' ▸ h₂.resume halive₂ hlost hrec hlook hchecked
    · -- it closed itself before: its owner is gone
      unfold initReconnect
      rw [wp_bind, wp_bind, wp_record]
      simp only [wp_bind, wp_get, wp_getSess, wp_modifySess, wp_ite, wp_throw, World.setSess_sess]
      refine ⟨fun hthere => absurd (howner.symm.trans hthere) Bool.false_ne_true, fun _ _ => ⟨x, ?_, horphan⟩⟩
      exact List.mem_append_left _ hx
    · exact absurd (hmiss.symm.trans hlook) (by simp)
  have hend : ∀ ret : ℤ, ret ≠ 0 → ∀ w', Rejoining e w s oldId w' →
      (ret = 0 → Resumed e w s w') ∧ (ret ≠ 0 → Path e w w' ∧ w'.Known) :=
    fun ret hret w' h => ⟨fun h0 => absurd h0 hret, fun _ => ⟨h.path, h.known⟩⟩
  unfold reconnect
  rw [wp_bind, wp_record, wp_bind]
  refine wp_post (closeOldConnection_rejoining hok hsound hstart halive) fun checked w₁ ⟨h₁, hchecked⟩ => ?_
  rw [wp_bind, wp_get]
  cases hlook : w₁.reconnectCache.lookup oldId with
  | none => exact hend _ (by decide) w₁ h₁
  | some old =>
    simp only [wp_bind, wp_getSess, wp_ite, wp_pure, Bool.not_eq_true]
    simp only [wp_bind, wp_pure] at htake
    refine ⟨fun _ => hend _ (by decide) w₁ h₁, fun hlost => ⟨fun _ => hend _ (by decide) w₁ h₁, fun hrec =>
      ⟨fun hyes => ⟨fun h => absurd h (by decide), fun _ => htake w₁ old h₁ hlost hrec hlook (hchecked hyes old hlook)⟩, fun _ => ?_⟩⟩⟩
    refine wp_post (h₁.checkOld old) fun ok w₂ ⟨h₂, htry⟩ => ⟨fun _ => hend _ (by decide) w₂ h₂, fun hyes => ?_⟩
    refine htake w₂ old h₂ (htry.flags old ▸ hlost) (htry.flags old ▸ hrec) (htry.cached ▸ hlook) ?_
    exact h₂.checked (htry.success (Bool.not_eq_false _ ▸ hyes)) (.inl rfl)

theorem onReconnect_path (hok : ReentryOk rec) (hsound : w.Sound) (hknown : w.Known) (halive : (w.sess s).Alive)
    (oldId : UInt64) : wp (onReconnect e rec s oldId)
      (fun r w' => (r = 0 → Resumed e w s w') ∧ (r ≠ 0 → Path e w w' ∧ w'.Known)) Faulty w := by
  unfold onReconnect
  simp only [wp_bind, wp_getSess, wp_ite, wp_pure, Bool.not_eq_true]
  exact ⟨fun _ => ⟨fun h0 => absurd h0 (by decide), fun _ => ⟨.refl w, hknown⟩⟩, fun hinited =>
    reconnect_path hok hsound hknown halive hinited oldId⟩

/-! ## The protocol object of a session -/

/-- what the functions that messages lead back to do -/
structure SessionOk (e : GwEnv) (rec : Reentry) : Prop extends ReentryOk rec where
  onHandshakeDone : ∀ {w : World} {s : ℕ} (status : ℤ), w.Sound → w.Known → Entering w s →
    (status = 0 → (w.sess s).Alive ∧ w.Earned e s) →
      wp (rec.onHandshakeDone s status) (fun _ w' => Path e w w' ∧ w'.Known) Faulty w
  onReconnect : ∀ {w : World} {s : ℕ} (oldId : UInt64), w.Sound → w.Known → (w.sess s).Alive →
    wp (rec.onReconnect s oldId) (fun r w' => (r = 0 → Resumed e w s w') ∧ (r ≠ 0 → Path e w w' ∧ w'.Known)) Faulty w

/-- **The re-entrant functions**, at every depth. -/
theorem sessionOk (e : GwEnv) (n : ℕ) : SessionOk e (reentry e n) := by
  induction n with
  | zero => exact { reentry_ok e 0 with
      onHandshakeDone := fun _ _ _ _ _ => faulty_of_ne (by decide)
      onReconnect := fun _ _ _ _ => faulty_of_ne (by decide) }
  | succ n ih => exact { reentry_ok e (n + 1) with
      onHandshakeDone := fun status hsound hknown hs hzero => onHandshakeDone_path ih.toReentryOk hsound hknown hs status hzero
      onReconnect := fun oldId hsound hknown halive => onReconnect_path ih.toReentryOk hsound hknown halive oldId }

theorem onWrite_light (buf : Bytes) : wp (onWrite e s buf)
    (fun _ w' => Shut Set.univ w w' ∧ (w.sess s).Light (w'.sess s)) Faulty w := by
  have hlight : wp (onWrite e s buf) (fun _ w' => (w.sess s).Light (w'.sess s)) Faulty w := by
    unfold onWrite
    simp only [wp_ite, wp_throw, wp_bind, wp_get, wp_modify, wp_modifySess, wp_getSess, wp_pure, World.setSess_sess]
    exact ⟨fun _ => faulty_of_ne (by decide), fun _ => Session.light_writingFd _ _⟩
  exact wp_mono (wp_and (onWrite_shut (Set.mem_univ s) (.refl w) buf) hlight) (fun _ _ h => h) fun _ _ h => h.1

section queue

variable {I : World → Prop} (hlight : ∀ {w w' : World}, I w → Shut Set.univ w w' → (w.sess s).Light (w'.sess s) → I w')

include hlight

/-- an invariant that only looks at the session from outside is kept by its write queue -/
theorem gwHost_queue : (gwHost e rec s).Queue I I Faulty := by
  have hset : ∀ {w : World} {p : Proto}, I w → p.flags.closing = (w.sess s).proto.flags.closing →
      p.flags.handshakeDone = (w.sess s).proto.flags.handshakeDone → I (w.setSess s { w.sess s with proto := p }) := by
    intro w p h hclosing hdone
    have hproto := Session.light_proto (x := w.sess s) hclosing hdone
    refine hlight h (.light (Set.mem_univ s) hproto) ?_
    rw [World.setSess_sess]
    exact hproto
  refine ⟨fun h hp => hset h hp.closing hp.handshakeDone, fun _ _ => faulty_of_ne (by decide), fun _ => faulty_of_ne (by decide),
    fun f hf errcode errmsg w h => ?_, fun f hf w p buf h hopen hwriting hp => ?_, fun h _ => h, fun h _ _ hp => ?_⟩
  · cases hf
    exact h
  · cases hf
    have hset' : I (w.setSess s { w.sess s with proto := p }) := by
      refine hset h ?_ ?_ <;> rw [hp]
    exact wp_post (onWrite_light buf) fun _ _ ⟨h₁, h₂⟩ => ⟨fun _ => hlight hset' h₁ h₂, fun _ => hlight hset' h₁ h₂⟩
  · refine hset h ?_ ?_ <;> rw [hp]

/-- closings of an object that is open are not asked about -/
theorem gwHost_calm_open (hopen : ∀ {w}, I w → (w.sess s).proto.flags.closing = false) : (gwHost e rec s).Calm I Faulty := by
  have hwrites : (gwHost e rec s).Writes I I Faulty :=
    { gwHost_queue hlight with
      written := fun _ hclosing h => absurd ((hopen (h.elim And.left And.left)).symm.trans hclosing) Bool.false_ne_true }
  exact hwrites.calm

end queue

/-- what a message leads to -/
structure Serving (e : GwEnv) (w₀ w : World) : Prop where
  path : Path e w₀ w
  known : w.Known

theorem Serving.shut (h : Serving e w₀ w) (hs : Shut Set.univ w w') : Serving e w₀ w' := ⟨h.path.trans (.shut hs), h.known.kept hs.kept⟩

theorem Serving.object (h : Serving e w₀ w) {p : Proto} (hclosing : p.flags.closing = true)
    (hdone : p.flags.handshakeDone = (w.sess s).proto.flags.handshakeDone) :
    Serving e w₀ (w.setSess s { w.sess s with proto := p }) := by
  refine ⟨h.path.trans (.object hclosing hdone), h.known.kept (World.kept_setSess ?_)⟩
  exact ⟨rfl, rfl, rfl, rfl, rfl, rfl, rfl, hdone, fun h => h, fun h => h, fun _ => hclosing⟩

/-- the object becomes closed -/
theorem Serving.closed (hok : ReentryOk rec) (h : Serving e w₀ w) {p : Proto}
    (hp : p.flags = { (w.sess s).proto.flags with writing := false, closing := true, closed := true }) (reason : ℤ) :
    wp (rec.onClose s reason) (fun _ w' => Serving e w₀ w' ∧
      (w'.sess s).proto.flags.handshakeDone = (w.sess s).proto.flags.handshakeDone) Faulty
        (w.setSess s { w.sess s with proto := p }) := by
  have hset : Serving e w₀ (w.setSess s { w.sess s with proto := p }) := h.object (by rw [hp]) (by rw [hp])
  have hsess : (w.setSess s { w.sess s with proto := p }).sess s = { w.sess s with proto := p } := World.setSess_sess ..
  refine wp_post (hok.onClose reason (Set.mem_univ s) (.univ hset.known) ?_) fun _ w' h' => ⟨hset.shut h', ?_⟩
  · rw [hsess, hp]
  · rw [(h'.kept s).done, hsess, hp]

theorem gwHost_owned (hok : ReentryOk rec) : (gwHost e rec s).Owned (Serving e w₀) (Serving e w₀) Faulty :=
  { gwHost_queue fun h hs _ => h.shut hs with
    closes := fun h _ hp => h.object (by rw [hp]) (by rw [hp])
    closed := by
      refine fun _ h p hp => ⟨fun h => (nomatch h), fun f hf reason => ?_⟩
      cases hf
      exact wp_post ((h.elim And.left And.left).closed hok hp reason) fun _ _ h' => h'.1 }

/-- a handshake may end with success once the session was started or resumed -/
def gwGuard (e : GwEnv) (s : ℕ) : Host.Guard World where
  finish w := (w.sess s).proto.flags.handshakeDone = true ∨ (w.sess s).proto.flags.closing = false ∧ w.Earned e s
  start _ := True
  resume _ := True

theorem gwHost_finishCalm (hok : ReentryOk rec) :
    (gwHost e rec s).Calm (fun w => Serving e w₀ w ∧ (gwGuard e s).finish w) Faulty := by
  have hqueue : (gwHost e rec s).Queue (fun w => Serving e w₀ w ∧ (gwGuard e s).finish w)
      (fun w => Serving e w₀ w ∧ (gwGuard e s).finish w) Faulty := by
    refine gwHost_queue fun ⟨h, hfin⟩ hs hlight => ⟨h.shut hs, hfin.imp hlight.done.trans ?_⟩
    exact fun ⟨hopen, hearned⟩ => ⟨hlight.closing.trans hopen, hearned.later hs.later⟩
  have hwrites : (gwHost e rec s).Writes (fun w => Serving e w₀ w ∧ (gwGuard e s).finish w)
      (fun w => Serving e w₀ w ∧ (gwGuard e s).finish w) Faulty :=
    { hqueue with
      written := by
        refine fun {w} hopen hclosing h p hp => ⟨fun h => (nomatch h), fun f hf reason => ?_⟩
        obtain ⟨h, hfin⟩ := h.elim And.left And.left
        have hdone : (w.sess s).proto.flags.handshakeDone = true :=
          hfin.elim (fun h => h) fun hopen' => absurd (hopen'.1.symm.trans hclosing) Bool.false_ne_true
        cases hf
        exact wp_post (h.closed hok hp reason) fun _ _ h' => ⟨h'.1, .inl (h'.2.trans hdone)⟩ }
  exact hwrites.calm

theorem gwHost_calm_resumed (rec : Reentry) : (gwHost e rec s).Calm (Resumed e w₀ s) Faulty := by
  refine gwHost_calm_open (fun {w w'} h hs hlight => ?_) fun h => h.alive.2
  refine ⟨h.path.trans (.shut hs), ⟨?_, hlight.closing.trans h.alive.2⟩, hlight.kept.inited.trans h.inited, fun t ht hreg => ?_⟩
  · rw [hlight.flags]
    exact h.alive.1
  · exact (hs.kept t).done.trans (h.known t ht ((hs.kept t).registered hreg))

theorem Resumed.serving (h : Resumed e w₀ s w) (hdone : (w.sess s).proto.flags.handshakeDone = true) : Serving e w₀ w := by
  refine ⟨h.path, fun t ht => ?_⟩
  by_cases hts : t = s
  · subst hts
    exact hdone
  · exact h.known t hts ht

section serving

variable (hok : SessionOk e rec) (hsound : w₀.Sound) (hread : (w₀.sess s).stream.reading = true)

include hsound hread

theorem Serving.alive (h : Serving e w₀ w) (hopen : (w.sess s).proto.flags.closing = false) : (w.sess s).Alive := by
  have hs := (h.path.sound hsound).sess s
  refine ⟨hs.reading ((h.path.later.sess s).reading.trans hread) ?_, hopen⟩
  by_contra hlost
  exact Bool.false_ne_true (hopen.symm.trans (hs.lost (Bool.not_eq_true _ ▸ hlost)))

/-- the first handshake of the session ends -/
theorem finish_entering (h : Path e w₀ w) (hdone : (w.sess s).proto.flags.handshakeDone = false) {p : Proto}
    (hp : p.flags.handshakeDone = true) : Entering (w.setSess s { w.sess s with proto := p }) s := by
  have hsess : (w.setSess s { w.sess s with proto := p }).sess s = { w.sess s with proto := p } := World.setSess_sess ..
  have hw := h.sound hsound
  refine ⟨hw.counted s ((h.later.sess s).reading.trans hread), ?_, ?_⟩
  · rw [hsess, hp]
  · rintro ⟨k, hk | hk⟩
    · exact Bool.false_ne_true (hdone.symm.trans (hw.actived k s hk).2.1)
    · exact Bool.false_ne_true (hdone.symm.trans (hw.cached k s hk).2.1)

theorem onNewSession_serving (h : Serving e w₀ w) (hopen : (w.sess s).proto.flags.closing = false) :
    wp (onNewSession e s) (fun _ w' => Serving e w₀ w' ∧ (gwGuard e s).finish w') Faulty w := by
  have halive := h.alive hsound hread hopen
  have howner := (((h.path.sound hsound).sess s).socket halive.1).1
  have hsess : (w.startNew e s w.conf.defaultRouter).sess s =
      ((w.sess s).initNew (e.allocate w.allocated) w.conf.defaultRouter).initDone w := World.startNew_sess ..
  have hstart : Serving e w₀ (w.startNew e s w.conf.defaultRouter) := by
    refine ⟨h.path.trans (.start _ halive), fun t ht => ?_⟩
    by_cases hts : t = s
    · subst hts
      rw [hsess] at ht ⊢
      exact h.known t ht
    · rw [World.startNew_sess_ne e hts] at ht ⊢
      exact h.known t ht
  unfold onNewSession initNewSession
  rw [wp_bind, wp_get, wp_bind, wp_bind, wp_record]
  simp only [wp_bind, wp_get, wp_modify, wp_modifySess, wp_getSess, wp_ite, wp_pure, wp_throw, World.setSess_sess,
    World.setSess_setSess]
  refine ⟨fun _ => ⟨hstart, .inr ⟨?_, .inl ?_⟩⟩, fun hlost => absurd howner hlost⟩
  · exact (congrArg (fun x => x.proto.flags.closing) hsess).trans hopen
  · exact congrArg (fun x => x.flags.inited) hsess

include hok

/-- **The end of the first handshake.** -/
theorem finish_path (h : Path e w₀ w) (hknown : ∀ t, t ≠ s → (w.sess t).flags.registered = true →
    (w.sess t).proto.flags.handshakeDone = true) (hdone : (w.sess s).proto.flags.handshakeDone = false) {p : Proto}
    (hp : p.flags = { (w.sess s).proto.flags with handshakeDone := true, handshakeUpdate := false }) (status : ℤ)
    (hzero : status = 0 → (w.sess s).Alive ∧ w.Earned e s) :
    wp (rec.onHandshakeDone s status) (fun _ w' => Serving e w₀ w' ∧ (w'.sess s).proto.flags.handshakeDone = true) Faulty
      (w.setSess s { w.sess s with proto := p }) := by
  have hsess : (w.setSess s { w.sess s with proto := p }).sess s = { w.sess s with proto := p } := World.setSess_sess ..
  have hset : Path e w (w.setSess s { w.sess s with proto := p }) := .done hdone (by rw [hp]) (by rw [hp])
  have hknown' : (w.setSess s { w.sess s with proto := p }).Known := by
    intro t ht
    by_cases hts : t = s
    · subst hts
      rw [hsess, hp]
    · rw [World.setSess_sess_ne hts] at ht ⊢
      exact hknown t hts ht
  refine wp_post (hok.onHandshakeDone status ((h.trans hset).sound hsound) hknown'
    (finish_entering hsound hread h hdone (by rw [hp])) fun h0 => ?_)
    fun _ w' h' => ⟨⟨(h.trans hset).trans h'.1, h'.2⟩, (h'.1.later.sess s).done (by rw [hsess, hp])⟩
  obtain ⟨halive, hearned⟩ := hzero h0
  refine ⟨?_, hearned.later hset.later⟩
  rw [hsess]
  exact ⟨halive.1, by rw [hp]; exact halive.2⟩

theorem gwHost_ends : (gwHost e rec s).Ends (Serving e w₀) Faulty (gwGuard e s) :=
  { (show (gwHost e rec s).Owned (Serving e w₀) (Serving e w₀) Faulty from gwHost_owned hok.toReentryOk).calm with
    done := by
      refine fun {w p} h hdone hp => ⟨fun h => (nomatch h), fun f hf status hzero => ?_⟩
      cases hf
      refine wp_post (finish_path hok hsound hread h.path (fun t _ => h.known t) hdone (congrArg Proto.flags hp) status fun h0 => ?_)
        fun _ _ h' => h'.1
      rcases hzero h0 with hdone' | ⟨hopen, hearned⟩
      · exact absurd (hdone.symm.trans hdone') Bool.false_ne_true
      · exact ⟨h.alive hsound hread hopen, hearned⟩
    updateFn := by
      intro f hf status w h
      cases hf
      exact h
    finishCalm := gwHost_finishCalm hok.toReentryOk }

/-- **The object of a session** falls under the rules for the dispatch of messages. -/
theorem gwHost_respects : (gwHost e rec s).Respects (Serving e w₀) Faulty (gwGuard e s) :=
  { gwHost_ends hok hsound hread with
    nullConf := fun _ => faulty_of_ne (by decide)
    finishClose := (show (gwHost e rec s).Owned (Serving e w₀) (Serving e w₀) Faulty from gwHost_owned hok.toReentryOk).finishClose
    newSessionFn := by
      intro f hf id w h hopen _
      cases hf
      exact onNewSession_serving hsound hread h hopen
    finishCurrent := fun h => h
    start := fun _ _ => trivial
    resume := fun _ _ => trivial }

/-- the end of the handshake of a session that was resumed -/
theorem handshakeDone_resumed (h : Resumed e w₀ s w) (status : ℤ) : wp (handshakeDone (gwHost e rec s) status)
    (fun _ w' => Serving e w₀ w' ∧ (w'.sess s).proto.flags.handshakeDone = true) Faulty w := by
  unfold handshakeDone
  simp only [wp_bind, Host.wp_get, Host.wp_modify, wp_ite, wp_pure]
  refine ⟨fun hidle => ⟨h.serving hidle.1, hidle.1⟩, fun _ => ?_⟩
  cases hdone : (w.sess s).proto.flags.handshakeDone with
  | true =>
    set p := (w.sess s).proto.setFlags { (w.sess s).proto.flags with handshakeDone := true, handshakeUpdate := false }
    have hset : Resumed e w₀ s (w.setSess s { w.sess s with proto := p }) :=
      (gwHost_calm_resumed rec).quiet h ⟨⟨rfl, rfl, rfl, hdone.symm⟩, rfl, rfl, id⟩
    have hdone' : ((w.setSess s { w.sess s with proto := p }).sess s).proto.flags.handshakeDone = true := by
      rw [World.setSess_sess]
      rfl
    exact ⟨hset.serving hdone', hdone'⟩
  | false =>
    refine (wp_bind _ _).2 (wp_post (finish_path hok hsound hread h.path h.known hdone (p := (w.sess s).proto.setFlags _) rfl status
      fun _ => ⟨h.alive, .inl h.inited⟩) fun _ _ h' => h')

theorem closeHandshake_resumed (h : Resumed e w₀ s w) (status : ℤ) : wp (closeHandshake (gwHost e rec s) status)
    (fun _ w' => Serving e w₀ w' ∧ (w'.sess s).proto.flags.handshakeDone = true) Faulty w := by
  unfold closeHandshake
  simp only [wp_bind, Host.wp_get, Host.wp_modify, wp_pure]
  exact handshakeDone_resumed hok hsound hread ((gwHost_calm_resumed rec).quiet h (Host.steady_closeHandshake _ status)) _

theorem gwHost_resumes : (gwHost e rec s).Resumes (Serving e w₀) (Resumed e w₀ s) Faulty (gwGuard e s) where
  reconnectFn f hf id w h hopen _ := by
    cases hf
    refine wp_post (hok.onReconnect id (h.path.sound hsound) h.known (h.alive hsound hread hopen)) fun r w' h' => ⟨fun h0 => ?_, fun hne => ?_⟩
    · have hres := h'.1 h0
      exact { hres with path := h.path.trans hres.path }
    · exact ⟨h.path.trans (h'.2 hne).1, (h'.2 hne).2⟩
  calm := gwHost_calm_resumed rec
  ends status h := by
    refine wp_post (closeHandshake_resumed hok hsound hread h status) fun _ w' ⟨h', hdone⟩ => ?_
    exact (gwHost_ends hok hsound hread).sendKeySyn h' fun _ _ => .inl hdone

end serving

/-! ## Frames -/

theorem onMessage_serving (hknown : w.Known) (halive : (w.sess s).Alive) {buffer : Bytes} {errcode : ℤ}
    (hframe : (w.toCore, .frame s buffer errcode) ∈ w.history) {out : Bytes} {len : ℕ}
    (hout : w.delivered e s buffer errcode = some (out, len)) :
    wp (onMessage e s out len) (fun _ w' => Serving e w w') Faulty w := by
  unfold onMessage postData
  simp only [wp_bind, wp_getSess]
  cases hlen : e.serialize (w.sess s).id (.post [(w.sess s).id] out len) with
  | none => exact ⟨.refl w, hknown⟩
  | some _ =>
    unfold sendData
    simp only [wp_bind, wp_get, wp_modify, wp_pure]
    exact ⟨.post halive hframe hout (fun hnone => nomatch hlen.symm.trans hnone), hknown⟩

/-- **Every frame** of a session whose socket is read leads along a path. -/
theorem frame_path (hok : SessionOk e rec) (hsound : w.Sound) (hknown : w.Known) (hread : (w.sess s).stream.reading = true)
    (buffer : Bytes) (errcode : ℤ) : wp (frame e rec s buffer errcode) (fun _ w' => Serving e w w') Faulty w := by
  have hrecord : Path e w (w.recorded (.frame s buffer errcode)) := .record trivial
  have hstart : Serving e (w.recorded (.frame s buffer errcode)) (w.recorded (.frame s buffer errcode)) := ⟨.refl _, hknown⟩
  have hsound' := hsound.recorded (.frame s buffer errcode)
  unfold frame
  rw [wp_bind, wp_record]
  refine wp_post ((gwHost_respects hok hsound' hread).dispatchData (gwHost_resumes hok hsound' hread) hstart
    fun type body hdisp => ?_) fun _ w' h => ⟨hrecord.trans h.path, h.known⟩
  refine ⟨fun b hreach => ⟨fun _ => trivial, fun _ => trivial, fun hcomp => ?_, fun g _ w' h _ => ⟨h.path.trans (.current g), h.known⟩,
    fun _ w' _ => faulty_of_ne (by decide)⟩, fun _ w' _ => faulty_of_ne (by decide), fun f hf out len hout _ _ => ?_⟩
  · rw [Host.proto_setProto] at hcomp
    have hstage := Host.steady_arm (w.sess s).proto type
    have hsess := World.setSess_sess s { w.sess s with proto := (w.sess s).proto.arm type } (w.recorded (.frame s buffer errcode))
    by_cases hdone : (w.sess s).proto.flags.handshakeDone = true
    · exact .inl ((congrArg (fun x => x.proto.flags.handshakeDone) hsess).trans (hstage.handshakeDone.trans hdone))
    · refine .inr ⟨(congrArg (fun x => x.proto.flags.closing) hsess).trans (hstage.closing.trans hdisp.1), ?_⟩
      by_cases hinited : (w.sess s).flags.inited = true
      · exact .inl ((congrArg (fun x => x.flags.inited) hsess).trans hinited)
      · -- the frame skips the start
        refine .inr ⟨(w.toCore, .frame s buffer errcode), List.mem_append_right _ (List.mem_singleton_self _), rfl, ?_⟩
        exact ⟨Bool.not_eq_true _ ▸ hinited, Bool.not_eq_true _ ▸ hdone, hdisp.1, hdisp.2.1, type, body, b, hdisp.2.2, hreach, hcomp⟩
  · cases hf
    obtain ⟨hopen, herr, hverify⟩ := hdisp
    refine onMessage_serving (w := w.recorded (.frame s buffer errcode)) hknown (hstart.alive hsound' hread hopen)
      (List.mem_append_right _ (List.mem_singleton_self _)) ?_
    rw [Core.delivered, if_neg (not_or.2 ⟨Bool.not_eq_true _ ▸ hopen, not_lt.2 herr⟩), hverify]
    exact hout

end AtFrame.Gateway
