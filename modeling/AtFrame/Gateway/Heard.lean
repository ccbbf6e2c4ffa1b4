/-
The posts that the router gets, and what it was told about their sessions.

A session is `registered` while its add notice stands. Posts do not look at this flag, and not every session that may still
come back is looked at before the gateway reports its id as removed. Behind the conditions of `run_heard`, each post names an
id that the router was told to add and not to remove again.

- `Shut.announced`: a remove notice that a closing sends unregisters its session;
- `Walk.heard`: the invariant;
- `run_heard`: every run.

Premises: the allocator does not give the same id twice; and (`Proper`, for each step in the state before it) a POST that is
forwarded belongs to a session that is registered; no registered session starts anew; and the gateway reports no id as removed by
itself that a session is registered under and may come back with.
Witness `run_heard_startAndPost`. `run_heard_late`: the add notice cannot be sent, the handshake counts as done all the same, and
what the client posts then names an id that the router was never told.
-/
import AtFrame.Gateway.Distinct

namespace AtFrame.Gateway

open AtFrame.Lib

/-! ## Notices -/

/-- what a notice that was sent says about an id: it is added, it is removed, or nothing -/
def Notice.tells (i : UInt64) (n : Notice) : Option Bool :=
  if n.ret = 0 ∧ n.id = i then
    match n.body with
    | .addSession _ => some true
    | .removeSession _ => some false
    | _ => none
  else none

/-- the last notice that says something about the id adds it -/
def Announced (i : UInt64) (sent : List Notice) : Prop := (sent.filterMap (Notice.tells i)).getLast? = some true

instance (i : UInt64) (sent : List Notice) : Decidable (Announced i sent) := inferInstanceAs (Decidable (_ = _))

variable {e : GwEnv} {P : Permit} {S : Set ℕ} {w w' : World} {s : ℕ} {i : UInt64} {sent : List Notice} {n : Notice}

theorem announced_snoc_silent (h : n.tells i = none) : Announced i (sent ++ [n]) ↔ Announced i sent := by
  unfold Announced
  rw [List.filterMap_append, List.filterMap_cons_none h, List.filterMap_nil, List.append_nil]

theorem announced_snoc (h : n.tells i = some true) : Announced i (sent ++ [n]) := by
  unfold Announced
  rw [List.filterMap_append, List.filterMap_cons_some h, List.filterMap_nil, List.getLast?_concat]

theorem Notice.tells_post {ids : List UInt64} {content : Bytes} {len : ℕ} (h : n.body = .post ids content len) :
    n.tells i = none := by
  unfold Notice.tells
  rw [h]
  exact ite_self _

theorem Notice.tells_other (h : n.id ≠ i) : n.tells i = none := if_neg fun h' => h h'.2

/-- a post that was sent names an id that the router knows -/
def PostHeard (pre : List Notice) (n : Notice) : Prop :=
  n.ret = 0 → ∀ ids content len, n.body = .post ids content len → ∀ i ∈ n.id :: ids, i ≠ 0 ∧ Announced i pre

/-! ## Conditions -/

/-- the session is connected or in a map -/
def Core.Present (w : Core) (s : ℕ) : Prop :=
  (w.sess s).Alive ∨ ∃ k, w.actived.lookup k = some s ∨ w.reconnectCache.lookup k = some s

/-- the router was told of the session -/
structure Session.Told (x : Session) : Prop where
  registered : x.flags.registered = true
  reconnected : x.flags.reconnected = false
  id : x.id ≠ 0

/-- a session with the id that the router was told of may still post -/
def Core.Serves (w : Core) (i : UInt64) : Prop := ∃ s, w.Present s ∧ (w.sess s).Told ∧ (w.sess s).id = i

/-- the gateway only reports an id as removed that no session goes on with -/
def servedPermit : Permit := ⟨True, fun w i => ¬ w.Serves i⟩

/-- a frame is forwarded only for a registered session with an id, and no registered session starts anew -/
def Proper (e : GwEnv) : Core × Step → Prop
  | (c, .frame s buffer errcode) =>
    c.forwarded e s buffer errcode = none ∨ (c.sess s).flags.registered = true ∧ (c.sess s).id ≠ 0
  | (c, .initNewSession s) => (c.sess s).flags.registered = false
  | _ => True

instance (e : GwEnv) : DecidablePred (Proper e) := by
  rintro ⟨_, _ | _⟩ <;> dsimp only [Proper] <;> infer_instance

/-! ## Closings -/

theorem Shut.present (h : Shut S w w') (hs : w'.Present s) : w.Present s := by
  rcases hs with ⟨hfd, hopen⟩ | ⟨k, hk | hk⟩
  · rcases h.socket s with ⟨-, hfd', -⟩ | ⟨-, hlost, -⟩
    · refine .inl ⟨hfd'.symm.trans hfd, Bool.eq_false_iff.2 fun hclosing => ?_⟩
      exact Bool.false_ne_true (hopen.symm.trans ((h.kept s).object hclosing))
    · exact absurd (hlost.symm.trans hfd) Bool.false_ne_true
  · exact .inr ⟨k, .inl (h.older.actived k s hk)⟩
  · rcases h.older.cached k s hk with hk | ⟨-, -, -, j, hj⟩
    · exact .inr ⟨k, .inr hk⟩
    · exact .inr ⟨j, .inl hj⟩

theorem Session.Kept.told {x y : Session} (h : x.Kept y) (hy : y.Told) : x.Told :=
  ⟨h.registered hy.registered, h.reconnected ▸ hy.reconnected, h.id ▸ hy.id⟩

/-- a registered session with the id is not registered any more -/
def Unregistered (i : UInt64) (w w' : World) : Prop := ∃ t, (w.sess t).id = i ∧ (w.sess t).flags.registered = true ∧
  (w.sess t).flags.reconnected = false ∧ (w'.sess t).flags.registered = false

theorem Unregistered.mono {w₁ w₂ : World} (h : Unregistered i w₁ w₂) (hpre : ∀ t, (w.sess t).Kept (w₁.sess t))
    (hpost : ∀ t, (w₂.sess t).Kept (w'.sess t)) : Unregistered i w w' := by
  obtain ⟨t, hid, hreg, hrec, ht⟩ := h
  refine ⟨t, (hpre t).id.symm.trans hid, (hpre t).registered hreg, (hpre t).reconnected.symm.trans hrec, ?_⟩
  exact Bool.eq_false_iff.2 fun hreg' => Bool.false_ne_true (ht.symm.trans ((hpost t).registered hreg'))

/-- behind closings an id is still announced, or its session sent the remove notice -/
theorem Shut.announced (h : Shut S w w') (ha : Announced i w.sent) : Announced i w'.sent ∨ Unregistered i w w' := by
  have hrefl : ∀ (u : World) t, (u.sess t).Kept (u.sess t) := fun u t => .refl _
  induction h with
  | refl w => exact .inl ha
  | trans h h' ih ih' =>
    rcases ih ha with ha₁ | hun
    · exact (ih' ha₁).imp_right fun hun => hun.mono h.kept (hrefl _)
    · exact .inr (hun.mono (hrefl _) h'.kept)
  | check | miss | wrote | light | object | closeDead | waitDead => exact .inl ha
  | @close w w₁ s _ _ _ _ _ _ _ ih =>
    have hmark : ∀ x : Session, x.Kept x.markClosing.loseFd := fun x => x.kept_markClosing.trans (Session.kept_loseFd _)
    exact (ih ha).imp_right fun hun => hun.mono (World.kept_modSess hmark w s) (World.kept_modSess Session.kept_dropOwner w₁ s)
  | @remove w w₁ s len ret _ hreg hrec _ h ih =>
    have hnotice : ∀ t, (w.sess t).Kept ((w.noticed s (.removeSession (w.sess s).peer) len ret).sess t) :=
      World.kept_modSess (Session.kept_noticed len) w s
    by_cases hsaid : ret = 0 ∧ (w.sess s).id = i
    · -- the notice itself
      refine .inr ⟨s, hsaid.2, hreg, hrec, ?_⟩
      rw [if_pos hsaid.1, World.modSess_sess]
      rfl
    · have hsilent : Notice.tells i ⟨some s, (w.sess s).id, (w.sess s).router, .removeSession (w.sess s).peer, ret⟩ = none :=
        if_neg hsaid
      have ha' := (announced_snoc_silent hsilent).2 ha
      split_ifs
      · exact (ih ha').imp_right fun hun => hun.mono hnotice (World.kept_modSess Session.kept_unregister w₁ s)
      · exact (ih ha').imp_right fun hun => hun.mono hnotice (hrefl _)
  | @wait w w₁ id reason s _ _ _ _ _ _ _ _ _ ih =>
    refine (ih ha).imp_right fun hun => hun.mono (fun t => ?_) (World.kept_modSess Session.kept_dropOwner w₁ s)
    exact (World.kept_startWait (w.recorded _) s t).trans (World.kept_modSess Session.kept_loseFd _ s t)
  | drop _ _ _ _ _ _ _ ih => exact (ih ha).imp_right fun hun => hun.mono (hrefl _) (hrefl _)
  | @dropCached w w₁ id reason s _ _ _ _ _ _ _ ih =>
    exact (ih ha).imp_right fun hun => hun.mono (hrefl _) (World.kept_modSess (Session.kept_setWaiting false) w₁ s)

/-- closings send remove notices only -/
theorem Shut.notices (h : Shut S w w') : ∃ new, w'.sent = w.sent ++ new ∧ ∀ n ∈ new, ∃ peer, n.body = .removeSession peer := by
  induction h with
  | refl | check | miss | wrote | light | object | closeDead | waitDead =>
    exact ⟨[], (List.append_nil _).symm, fun _ hn => absurd hn List.not_mem_nil⟩
  | trans _ _ ih ih' =>
    obtain ⟨new, hnew, hbody⟩ := ih
    obtain ⟨new', hnew', hbody'⟩ := ih'
    exact ⟨new ++ new', by rw [hnew', hnew, List.append_assoc], fun n hn => (List.mem_append.1 hn).elim (hbody n) (hbody' n)⟩
  | close _ _ _ _ _ _ _ ih | wait _ _ _ _ _ _ _ _ _ ih | drop _ _ _ _ _ _ _ ih | dropCached _ _ _ _ _ _ _ ih => exact ih
  | @remove w w₁ s len ret _ _ _ _ _ ih =>
    obtain ⟨new, hnew, hbody⟩ := ih
    refine ⟨⟨some s, (w.sess s).id, (w.sess s).router, .removeSession (w.sess s).peer, ret⟩ :: new, ?_, fun n hn => ?_⟩
    · rw [List.append_cons]
      split_ifs
      · exact hnew
      · exact hnew
    · rcases List.mem_cons.1 hn with rfl | hn
      · exact ⟨_, rfl⟩
      · exact hbody n hn

/-! ## The invariant -/

/-- the router knows the registered sessions that may still post, and every post so far was heard -/
structure World.Heard (w : World) : Prop where
  known : ∀ s, w.Present s → (w.sess s).Told → Announced (w.sess s).id w.sent
  posts : EachPast PostHeard w.sent

/-- nothing is posted, and a session that the router was told of was so before -/
theorem World.Heard.fewer (h : w.Heard) (hsent : w'.sent = w.sent)
    (hold : ∀ s, w'.Present s → (w'.sess s).Told → ∃ t, w.Present t ∧ (w.sess t).Told ∧ (w.sess t).id = (w'.sess s).id) :
    w'.Heard := by
  refine ⟨fun s hs htold => ?_, hsent ▸ h.posts⟩
  obtain ⟨t, ht, htold', hid⟩ := hold s hs htold
  rw [hsent, ← hid]
  exact h.known t ht htold'

/-- an id belongs to one session that was not reconnected -/
def Core.Unique (w : Core) : Prop := ∀ s t, (w.sess s).id = (w.sess t).id → (w.sess s).id ≠ 0 →
  (w.sess s).flags.reconnected = false → (w.sess t).flags.reconnected = false → s = t

theorem Core.Distinct.toUnique {a : ℕ → UInt64} (h : w.Distinct a) : w.Unique := h.unique

theorem Shut.heard (h : Shut S w w') (hunique : w.Unique) (hw : w.Heard) : w'.Heard := by
  refine ⟨fun s hs htold => ?_, ?_⟩
  · have htold' := (h.kept s).told htold
    rw [(h.kept s).id]
    refine (h.announced (hw.known s (h.present hs) htold')).resolve_right fun ⟨t, hid, _, hrec, ht⟩ => ?_
    have hts : s = t := hunique s t hid.symm htold'.id htold'.reconnected hrec
    exact Bool.false_ne_true (ht.symm.trans (hts ▸ htold.registered))
  · obtain ⟨new, hnew, hbody⟩ := h.notices
    rw [hnew]
    refine hw.posts.append fun n hn pre _ ids content len hpost => ?_
    obtain ⟨peer, hpeer⟩ := hbody n hn
    exact nomatch hpeer.symm.trans hpost

/-! ## Messages -/

theorem World.Heard.silent (h : w.Heard) (hsilent : ∀ i, n.tells i = none) (hn : PostHeard w.sent n) (hcore : w'.sess = w.sess)
    (hactived : w'.actived = w.actived) (hcached : w'.reconnectCache = w.reconnectCache) (hsent : w'.sent = w.sent ++ [n]) :
    w'.Heard := by
  refine ⟨fun s hs htold => ?_, ?_⟩
  · have hpresent : w.Present s := by
      unfold Core.Present at hs ⊢
      rwa [hcore, hactived, hcached] at hs
    rw [hcore] at htold
    rw [hsent, hcore, announced_snoc_silent (hsilent _)]
    exact h.known s hpresent htold
  · rw [hsent, eachPast_snoc]
    exact ⟨h.posts, hn⟩

/-- a change of one session that is not new to the router -/
theorem World.Heard.setSess (h : w.Heard) {x : Session} (hid : x.id = (w.sess s).id)
    (hflags : x.flags.registered = true → x.flags.reconnected = false →
      (w.sess s).flags.registered = true ∧ (w.sess s).flags.reconnected = false)
    (halive : x.Alive → (w.sess s).Alive) : (w.setSess s x).Heard := by
  refine h.fewer rfl fun t ht htold => ⟨t, ?_⟩
  by_cases hts : t = s
  · subst hts
    unfold Core.Present at ht
    rw [World.setSess_sess] at ht htold ⊢
    obtain ⟨hreg, hrec⟩ := hflags htold.registered htold.reconnected
    exact ⟨ht.imp_left halive, ⟨hreg, hrec, hid ▸ htold.id⟩, hid.symm⟩
  · unfold Core.Present at ht
    rw [World.setSess_sess_ne hts] at ht htold ⊢
    exact ⟨ht, htold, rfl⟩

theorem World.Heard.post (h : w.Heard) (hsound : w.Sound) (halive : (w.sess s).Alive) {buffer : Bytes} {errcode : ℤ}
    {out : Bytes × ℕ} (hframe : (w.toCore, .frame s buffer errcode) ∈ w.history)
    (hout : w.delivered e s buffer errcode = some out)
    (hlen : e.serialize (w.sess s).id (.post [(w.sess s).id] out.1 out.2) ≠ none) (hproper : ∀ x ∈ w.history, Proper e x) :
    World.Heard { w with sent := w.sent ++
      [⟨some s, (w.sess s).id, (w.sess s).router, .post [(w.sess s).id] out.1 out.2, e.sendData w.sent.length⟩] } := by
  refine h.silent (fun i => Notice.tells_post rfl) (fun hret ids content len hbody i hi => ?_) rfl rfl rfl rfl
  have hforward : w.forwarded e s buffer errcode ≠ none := by
    rw [Core.forwarded, hout, Option.filter_some, if_pos]
    · exact Option.some_ne_none _
    · rw [Bool.and_eq_true, decide_eq_true_iff]
      exact ⟨Option.isSome_iff_ne_none.2 hlen, hret⟩
  obtain ⟨hreg, hid⟩ := (hproper _ hframe).resolve_left hforward
  have hrec : (w.sess s).flags.reconnected = false :=
    Bool.eq_false_iff.2 fun hrec => Bool.false_ne_true (((hsound.sess s).gone hrec).symm.trans halive.1)
  have hi' : i = (w.sess s).id := by
    rw [← (SsBody.post.inj hbody).1] at hi
    exact (List.mem_cons.1 hi).elim id List.mem_singleton.1
  rw [hi']
  exact ⟨hid, h.known s (.inl halive) ⟨hreg, hrec, hid⟩⟩

theorem Core.Unique.kept (h : w.Unique) (hkept : ∀ t, (w.sess t).Kept (w'.sess t)) : w'.Unique := by
  intro s t hid hne hs ht
  rw [(hkept s).id] at hid hne
  rw [(hkept t).id] at hid
  exact h s t hid hne ((hkept s).reconnected.symm.trans hs) ((hkept t).reconnected.symm.trans ht)

theorem announced_add (peer : Peer) (sender : Option ℕ) (target id : UInt64) (ret : ℤ) (h : Announced i sent) :
    Announced i (sent ++ [⟨sender, id, target, .addSession peer, ret⟩]) := by
  by_cases hsaid : ret = 0 ∧ id = i
  · exact announced_snoc (if_pos hsaid)
  · have hsilent : Notice.tells i ⟨sender, id, target, .addSession peer, ret⟩ = none := if_neg hsaid
    exact (announced_snoc_silent hsilent).2 h

/-- an add notice, and the checks of the limits -/
theorem World.Heard.noticed (h : w.Heard) (s : ℕ) (len : ℕ) (ret : ℤ) :
    (w.noticed s (.addSession (w.sess s).peer) len ret).Heard := by
  have hset : (w.modSess s fun x => x.setLimit (x.limit.addRecv len)).Heard :=
    h.setSess rfl (fun hreg hrec => ⟨hreg, hrec⟩) fun h => h
  refine ⟨fun t ht htold => announced_add _ _ _ _ _ (hset.known t ht htold), eachPast_snoc.2 ⟨h.posts, ?_⟩⟩
  exact fun _ _ _ _ hbody => nomatch hbody

theorem Core.Unique.noticed (h : w.Unique) (s : ℕ) (body : SsBody) (len : ℕ) (ret : ℤ) : (w.noticed s body len ret).Unique :=
  h.kept (World.kept_modSess (Session.kept_noticed len) w s)

/-- `active_session` for a session that no server knows -/
theorem World.Heard.announce {w₁ : World} {len : ℕ} (h : w.Heard) (hunique : w.Unique)
    (hreg : (w.sess s).flags.registered = false) (hrec : (w.sess s).flags.reconnected = false)
    (hs : Shut S (w.noticed s (.addSession (w.sess s).peer) len 0) w₁) :
    ((w₁.modSess s (Session.setRegistered true)).enrolled s).Heard := by
  have hkept : ∀ t, (w.sess t).Kept (w₁.sess t) := fun t =>
    (World.kept_modSess (Session.kept_noticed len) w s t).trans (hs.kept t)
  have h₁ : w₁.Heard := hs.heard (hunique.noticed s _ len 0) (h.noticed s len 0)
  have hadd : (w.sess s).id ≠ 0 → Announced (w.sess s).id w₁.sent := fun hne => by
    refine (hs.announced (announced_snoc (if_pos ⟨rfl, rfl⟩))).resolve_right fun ⟨t, hid, hreg', hrec', _⟩ => ?_
    have hnotice := World.kept_modSess (Session.kept_noticed len) w s t
    have hts : s = t := hunique s t (hid.symm.trans hnotice.id) hne hrec (hnotice.reconnected.symm.trans hrec')
    exact Bool.false_ne_true (hreg.symm.trans (hts ▸ hnotice.registered hreg'))
  have hset : (w₁.modSess s (Session.setRegistered true)).sess s = (w₁.sess s).setRegistered true := World.modSess_sess
  refine ⟨fun t ht htold => ?_, h₁.posts⟩
  have ht' : (w₁.modSess s (Session.setRegistered true)).sess t = ((w₁.modSess s (Session.setRegistered true)).enrolled s).sess t := rfl
  by_cases hts : t = s
  · subst hts
    rw [← ht', hset] at htold ⊢
    exact (hkept t).id ▸ hadd ((hkept t).id ▸ htold.id)
  · rw [← ht', World.modSess_sess_ne hts] at htold ⊢
    refine h₁.known t (ht.imp (fun h => ?_) fun ⟨k, hk⟩ => ⟨k, hk.imp_left fun hk => ?_⟩) htold
    · rwa [← ht', World.modSess_sess_ne hts] at h
    · exact ((lookup_enrolled hk).resolve_left fun h => hts h.2).2

/-- the end of `active_session` for a connected session -/
theorem World.Heard.enrolled (h : w.Heard) (halive : (w.sess s).Alive) : (w.enrolled s).Heard := by
  refine h.fewer rfl fun t ht htold => ⟨t, ?_, htold, rfl⟩
  by_cases hts : t = s
  · exact .inl (hts ▸ halive)
  · exact ht.imp id fun ⟨k, hk⟩ => ⟨k, hk.imp_left fun hk => ((lookup_enrolled hk).resolve_left fun h => hts h.2).2⟩

/-- the end of `reconnect` -/
theorem World.Heard.takenOver {old : ℕ} {oldId : UInt64} (h : w.Heard) (hne : old ≠ s)
    (hlook : w.reconnectCache.lookup oldId = some old) (hrec : (w.sess old).flags.reconnected = false) :
    (w.takenOver s old oldId).Heard := by
  refine h.fewer rfl fun t ht htold => ?_
  by_cases hts : t = s
  · subst hts
    rw [World.takenOver_new hne] at htold ⊢
    exact ⟨old, .inr ⟨oldId, .inr hlook⟩, ⟨htold.registered, hrec, htold.id⟩, rfl⟩
  · by_cases hto : t = old
    · subst hto
      rw [World.takenOver_old hne] at htold
      exact nomatch htold.reconnected
    · have hsame : (w.takenOver s old oldId).sess t = w.sess t := World.takenOver_other hts hto
      rw [hsame] at htold ⊢
      refine ⟨t, ht.imp (fun h => ?_) fun ⟨k, hk⟩ => ⟨k, hk.imp_right fun hk => (lookup_of_erase hk).2⟩, htold, rfl⟩
      rwa [hsame] at h

theorem Path.heard (h : Path e w w') (hsound : w.Sound) (hw : w.Distinct e.allocate)
    (hinj : Set.InjOn e.allocate (Set.Iio w'.allocated)) (hproper : ∀ x ∈ w'.history, Proper e x) (hheard : w.Heard) :
    w'.Heard := by
  induction h with
  | refl w => exact hheard
  | trans h h' ih ih' =>
    have hinj₁ := hinj.mono (Set.Iio_subset_Iio h'.later.allocated)
    have hproper₁ := fun x hx => hproper x (h'.later.history.subset hx)
    exact ih' (h.sound hsound) (h.distinct hsound hw hinj₁) hinj hproper (ih hsound hw hinj₁ hproper₁ hheard)
  | shut h => exact h.heard hw.unique hheard
  | record | current => exact hheard.fewer rfl fun t ht htold => ⟨t, ht, htold, rfl⟩
  | object hclosing =>
    exact hheard.setSess rfl (fun hreg hrec => ⟨hreg, hrec⟩) fun h => absurd (hclosing.symm.trans h.2) (by decide)
  | done _ _ hclosing => exact hheard.setSess rfl (fun hreg hrec => ⟨hreg, hrec⟩) fun h => ⟨h.1, hclosing.symm.trans h.2⟩
  | post halive hframe hout hlen => exact hheard.post hsound halive hframe hout hlen hproper
  | @start w s router _ =>
    have hreg : (w.sess s).flags.registered = false :=
      hproper (w.toCore, .initNewSession s) (List.mem_append_right _ (List.mem_singleton_self _))
    refine hheard.fewer rfl fun t ht htold => ⟨t, ?_⟩
    by_cases hts : t = s
    · subst hts
      rw [World.startNew_sess] at htold
      exact absurd (hreg.symm.trans htold.registered) Bool.false_ne_true
    · unfold Core.Present at ht
      rw [World.startNew_sess_ne e hts] at ht htold ⊢
      exact ⟨ht, htold, rfl⟩
  | announce _ _ hreg hrec h => exact hheard.announce hw.unique hreg hrec h.shut
  | @unheard w w₁ s len ret _ _ h => exact h.heard (hw.toUnique.noticed s _ len ret) (hheard.noticed s len ret)
  | enroll _ halive _ _ => exact hheard.enrolled halive
  | @resume w s old oldId halive _ hlook hrec _ =>
    obtain ⟨-, -, -, hlost⟩ := hsound.cached oldId old hlook
    have hne : old ≠ s := fun hos => Bool.false_ne_true (hlost.symm.trans (hos ▸ halive.1))
    exact (hheard.takenOver hne hlook hrec).fewer rfl fun t ht htold => ⟨t, ht, htold, rfl⟩

/-! ## Runs -/

theorem World.Heard.recorded (h : w.Heard) (step : Step) : (w.recorded step).Heard :=
  h.fewer rfl fun t ht htold => ⟨t, ht, htold, rfl⟩

theorem World.Heard.dropCached (h : w.Heard) (id : UInt64) : (w.dropCached id).Heard :=
  h.fewer rfl fun t ht htold => ⟨t, ht.imp_right fun ⟨k, hk⟩ => ⟨k, hk.imp_right fun hk => (lookup_of_erase hk).2⟩, htold, rfl⟩

theorem Walk.heard (h : Walk e servedPermit w w') (hsound : w.Sound) (hw : w.Distinct e.allocate)
    (hinj : Set.InjOn e.allocate (Set.Iio w'.allocated)) (hproper : ∀ x ∈ w'.history, Proper e x) (hheard : w.Heard) :
    w'.Heard := by
  induction h with
  | refl w => exact hheard
  | trans h h' ih ih' =>
    have hinj₁ := hinj.mono (Set.Iio_subset_Iio h'.allocated)
    have hproper₁ := fun x hx => hproper x (h'.history.subset hx)
    exact ih' (h.sound hsound) (h.distinct hsound hw hinj₁) hinj hproper (ih hsound hw hinj₁ hproper₁ hheard)
  | path h => exact h.heard hsound hw hinj hproper hheard
  | accept seed fd peer w =>
    refine hheard.fewer rfl fun t ht htold => ⟨t, ?_⟩
    by_cases htc : t = w.count
    · subst htc
      rw [World.accepted, World.joined_sess] at htold
      exact absurd htold.registered Bool.false_ne_true
    · unfold Core.Present at ht
      rw [World.accepted_sess_ne htc] at ht htold ⊢
      exact ⟨ht, htold, rfl⟩
  | @listen w s due _ _ =>
    have hset : (w.modSess s (Session.setReading true)).Heard := hheard.setSess rfl (fun hreg hrec => ⟨hreg, hrec⟩) fun h => h
    exact hset.fewer rfl fun t ht htold => ⟨t, ht, htold, rfl⟩
  | stream | router => exact hheard.setSess rfl (fun hreg hrec => ⟨hreg, hrec⟩) fun h => h
  | @giveUp w w₁ s _ _ h _ =>
    have hlose : ((w.recorded (.allocRead s)).modSess s Session.loseFd).Heard :=
      (hheard.recorded (.allocRead s)).setSess rfl (fun hreg hrec => ⟨hreg, hrec⟩) fun h => absurd h.1 Bool.false_ne_true
    have hunique : ((w.recorded (.allocRead s)).modSess s Session.loseFd).Unique :=
      hw.toUnique.kept (World.kept_modSess Session.kept_loseFd (w.recorded (.allocRead s)) s)
    exact (h.heard hunique hlose).setSess rfl (fun hreg hrec => ⟨hreg, hrec⟩) fun h => h
  | @answer w id body target ret hanswer =>
    refine ⟨fun t ht htold => ?_, eachPast_snoc.2 ⟨hheard.posts, fun _ ids content len hbody => ?_⟩⟩
    · refine (announced_snoc_silent ?_).2 (hheard.known t ht htold)
      cases body with
      | removeSession peer => exact Notice.tells_other fun hid => hanswer ⟨t, ht, htold, hid.symm⟩
      | setRouterRsp router errcode => exact ite_self none
      | addSession | post => exact hanswer.elim
    · cases body with
      | post => exact hanswer.elim
      | _ => cases hbody
  | @expire w w₁ t _ _ _ h =>
    have hexpired : (w.expired t.2).Heard :=
      ((hheard.recorded (.expireReconnect t.2)).dropCached _).setSess rfl (fun hreg hrec => ⟨hreg, hrec⟩) fun h => h
    have hunique : (w.expired t.2).Unique :=
      hw.toUnique.kept (World.kept_modSess (Session.kept_setWaiting false) ((w.recorded (.expireReconnect t.2)).dropCached _) t.2)
    exact (h.heard hunique hexpired).fewer rfl fun t ht htold => ⟨t, ht, htold, rfl⟩
  | clearActived =>
    exact hheard.fewer rfl fun t ht htold => ⟨t, ht.imp_right (Exists.imp fun _ hk => hk.imp_left SessionMap.empty_elim), htold, rfl⟩
  | clearCache =>
    exact hheard.fewer rfl fun t ht htold => ⟨t, ht.imp_right (Exists.imp fun _ hk => hk.imp_right SessionMap.empty_elim), htold, rfl⟩
  | clock | reload | tick | idle | reset | clearIdle | clearTimers => exact hheard.fewer rfl fun t ht htold => ⟨t, ht, htold, rfl⟩

/-- **The router sees posts only of sessions it knows**, in every run that meets these conditions. -/
theorem run_heard (e : GwEnv) (conf : GwConf) (now : ℤ) (current : Option CryptGlobal) (events : List GwEvent) {w : World}
    (hrun : exec (gwRun e events) (World.start conf now current) = (.ok (), w))
    (hfresh : Set.InjOn e.allocate (Set.Iio w.allocated))
    (hproper : ∀ x ∈ w.history, Proper e x)
    (hserved : EachMeets (gwEvent e) (fun ev w => ev.Permitted e servedPermit w) events (World.start conf now current)) :
    EachPast PostHeard w.sent := by
  have hwalk := (wp_ok (run_permitted e servedPermit conf now current events hserved) hrun).walk
  refine (hwalk.heard (World.start_sound conf now current) (World.start_distinct e.allocate conf now current) hfresh hproper ?_).posts
  exact ⟨fun s _ htold => (nomatch htold.registered), eachPast_nil⟩

/-- a client starts a session and sends a message -/
def startAndPost : List GwEvent := startOne ++ [.uvRead 0 (.ok (scriptFrame 1))]

theorem run_heard_startAndPost : EachPast PostHeard
    (exec (gwRun (scriptEnv [plainStartReq, plainPost] 2) startAndPost) (World.start openConf 1500000000 none)).2.sent := by
  refine run_heard _ openConf 1500000000 none startAndPost (exec_of_fst (by decide +kernel)) (scriptEnv_fresh _ _ (by decide +kernel))
    (by decide +kernel) (eachMeets_of_forall fun ev hev w => ?_)
  simp only [startAndPost, startOne, List.cons_append, List.nil_append, List.mem_cons, List.not_mem_nil, or_false] at hev
  rcases hev with rfl | rfl | rfl <;> exact trivial

/-- the first notice to a server fails -/
@[reducible] def lateEnv (msgs : List CsMsg) : GwEnv :=
  { scriptEnv msgs 2 with
    sendData := fun n => if n = 0 then -1 else 0
    sendData_le := fun n => by split <;> decide }

/-- the add notice fails, and the message is forwarded all the same -/
theorem run_heard_late : ¬ ∀ (e : GwEnv) (conf : GwConf) (now : ℤ) (current : Option CryptGlobal) (events : List GwEvent) (w : World),
    exec (gwRun e events) (World.start conf now current) = (.ok (), w) → Set.InjOn e.allocate (Set.Iio w.allocated) →
      EachPast PostHeard w.sent := by
  intro h
  have hsent : (exec (gwRun (lateEnv [plainStartReq, plainPost]) startAndPost) (World.start openConf 1500000000 none)).2.sent =
      [⟨some 0, 1, 1, .addSession {}, -1⟩] ++ ⟨some 0, 1, 1, .post [1] [1, 2, 3] 3, 0⟩ :: [] := by decide +kernel
  have hpast := h (lateEnv [plainStartReq, plainPost]) openConf 1500000000 none startAndPost _ (exec_of_fst (by decide +kernel))
    (scriptEnv_fresh [] 0 (by decide +kernel))
  have hpost := hpast _ _ _ hsent rfl _ _ _ rfl 1 List.mem_cons_self
  exact absurd hpost.2 (by decide)

end AtFrame.Gateway
