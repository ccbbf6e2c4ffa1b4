/-
The id of a session: the key under which the maps hold it, and the id that the router was told.

A client may start a key update of its own (`POST_KEY_SYN`) and ask for a new session with it. `init_new_session` then gives
the session another id, while `actived_sessions_` holds it under the old one and the router knows it by the old one.

A resumed session sends no add notice of its own: it takes over the id, and whether the router was told, from the object
whose connection was lost. That object sent the notice, or it was resumed itself from one that did.

The results:

- `Walk.bound`: the invariant, where only sessions that nobody knows yet are started or resumed (`OpensUnbound`);
- `Walk.heirs`: a resumed session keeps the id that it took over, and its notices name this id;
- `run_keyed`: every run. The maps hold each session under its own id, the router was told of each registered session under this
  id, a session's notices name the id of its own add notice, and the notices of a resumed session the id of the add notice that
  was sent before its connection was lost. Its witness is a run with a disconnect and a resumption (`run_keyed_comeBack`);
- `run_keyed_again`: the premise is needed. A session that is started twice is active under an id that is not its own.
-/
import AtFrame.Gateway.Distinct
import AtFrame.Gateway.Ledger

namespace AtFrame.Gateway

open AtFrame.Lib

/-! ## Notices and sessions -/

/-- the notice says that a session was added, and it was sent -/
def Notice.Added (n : Notice) : Prop :=
  n.ret = 0 ∧ match n.body with
    | .addSession _ => True
    | _ => False

instance : DecidablePred Notice.Added := by
  rintro ⟨_, _, _, _ | _, _⟩ <;> dsimp only [Notice.Added] <;> infer_instance

/-- the ids that a notice names: in its head and in a post -/
def Notice.ids (n : Notice) : List UInt64 :=
  match n.body with
  | .post ids _ _ => n.id :: ids
  | _ => [n.id]

/-- a notice of a session names the id that was reported when the session was added -/
def SameId (pre : List Notice) (n : Notice) : Prop :=
  ∀ s, n.sender = some s → ∀ m ∈ pre, m.sender = some s → m.Added → ∀ i ∈ n.ids, i = m.id

instance (pre : List Notice) (n : Notice) : Decidable (SameId pre n) :=
  decidable_of_iff (∀ s ∈ n.sender, ∀ m ∈ pre, m.sender = some s → m.Added → n.ids.all (· = m.id)) (by
    simp only [SameId, Option.mem_def, List.all_eq_true, decide_eq_true_eq])

/-- what a session that is resumed sends from then on names the id of an add notice that was sent before, if the router was told
of it, unless the session is started again -/
def World.Inherits (w : World) : Core × Step → Prop
  | (c, .initReconnect s old) => (c.sess old).flags.registered = true → (∀ x ∈ w.history, x.2 ≠ .initNewSession s) →
      ∃ m ∈ c.sent, m.Added ∧ ∀ n ∈ w.sent.drop c.sent.length, n.sender = some s → ∀ i ∈ n.ids, i = m.id
  | _ => True

/-- the maps hold each session under its own id, and the router knows it by this id -/
structure World.Keyed (w : World) : Prop where
  actived : ∀ k s, w.actived.lookup k = some s → (w.sess s).id = k
  cached : ∀ k s, w.reconnectCache.lookup k = some s → (w.sess s).id = k
  told : ∀ s, (w.sess s).flags.registered = true → ∃ n ∈ w.sent, n.Added ∧ n.id = (w.sess s).id
  notices : EachPast SameId w.sent
  resumed : ∀ x ∈ w.history, w.Inherits x

/-- nobody knows the session: it is not active, and the router was not told of it -/
def Core.Unbound (w : Core) (s : ℕ) : Prop :=
  (w.sess s).flags.registered = false ∧ (∀ x ∈ w.actived.entries, x.2 ≠ s) ∧ ∀ n ∈ w.sent, n.sender = some s → ¬ n.Added

instance (w : Core) (s : ℕ) : Decidable (w.Unbound s) := inferInstanceAs (Decidable (_ ∧ _ ∧ _))

/-- only a session that nobody knows is started or resumed -/
def OpensUnbound : Core × Step → Prop
  | (c, .initNewSession s) | (c, .initReconnect s _) => c.Unbound s
  | _ => True

instance : DecidablePred OpensUnbound := by
  rintro ⟨_, _ | _⟩ <;> dsimp only [OpensUnbound] <;> infer_instance

variable {e : GwEnv} {P : Permit} {S : Set ℕ} {w w' : World} {s : ℕ} {n : Notice}

theorem Core.Unbound.inactive {c : Core} (h : c.Unbound s) (k : UInt64) : c.actived.lookup k ≠ some s := fun hk =>
  h.2.1 ⟨k, s⟩ (AList.mem_lookup_iff.1 hk) rfl

/-! ## The invariant -/

structure World.Bound (w : World) : Prop where
  actived : ∀ k s, w.actived.lookup k = some s → (w.sess s).id = k
  told : ∀ s, (w.sess s).flags.registered = true → ∃ n ∈ w.sent, n.Added ∧ n.id = (w.sess s).id
  names : ∀ n ∈ w.sent, ∀ s, n.sender = some s → n.Added → s < w.count ∧ n.id = (w.sess s).id
  notices : EachPast SameId w.sent

/-- sessions keep their ids, and nobody is told of or activated -/
theorem World.Bound.next (h : w.Bound)
    (hsess : ∀ t, (w'.sess t).id = (w.sess t).id ∧ ((w'.sess t).flags.registered = true → (w.sess t).flags.registered = true))
    (hcount : w'.count = w.count) (hactived : ∀ k t, w'.actived.lookup k = some t → w.actived.lookup k = some t)
    (hsent : w'.sent = w.sent) : w'.Bound where
  actived k t hk := (hsess t).1.trans (h.actived k t (hactived k t hk))
  told t ht := by
    rw [hsent, (hsess t).1]
    exact h.told t ((hsess t).2 ht)
  names n hn t ht hadd := by
    rw [hcount, (hsess t).1]
    exact h.names n (hsent ▸ hn) t ht hadd
  notices := hsent ▸ h.notices

/-- one session changes, but for its id -/
theorem World.Bound.setSess {x : Session} (h : w.Bound) (hid : x.id = (w.sess s).id)
    (hreg : x.flags.registered = true → (w.sess s).flags.registered = true) : (w.setSess s x).Bound := by
  refine h.next (fun t => ?_) rfl (fun _ _ hk => hk) rfl
  by_cases hts : t = s
  · subst hts
    rw [World.setSess_sess]
    exact ⟨hid, hreg⟩
  · rw [World.setSess_sess_ne hts]
    exact ⟨rfl, fun h => h⟩

theorem World.Bound.recorded (h : w.Bound) (step : Step) : (w.recorded step).Bound :=
  h.next (fun _ => ⟨rfl, fun h => h⟩) rfl (fun _ _ hk => hk) rfl

theorem World.Bound.dropActived (h : w.Bound) (id : UInt64) : (w.dropActived id).Bound :=
  h.next (fun _ => ⟨rfl, fun h => h⟩) rfl (fun _ _ hk => (lookup_of_erase hk).2) rfl

theorem World.Bound.dropCached (h : w.Bound) (id : UInt64) : (w.dropCached id).Bound :=
  h.next (fun _ => ⟨rfl, fun h => h⟩) rfl (fun _ _ hk => hk) rfl

/-- a notice is sent that names the id of its session -/
theorem World.Bound.sends (h : w.Bound)
    (hids : ∀ s, n.sender = some s → (n.Added → s < w.count) ∧ ∀ i ∈ n.id :: n.ids, i = (w.sess s).id) :
    World.Bound { w with sent := w.sent ++ [n] } where
  actived := h.actived
  told t ht := (h.told t ht).imp fun _ hn => ⟨List.mem_append_left _ hn.1, hn.2⟩
  names m hm t ht hadd := by
    rcases List.mem_append.1 hm with hm | hm
    · exact h.names m hm t ht hadd
    · obtain rfl := List.mem_singleton.1 hm
      exact ⟨(hids t ht).1 hadd, (hids t ht).2 _ List.mem_cons_self⟩
  notices := by
    refine eachPast_snoc.2 ⟨h.notices, fun t ht m hm hmt hadd i hi => ?_⟩
    exact ((hids t ht).2 i (List.mem_cons_of_mem _ hi)).trans (h.names m hm t hmt hadd).2.symm

theorem World.Bound.noticed (h : w.Bound) {body : SsBody} (hbody : ∀ ids content len, body ≠ .post ids content len) (len : ℕ) {ret : ℤ}
    (hcount : (⟨some s, (w.sess s).id, (w.sess s).router, body, ret⟩ : Notice).Added → s < w.count) :
    (w.noticed s body len ret).Bound := by
  have hset : (w.modSess s fun x => x.setLimit (x.limit.addRecv len)).Bound := h.setSess rfl fun h => h
  refine hset.sends (n := ⟨some s, (w.sess s).id, (w.sess s).router, body, ret⟩) fun t ht => ⟨fun hadd => ?_, fun i hi => ?_⟩
  · obtain rfl := Option.some.inj ht
    exact hcount hadd
  · obtain rfl := Option.some.inj ht
    rw [World.modSess_sess]
    cases body with
    | post ids content len => exact absurd rfl (hbody ids content len)
    | addSession | removeSession | setRouterRsp => exact (List.mem_cons.1 hi).elim id List.mem_singleton.1

/-! ## Moves -/

theorem Shut.bound (h : Shut S w w') (hw : w.Bound) : w'.Bound := by
  induction h with
  | refl w => exact hw
  | trans _ _ ih ih' => exact ih' (ih hw)
  | check | miss => exact hw.recorded _
  | wrote => exact hw.next (fun _ => ⟨rfl, fun h => h⟩) rfl (fun _ _ hk => hk) rfl
  | light _ hx => exact hw.setSess hx.kept.id hx.kept.registered
  | object | closeDead => exact hw.setSess rfl fun h => h
  | close _ _ _ _ _ _ _ ih => exact (ih (hw.setSess rfl fun h => h)).setSess rfl fun h => h
  | @remove w w₁ s len ret _ _ _ _ _ ih =>
    have hnotice : (w.noticed s (.removeSession (w.sess s).peer) len ret).Bound :=
      hw.noticed (fun _ _ _ => SsBody.noConfusion) len fun hadd => hadd.2.elim
    split_ifs
    · exact (ih hnotice).setSess rfl fun h => absurd h Bool.false_ne_true
    · exact ih hnotice
  | @wait w w₁ id reason s _ _ _ _ _ _ _ _ _ ih =>
    have hset : ((w.recorded (.managerClose id reason true)).modSess s (Session.setWaiting true)).Bound :=
      World.Bound.setSess (w := w.recorded (.managerClose id reason true)) (hw.recorded _) rfl fun h => h
    have hstart : ((w.recorded (.managerClose id reason true)).startWait s).Bound :=
      hset.next (fun _ => ⟨rfl, fun h => h⟩) rfl (fun _ _ hk => hk) rfl
    exact ((ih (hstart.setSess rfl fun h => h)).setSess (s := s) (x := Session.dropOwner _) rfl fun h => h).dropActived id
  | @waitDead w id reason s _ _ _ _ _ =>
    have hset : ((w.recorded (.managerClose id reason true)).modSess s (Session.setWaiting true)).Bound :=
      World.Bound.setSess (w := w.recorded (.managerClose id reason true)) (hw.recorded _) rfl fun h => h
    exact hset.next (fun _ => ⟨rfl, fun h => h⟩) rfl (fun _ _ hk => (lookup_of_erase hk).2) rfl
  | drop _ _ _ _ _ _ _ ih => exact (ih (hw.recorded _)).dropActived _
  | @dropCached w w₁ id reason s _ _ _ _ _ _ _ ih =>
    exact ((ih (hw.recorded _)).setSess (s := s) (x := Session.setWaiting false _) rfl fun h => h).dropCached id

/-- `init_new_session` or `init_reconnect` on a session that nobody knows -/
theorem World.Bound.rename {x : Session} (h : w.Bound) (hunbound : w.Unbound s)
    (hreg : x.flags.registered = true → ∃ n ∈ w.sent, n.Added ∧ n.id = x.id) : (w.setSess s x).Bound where
  actived k t hk := by
    have hts : t ≠ s := fun hts => hunbound.inactive k (hts ▸ hk)
    rw [World.setSess_sess_ne hts]
    exact h.actived k t hk
  told t ht := by
    by_cases hts : t = s
    · subst hts
      rw [World.setSess_sess] at ht ⊢
      exact hreg ht
    · rw [World.setSess_sess_ne hts] at ht ⊢
      exact h.told t ht
  names n hn t ht hadd := by
    have hts : t ≠ s := fun hts => hunbound.2.2 n hn (hts ▸ ht) hadd
    rw [World.setSess_sess_ne hts]
    exact h.names n hn t ht hadd
  notices := h.notices

theorem World.Bound.startNew (h : w.Bound) (hunbound : w.Unbound s) (router : UInt64) : (w.startNew e s router).Bound := by
  have hset : ((w.recorded (.initNewSession s)).modSess s fun x => (x.initNew (e.allocate w.allocated) router).initDone w).Bound :=
    (h.recorded (.initNewSession s)).rename hunbound fun hreg => absurd (hunbound.1.symm.trans hreg) Bool.false_ne_true
  exact ⟨hset.actived, hset.told, hset.names, hset.notices⟩

theorem World.Bound.takenOver {old : ℕ} {oldId : UInt64} (h : w.Bound) (hunbound : w.Unbound s) (hne : old ≠ s) :
    (w.takenOver s old oldId).Bound := by
  have hnew : ((w.recorded (.initReconnect s old)).modSess s fun x =>
      ((x.takeOver (w.sess old)).initDone w).setRegistered (w.sess old).flags.registered).Bound :=
    (h.recorded (.initReconnect s old)).rename hunbound (h.told old)
  refine (hnew.setSess (s := old) (x := Session.setReconnected _) rfl ?_).dropCached oldId
  rw [World.modSess_sess_ne hne]
  exact fun h => h

theorem World.Bound.enrolled (h : w.Bound) : (w.enrolled s).Bound where
  actived k t hk := by
    rcases lookup_enrolled hk with ⟨rfl, rfl⟩ | ⟨-, hk⟩
    · rfl
    · exact h.actived k t hk
  told := h.told
  names := h.names
  notices := h.notices

/-- `active_session` for a session that no server knows -/
theorem World.Bound.announce {w₁ : World} {len : ℕ} (h : w.Bound) (hcount : s < w.count)
    (hs : Shut S (w.noticed s (.addSession (w.sess s).peer) len 0) w₁) :
    ((w₁.modSess s (Session.setRegistered true)).enrolled s).Bound := by
  have h₁ : w₁.Bound := hs.bound (h.noticed (fun _ _ _ => SsBody.noConfusion) len fun _ => hcount)
  have hid : (w₁.sess s).id = (w.sess s).id :=
    ((World.kept_modSess (Session.kept_noticed len) w s s).trans (hs.kept s)).id
  have hset : (w₁.modSess s (Session.setRegistered true)).Bound := by
    refine ⟨fun k t hk => ?_, fun t ht => ?_, fun n hn t ht hadd => ?_, h₁.notices⟩
    · by_cases hts : t = s
      · subst hts
        rw [World.modSess_sess]
        exact h₁.actived k t hk
      · rw [World.modSess_sess_ne hts]
        exact h₁.actived k t hk
    · by_cases hts : t = s
      · subst hts
        rw [World.modSess_sess]
        exact ⟨_, hs.older.sent.subset (List.mem_append_right _ (List.mem_singleton_self _)), ⟨rfl, trivial⟩, hid.symm⟩
      · rw [World.modSess_sess_ne hts] at ht ⊢
        exact h₁.told t ht
    · by_cases hts : t = s
      · subst hts
        rw [World.modSess_sess]
        exact h₁.names n hn t ht hadd
      · rw [World.modSess_sess_ne hts]
        exact h₁.names n hn t ht hadd
  exact hset.enrolled

theorem Path.bound (h : Path e w w') (hsound : w.Sound) (hopens : ∀ x ∈ w'.history, OpensUnbound x) (hw : w.Bound) : w'.Bound := by
  induction h with
  | refl w => exact hw
  | trans h h' ih ih' => exact ih' (h.sound hsound) hopens (ih hsound (fun x hx => hopens x (h'.later.history.subset hx)) hw)
  | shut h => exact h.bound hw
  | record => exact hw.recorded _
  | object | done => exact hw.setSess rfl fun h => h
  | current => exact hw.next (fun _ => ⟨rfl, fun h => h⟩) rfl (fun _ _ hk => hk) rfl
  | @post w s buffer errcode out =>
    refine hw.sends fun t ht => ⟨fun hadd => hadd.2.elim, fun i hi => ?_⟩
    obtain rfl := Option.some.inj ht
    simpa only [Notice.ids, List.mem_cons, List.not_mem_nil, or_false, or_self] using hi
  | @start w s router =>
    exact hw.startNew (hopens (w.toCore, .initNewSession s) (List.mem_append_right _ (List.mem_singleton_self _))) router
  | announce hs _ _ _ h => exact hw.announce hs.counted h.shut
  | @unheard w w₁ s len ret _ hneg h =>
    exact h.bound (hw.noticed (fun _ _ _ => SsBody.noConfusion) len fun hadd => absurd hadd.1 hneg.ne)
  | enroll => exact hw.enrolled
  | @resume w s old oldId halive _ hlook =>
    have hne : old ≠ s := fun hos => Bool.false_ne_true ((hsound.cached _ _ hlook).2.2.2.symm.trans (hos ▸ halive.1))
    have hunbound : w.Unbound s := hopens (w.toCore, .initReconnect s old)
      (List.mem_append_left _ (List.mem_append_right _ (List.mem_singleton_self _)))
    exact (hw.takenOver hunbound hne).recorded _

theorem World.Bound.accepted (h : w.Bound) (hsound : w.Sound) (seed : ℕ) (fd : Bool) (peer : Peer) : (w.accepted e seed fd peer).Bound := by
  have hnew : (w.accepted e seed fd peer).sess w.count = Session.accepted e w.conf seed fd peer := World.joined_sess _
  have hsame : ∀ {t}, t ≠ w.count → (w.accepted e seed fd peer).sess t = w.sess t := fun ht => World.accepted_sess_ne ht seed fd peer
  refine ⟨fun k t hk => ?_, fun t ht => ?_, fun n hn t ht hadd => ?_, h.notices⟩
  · rw [hsame (hsound.actived k t hk).1.ne]
    exact h.actived k t hk
  · have htc : t ≠ w.count := fun htc => by
      rw [htc, hnew] at ht
      exact absurd ht Bool.false_ne_true
    rw [hsame htc] at ht ⊢
    exact h.told t ht
  · obtain ⟨hcount, hid⟩ := h.names n hn t ht hadd
    rw [hsame hcount.ne]
    exact ⟨Nat.lt_succ_of_lt hcount, hid⟩

/-- **The invariant** holds along a walk on which only sessions that nobody knows are started or resumed. -/
theorem Walk.bound (h : Walk e P w w') (hsound : w.Sound) (hopens : ∀ x ∈ w'.history, OpensUnbound x) (hw : w.Bound) : w'.Bound := by
  induction h with
  | refl w => exact hw
  | trans h h' ih ih' => exact ih' (h.sound hsound) hopens (ih hsound (fun x hx => hopens x (h'.history.subset hx)) hw)
  | path h => exact h.bound hsound hopens hw
  | accept => exact hw.accepted hsound _ _ _
  | @listen w s due _ _ =>
    have hset : (w.modSess s (Session.setReading true)).Bound := hw.setSess rfl fun h => h
    exact hset.next (fun _ => ⟨rfl, fun h => h⟩) rfl (fun _ _ hk => hk) rfl
  | stream | router => exact hw.setSess rfl fun h => h
  | @giveUp w w₁ s _ _ h _ =>
    have hlose : ((w.recorded (.allocRead s)).modSess s Session.loseFd).Bound :=
      World.Bound.setSess (w := w.recorded (.allocRead s)) (hw.recorded _) rfl fun h => h
    exact (h.bound hlose).setSess rfl fun h => h
  | answer => exact hw.sends fun t ht => (nomatch ht)
  | @expire w w₁ t _ _ _ h =>
    have hexpired : (w.expired t.2).Bound :=
      ((hw.recorded (.expireReconnect t.2)).dropCached (w.sess t.2).id).setSess (s := t.2) (x := Session.setWaiting false _) rfl fun h => h
    exact (h.bound hexpired).next (fun _ => ⟨rfl, fun h => h⟩) rfl (fun _ _ hk => hk) rfl
  | clearActived => exact hw.next (fun _ => ⟨rfl, fun h => h⟩) rfl (fun _ _ hk => SessionMap.empty_elim hk) rfl
  | _ => exact hw.next (fun _ => ⟨rfl, fun h => h⟩) rfl (fun _ _ hk => hk) rfl

theorem World.start_bound (conf : GwConf) (now : ℤ) (current : Option CryptGlobal) : (World.start conf now current).Bound :=
  ⟨fun _ _ hk => SessionMap.empty_elim hk, fun _ h => absurd h Bool.false_ne_true, fun _ hn => absurd hn List.not_mem_nil, eachPast_nil⟩

/-! ## Resumed sessions -/

/-- sessions keep their ids, and what is sent names them -/
structure World.Names (w w' : World) : Prop where
  count : w.count ≤ w'.count
  ids : ∀ t < w.count, (w'.sess t).id = (w.sess t).id
  inited : ∀ t < w.count, (w.sess t).flags.inited = true → (w'.sess t).flags.inited = true
  history : w.history ⊆ w'.history
  resumes : ∀ c t old, (c, Step.initReconnect t old) ∈ w'.history → (c, Step.initReconnect t old) ∈ w.history
  sent : ∃ new, w'.sent = w.sent ++ new ∧ ∀ n ∈ new, ∀ t < w.count, n.sender = some t → ∀ i ∈ n.ids, i = (w.sess t).id

theorem World.Names.trans {w₁ : World} (h : w.Names w₁) (h' : w₁.Names w') : w.Names w' where
  count := h.count.trans h'.count
  ids t ht := (h'.ids t (ht.trans_le h.count)).trans (h.ids t ht)
  inited t ht hinit := h'.inited t (ht.trans_le h.count) (h.inited t ht hinit)
  history := List.Subset.trans h.history h'.history
  resumes c t old hx := h.resumes c t old (h'.resumes c t old hx)
  sent := by
    obtain ⟨new, hnew, hids⟩ := h.sent
    obtain ⟨new', hnew', hids'⟩ := h'.sent
    refine ⟨new ++ new', by rw [hnew', hnew, List.append_assoc], fun n hn t ht hsender i hi => ?_⟩
    rcases List.mem_append.1 hn with hn | hn
    · exact hids n hn t ht hsender i hi
    · exact (hids' n hn t (ht.trans_le h.count) hsender i hi).trans (h.ids t ht)

/-- nothing is sent, and nobody is resumed -/
theorem World.Names.next (hcount : w.count ≤ w'.count)
    (hsess : ∀ t < w.count, (w'.sess t).id = (w.sess t).id ∧ ((w.sess t).flags.inited = true → (w'.sess t).flags.inited = true))
    (hhistory : w.history ⊆ w'.history)
    (hresumes : ∀ c t old, (c, Step.initReconnect t old) ∈ w'.history → (c, Step.initReconnect t old) ∈ w.history)
    (hsent : w'.sent = w.sent) : w.Names w' :=
  ⟨hcount, fun t ht => (hsess t ht).1, fun t ht => (hsess t ht).2, hhistory, hresumes, [],
    hsent.trans (List.append_nil _).symm, fun _ hn => absurd hn List.not_mem_nil⟩

/-- the same where nothing is recorded either -/
theorem World.Names.same (hcount : w'.count = w.count) (hsess : w'.sess = w.sess) (hhistory : w'.history = w.history)
    (hsent : w'.sent = w.sent) : w.Names w' :=
  .next hcount.ge (fun _ _ => hsess ▸ ⟨rfl, fun h => h⟩) (fun _ hx => hhistory ▸ hx) (fun _ _ _ hx => hhistory ▸ hx) hsent

theorem World.names_setSess {x : Session} (w : World) (hid : x.id = (w.sess s).id)
    (hinited : (w.sess s).flags.inited = true → x.flags.inited = true) : w.Names (w.setSess s x) := by
  refine .next le_rfl (fun t _ => ?_) (List.Subset.refl _) (fun _ _ _ hx => hx) rfl
  by_cases hts : t = s
  · subst hts
    rw [World.setSess_sess]
    exact ⟨hid, hinited⟩
  · rw [World.setSess_sess_ne hts]
    exact ⟨rfl, fun h => h⟩

theorem World.names_recorded (w : World) {step : Step} (hstep : ∀ t old, step ≠ .initReconnect t old) : w.Names (w.recorded step) :=
  .next le_rfl (fun _ _ => ⟨rfl, fun h => h⟩) (List.subset_append_left _ _) (fun _ t old hx =>
    (List.mem_append.1 hx).elim id fun hx => absurd (Prod.ext_iff.1 (List.mem_singleton.1 hx)).2.symm (hstep t old)) rfl

/-- a notice that names the id of its session is sent -/
theorem World.names_sends (w : World) (hids : ∀ t, n.sender = some t → ∀ i ∈ n.ids, i = (w.sess t).id) :
    w.Names { w with sent := w.sent ++ [n] } where
  count := le_rfl
  ids _ _ := rfl
  inited _ _ h := h
  history := List.Subset.refl _
  resumes _ _ _ hx := hx
  sent := by
    refine ⟨[n], rfl, fun m hm t _ ht => ?_⟩
    obtain rfl := List.mem_singleton.1 hm
    exact hids t ht

theorem World.names_noticed (w : World) {body : SsBody} (hbody : ∀ ids content len, body ≠ .post ids content len) (len : ℕ) (ret : ℤ) :
    w.Names (w.noticed s body len ret) := by
  have hset : w.Names (w.modSess s fun x => x.setLimit (x.limit.addRecv len)) := w.names_setSess rfl fun h => h
  refine hset.trans (World.names_sends (n := ⟨some s, (w.sess s).id, (w.sess s).router, body, ret⟩) _ fun t ht i hi => ?_)
  obtain rfl := Option.some.inj ht
  rw [World.modSess_sess]
  cases body with
  | post ids content len => exact absurd rfl (hbody ids content len)
  | addSession | removeSession | setRouterRsp => exact List.mem_singleton.1 hi

theorem Shut.names (h : Shut S w w') : w.Names w' := by
  induction h with
  | refl w => exact .same rfl rfl rfl rfl
  | trans _ _ ih ih' => exact ih.trans ih'
  | check | miss => exact World.names_recorded _ fun _ _ => Step.noConfusion
  | wrote => exact .same rfl rfl rfl rfl
  | light _ hx => exact World.names_setSess _ hx.kept.id fun h => hx.kept.inited.trans h
  | object | closeDead => exact World.names_setSess _ rfl fun h => h
  | @close w w₁ s _ _ _ _ _ _ _ ih =>
    have hmark : w.Names (w.modSess s fun x => x.markClosing.loseFd) := w.names_setSess rfl fun h => h
    exact (hmark.trans ih).trans (World.names_setSess _ rfl fun h => h)
  | @remove w w₁ s len ret _ _ _ _ _ ih =>
    have hnotice : w.Names w₁ := (w.names_noticed (fun _ _ _ => SsBody.noConfusion) len ret).trans ih
    split_ifs
    · exact hnotice.trans (World.names_setSess _ rfl fun h => h)
    · exact hnotice
  | @wait w w₁ id reason s _ _ _ _ _ _ _ _ _ ih =>
    have hrecord : w.Names (w.recorded (.managerClose id reason true)) := w.names_recorded fun _ _ => Step.noConfusion
    have hset := hrecord.trans (World.names_setSess (s := s) (x := Session.setWaiting true _) _ rfl fun h => h)
    have hstart : w.Names ((w.recorded (.managerClose id reason true)).startWait s) := hset.trans (.same rfl rfl rfl rfl)
    have hlost := (hstart.trans (World.names_setSess (s := s) (x := Session.loseFd _) _ rfl fun h => h)).trans ih
    exact (hlost.trans (World.names_setSess (s := s) (x := Session.dropOwner _) _ rfl fun h => h)).trans (.same rfl rfl rfl rfl)
  | @waitDead w id reason s _ _ _ _ _ =>
    have hrecord : w.Names (w.recorded (.managerClose id reason true)) := w.names_recorded fun _ _ => Step.noConfusion
    have hset := hrecord.trans (World.names_setSess (s := s) (x := Session.setWaiting true _) _ rfl fun h => h)
    exact hset.trans (.same rfl rfl rfl rfl)
  | drop _ _ _ _ _ _ _ ih => exact ((World.names_recorded _ fun _ _ => Step.noConfusion).trans ih).trans (.same rfl rfl rfl rfl)
  | @dropCached w w₁ id reason s _ _ _ _ _ _ _ ih =>
    have hclosed : w.Names w₁ := (w.names_recorded fun _ _ => Step.noConfusion).trans ih
    exact (hclosed.trans (World.names_setSess (s := s) (x := Session.setWaiting false _) _ rfl fun h => h)).trans (.same rfl rfl rfl rfl)

/-- session `s` goes on where `old` was left -/
structure World.Heir (w : World) (c : Core) (s old : ℕ) : Prop where
  counted : s < w.count
  inited : (w.sess s).flags.inited = true
  id : (w.sess s).id = (c.sess old).id
  notices : ∀ n ∈ w.sent.drop c.sent.length, n.sender = some s → ∀ i ∈ n.ids, i = (c.sess old).id

structure World.Heirs (w : World) : Prop where
  heir : ∀ c s old, (c, Step.initReconnect s old) ∈ w.history → (∀ x ∈ w.history, x.2 ≠ .initNewSession s) → w.Heir c s old
  told : ∀ c s old, (c, Step.initReconnect s old) ∈ w.history → (c.sess old).flags.registered = true →
    ∃ m ∈ c.sent, m.Added ∧ m.id = (c.sess old).id

theorem World.Heir.names {c : Core} {old : ℕ} (h : w.Heir c s old) (hnames : w.Names w') : w'.Heir c s old where
  counted := h.counted.trans_le hnames.count
  inited := hnames.inited s h.counted h.inited
  id := (hnames.ids s h.counted).trans h.id
  notices n hn hsender i hi := by
    obtain ⟨new, hnew, hids⟩ := hnames.sent
    rw [hnew, List.drop_append] at hn
    rcases List.mem_append.1 hn with hn | hn
    · exact h.notices n hn hsender i hi
    · exact (hids n (List.mem_of_mem_drop hn) s h.counted hsender i hi).trans h.id

theorem World.Heirs.names (h : w.Heirs) (hnames : w.Names w') : w'.Heirs where
  heir c s old hx hstart :=
    (h.heir c s old (hnames.resumes c s old hx) fun x hx => hstart x (hnames.history hx)).names hnames
  told c s old hx := h.told c s old (hnames.resumes c s old hx)

/-- another session is started, or the session is, which leaves nothing to show -/
theorem World.Heirs.startNew (h : w.Heirs) (router : UInt64) : (w.startNew e s router).Heirs := by
  have hhistory : (w.startNew e s router).history = w.history ++ [(w.toCore, .initNewSession s)] := rfl
  have hresumes : ∀ c t old, (c, Step.initReconnect t old) ∈ (w.startNew e s router).history → (c, Step.initReconnect t old) ∈ w.history :=
    fun c t old hx => (List.mem_append.1 hx).elim id fun hx =>
      Step.noConfusion (congrArg Prod.snd (List.mem_singleton.1 hx))
  refine ⟨fun c t old hx hstart => ?_, fun c t old hx => h.told c t old (hresumes c t old hx)⟩
  rw [hhistory] at hstart
  have hts : t ≠ s := fun hts => hstart _ (List.mem_append_right _ (List.mem_singleton_self _)) (congrArg Step.initNewSession hts.symm)
  have hheir := h.heir c t old (hresumes c t old hx) fun x hx => hstart x (List.mem_append_left _ hx)
  have hsess : (w.startNew e s router).sess t = w.sess t := World.startNew_sess_ne e hts router w
  exact ⟨hheir.counted, hsess ▸ hheir.inited, (congrArg Session.id hsess).trans hheir.id, hheir.notices⟩

/-- the end of `reconnect` -/
theorem World.Heirs.resumed {old : ℕ} {oldId : UInt64} (h : w.Heirs) (hbound : w.Bound) (hcount : s < w.count)
    (hnew : (w.sess s).flags.inited = false) (hne : old ≠ s) :
    ((w.takenOver s old oldId).recorded (.reconnected s oldId)).Heirs := by
  refine World.Heirs.names (w := w.takenOver s old oldId) ?_ (World.names_recorded _ fun _ _ => Step.noConfusion)
  have hsess : ∀ t, t ≠ s → ((w.takenOver s old oldId).sess t).id = (w.sess t).id ∧
      ((w.takenOver s old oldId).sess t).flags.inited = (w.sess t).flags.inited := fun t hts => by
    by_cases hto : t = old
    · subst hto
      rw [World.takenOver_old hne]
      exact ⟨rfl, rfl⟩
    · rw [World.takenOver_other hts hto]
      exact ⟨rfl, rfl⟩
  have hhistory : (w.takenOver s old oldId).history = w.history ++ [(w.toCore, .initReconnect s old)] := rfl
  refine ⟨fun c t o hx hstart => ?_, fun c t o hx hreg => ?_⟩
  · rw [hhistory] at hx hstart
    rcases List.mem_append.1 hx with hx | hx
    · have hheir := h.heir c t o hx fun x hx => hstart x (List.mem_append_left _ hx)
      have hts : t ≠ s := fun hts => Bool.false_ne_true (hnew.symm.trans (hts ▸ hheir.inited))
      exact ⟨hheir.counted, (hsess t hts).2.trans hheir.inited, (hsess t hts).1.trans hheir.id, hheir.notices⟩
    · obtain ⟨rfl, hstep⟩ := Prod.ext_iff.1 (List.mem_singleton.1 hx)
      obtain ⟨rfl, rfl⟩ := Step.initReconnect.inj hstep
      refine ⟨hcount, ?_, ?_, fun n hn => ?_⟩
      · rw [World.takenOver_new hne]
        rfl
      · rw [World.takenOver_new hne]
        rfl
      · rw [show (w.takenOver t o oldId).sent = w.sent from rfl, List.drop_length] at hn
        exact absurd hn List.not_mem_nil
  · rw [hhistory] at hx
    rcases List.mem_append.1 hx with hx | hx
    · exact h.told c t o hx hreg
    · obtain ⟨rfl, hstep⟩ := Prod.ext_iff.1 (List.mem_singleton.1 hx)
      obtain ⟨rfl, rfl⟩ := Step.initReconnect.inj hstep
      exact hbound.told o hreg

theorem Path.heirs (h : Path e w w') (hsound : w.Sound) (hblank : w.Blank) (hopens : ∀ x ∈ w'.history, OpensUnbound x)
    (hbound : w.Bound) (hw : w.Heirs) : w'.Heirs := by
  induction h with
  | refl w => exact hw
  | trans h h' ih ih' =>
    have hopens₁ := fun x hx => hopens x (h'.later.history.subset hx)
    exact ih' (h.sound hsound) (h.blank hsound hblank) hopens (h.bound hsound hopens₁ hbound) (ih hsound hblank hopens₁ hbound hw)
  | shut h => exact hw.names h.names
  | @record w step hallow =>
    refine hw.names (w.names_recorded fun t old hstep => ?_)
    subst hstep
    exact hallow
  | object | done => exact hw.names (World.names_setSess _ rfl fun h => h)
  | current => exact hw.names (.same rfl rfl rfl rfl)
  | post =>
    refine hw.names (World.names_sends _ fun t ht i hi => ?_)
    obtain rfl := Option.some.inj ht
    simpa only [Notice.ids, List.mem_cons, List.not_mem_nil, or_false, or_self] using hi
  | start router => exact hw.startNew router
  | @announce w w₁ s len _ _ _ _ h =>
    have hnotice : w.Names w₁ := (w.names_noticed (fun _ _ _ => SsBody.noConfusion) len 0).trans h.shut.names
    have hset := hnotice.trans (World.names_setSess (s := s) (x := Session.setRegistered true _) _ rfl fun h => h)
    exact hw.names (hset.trans (.same rfl rfl rfl rfl))
  | @unheard w w₁ s len ret _ _ h =>
    exact hw.names ((w.names_noticed (fun _ _ _ => SsBody.noConfusion) len ret).trans h.names)
  | enroll => exact hw.names (.same rfl rfl rfl rfl)
  | @resume w s old oldId halive hinited hlook =>
    have hne : old ≠ s := fun hos => Bool.false_ne_true ((hsound.cached _ _ hlook).2.2.2.symm.trans (hos ▸ halive.1))
    exact hw.resumed hbound (hblank.counted halive.1) hinited hne

/-- **Resumed sessions** keep the id that they took over along a walk. -/
theorem Walk.heirs (h : Walk e P w w') (hsound : w.Sound) (hbalanced : w.Balanced) (hopens : ∀ x ∈ w'.history, OpensUnbound x)
    (hbound : w.Bound) (hw : w.Heirs) : w'.Heirs := by
  induction h with
  | refl w => exact hw
  | trans h h' ih ih' =>
    have hopens₁ := fun x hx => hopens x (h'.history.subset hx)
    exact ih' (h.sound hsound) (h.balanced hsound hbalanced) hopens (h.bound hsound hopens₁ hbound)
      (ih hsound hbalanced hopens₁ hbound hw)
  | path h => exact h.heirs hsound hbalanced.toBlank hopens hbound hw
  | accept seed fd peer w =>
    refine hw.names (.next (Nat.le_succ _) (fun t ht => ?_) (List.Subset.refl _) (fun _ _ _ hx => hx) rfl)
    rw [World.accepted_sess_ne ht.ne seed fd peer]
    exact ⟨rfl, fun h => h⟩
  | @listen w s due _ _ =>
    exact hw.names ((World.names_setSess (s := s) (x := Session.setReading true _) _ rfl fun h => h).trans (.same rfl rfl rfl rfl))
  | stream | router => exact hw.names (World.names_setSess _ rfl fun h => h)
  | @giveUp w w₁ s _ _ h _ =>
    have hrecord : w.Names (w.recorded (.allocRead s)) := w.names_recorded fun _ _ => Step.noConfusion
    have hlose := hrecord.trans (World.names_setSess (s := s) (x := Session.loseFd _) _ rfl fun h => h)
    exact hw.names ((hlose.trans h.names).trans (World.names_setSess _ rfl fun h => h))
  | answer => exact hw.names (World.names_sends _ fun t ht => absurd ht.symm (Option.some_ne_none t))
  | @expire w w₁ t _ _ _ h =>
    have hrecord : w.Names ((w.recorded (.expireReconnect t.2)).dropCached (w.sess t.2).id) :=
      (w.names_recorded fun _ _ => Step.noConfusion).trans (.same rfl rfl rfl rfl)
    have hexpired : w.Names (w.expired t.2) :=
      hrecord.trans (World.names_setSess (s := t.2) (x := Session.setWaiting false _) _ rfl fun h => h)
    exact hw.names ((hexpired.trans h.names).trans (.same rfl rfl rfl rfl))
  | tick | clearCache => exact hw.names ((World.names_recorded _ fun _ _ => Step.noConfusion).trans (.same rfl rfl rfl rfl))
  | reset => exact hw.names (World.names_recorded _ fun _ _ => Step.noConfusion)
  | _ => exact hw.names (.same rfl rfl rfl rfl)

theorem World.start_heirs (conf : GwConf) (now : ℤ) (current : Option CryptGlobal) : (World.start conf now current).Heirs :=
  ⟨fun _ _ _ hx => absurd hx List.not_mem_nil, fun _ _ _ hx => absurd hx List.not_mem_nil⟩

theorem World.Heirs.inherits (h : w.Heirs) : ∀ x ∈ w.history, w.Inherits x := by
  rintro ⟨c, step⟩ hx
  cases step with
  | initReconnect s old =>
    intro hreg hstart
    obtain ⟨m, hm, hadd, hid⟩ := h.told c s old hx hreg
    exact ⟨m, hm, hadd, fun n hn hsender i hi => ((h.heir c s old hx hstart).notices n hn hsender i hi).trans hid.symm⟩
  | _ => trivial

/-! ## Runs -/

/-- **Sessions keep the id** under which they are known, in every run that only starts and resumes sessions that nobody knows. -/
theorem run_keyed (e : GwEnv) (conf : GwConf) (now : ℤ) (current : Option CryptGlobal) (events : List GwEvent) {w : World}
    (hrun : exec (gwRun e events) (World.start conf now current) = (.ok (), w)) (hopens : ∀ x ∈ w.history, OpensUnbound x) :
    w.Keyed := by
  have hwalk := (wp_ok (run_went e conf now current events) hrun).walk
  have hstart := World.start_sound conf now current
  have hbound := World.start_bound conf now current
  have hw := hwalk.bound hstart hopens hbound
  have hheirs := hwalk.heirs hstart (World.start_balanced conf now current) hopens hbound (World.start_heirs conf now current)
  exact ⟨hw.actived, fun k s hk => ((hwalk.sound hstart).cached k s hk).2.2.1, hw.told, hw.notices, hheirs.inherits⟩

/-- a client starts a session, sends a message, is disconnected and comes back -/
def postAndComeBack : List GwEvent :=
  startOne ++ [.uvRead 0 (.ok (scriptFrame 1)), .cmdDisconnect 1 0, .acceptTcp 1 {} 0 0, .uvRead 1 (.ok (scriptFrame 2)),
    .uvRead 1 (.ok (scriptFrame 1))]

theorem run_keyed_comeBack : (exec (gwRun (scriptEnv [plainStartReq, plainPost, plainReconnectReq] 2) postAndComeBack)
    (World.start openConf 1500000000 none)).2.Keyed :=
  run_keyed _ openConf 1500000000 none postAndComeBack (exec_of_fst (by decide +kernel)) (by decide +kernel)

/-- a request to start that comes with a key update -/
def updateStartReq : CsMsg := handshakeMsg .EN_MTT_POST_KEY_SYN
  { sessionId := 0, step := .EN_HST_START_REQ, switchType := .EN_SST_DIRECT, cryptType := none, cryptParam := none }

/-- a session that is started twice is active under its first id and has the second one -/
theorem run_keyed_again : ¬ ∀ (e : GwEnv) (conf : GwConf) (now : ℤ) (current : Option CryptGlobal) (events : List GwEvent)
    (w : World), exec (gwRun e events) (World.start conf now current) = (.ok (), w) → w.Keyed := by
  intro h
  have hkeyed := h (scriptEnv [plainStartReq, updateStartReq] 2) openConf 1500000000 none (startOne ++ [.uvRead 0 (.ok (scriptFrame 1))]) _
    (exec_of_fst (by decide +kernel))
  exact absurd (hkeyed.actived 1 0 (by decide +kernel)) (by decide +kernel)

end AtFrame.Gateway
