/-
What a run of the gateway leads to, as a relation between worlds.

`Walk` adds to the paths of messages what libuv, the servers, the operator and the clock do between them: accepting, reading,
timers, a reset. `World.Sound` holds along every walk.

- `Walk.sound`: the invariant;
- `Expiring`, `Idling`: where the two loops of a tick stand;
- `event_timed`, `event_went`: every event leads along a walk, and what it does to the timers;
- `run_permitted`, `run_went`: every run does, with a permit or without one.
-/
import AtFrame.Gateway.Frames

namespace AtFrame.Gateway

open AtFrame.Lib

/-! ## Moves -/

/-- a session that was just accepted -/
def Session.accepted (e : GwEnv) (conf : GwConf) (seed : ℕ) (fd : Bool) (peer : Peer) : Session :=
  { Session.create conf.defaultRouter (Proto.fresh e.offset msgLimit 2 conf.sendBufferSize 0 seed) with
    flags := { hasFd := fd }, peer := peer }

def World.joined (x : Session) (w : World) : World := { w.setSess w.count x with count := w.count + 1 }

def World.accepted (e : GwEnv) (seed : ℕ) (fd : Bool) (peer : Peer) (w : World) : World :=
  w.joined (Session.accepted e w.conf seed fd peer)

def Session.setReading (b : Bool) (x : Session) : Session := { x with stream := { x.stream with reading := b } }

/-- the socket of a new session is read, and the session has to register in time -/
def World.listening (s : ℕ) (due : ℤ) (w : World) : World :=
  { w.modSess s (Session.setReading true) with firstIdle := w.firstIdle ++ [(due, s)] }

/-- a timer is due: the cache entry with the id of its session is erased -/
def World.expired (s : ℕ) (w : World) : World :=
  ((w.recorded (.expireReconnect s)).dropCached (w.sess s).id).modSess s (Session.setWaiting false)

/-- what is allowed on the way: to set the clock and the configuration, and to report an id as removed that is not active -/
structure Permit where
  sets : Prop
  revokes : Core → UInt64 → Prop

/-- the answers of the gateway itself to a server -/
def Permit.Answers (P : Permit) (w : Core) (id : UInt64) : SsBody → Prop
  | .removeSession _ => P.revokes w id
  | .setRouterRsp _ _ => True
  | _ => False

/-- what a run leads to -/
inductive Walk (e : GwEnv) (P : Permit) : World → World → Prop where
  | refl (w : World) : Walk e P w w
  | trans {w w₁ w₂ : World} : Walk e P w w₁ → Walk e P w₁ w₂ → Walk e P w w₂
  | path {w w' : World} : Path e w w' → Walk e P w w'
  | accept (seed : ℕ) (fd : Bool) (peer : Peer) (w : World) : Walk e P w (w.accepted e seed fd peer)
  | listen {w : World} {s : ℕ} (due : ℤ) : (w.sess s).flags.hasFd = true → s < w.count → Walk e P w (w.listening s due)
  /-- libuv stops reading, shuts the socket down or closes it -/
  | stream {w : World} {s : ℕ} {stream : UvStream} {closingFd : Bool} :
      (stream.reading = true → (w.sess s).stream.reading = true) → (closingFd = true → (w.sess s).flags.closingFd = true) →
      Walk e P w (w.setSess s { w.sess s with stream := stream, flags := { (w.sess s).flags with closingFd := closingFd } })
  /-- `on_alloc_read` has no buffer -/
  | giveUp {w w₁ : World} {s : ℕ} : (w.sess s).flags.hasFd = true → (w.sess s).flags.closingFd = false →
      Shut Set.univ ((w.recorded (.allocRead s)).modSess s Session.loseFd) w₁ → (w₁.sess s).proto.flags.closing = true →
      Walk e P w (w₁.modSess s Session.dropOwner)
  | router {w : World} {k : UInt64} {s : ℕ} (router : UInt64) : w.actived.lookup k = some s →
      Walk e P w (w.setSess s { w.sess s with router := router })
  | answer {w : World} {id : UInt64} {body : SsBody} (target : UInt64) (ret : ℤ) : P.Answers w.toCore id body →
      Walk e P w { w with sent := w.sent ++ [⟨none, id, target, body, ret⟩] }
  | clock (now : ℤ) (w : World) : P.sets → Walk e P w { w with now := now }
  | reload (conf : GwConf) (w : World) : P.sets → Walk e P w { w with conf := conf }
  | tick {w : World} : w.lastTickTime ≠ w.now → Walk e P w { w.recorded .tick with lastTickTime := w.now }
  /-- the first timer is due -/
  | expire {w w₁ : World} {t : ℤ × ℕ} {rest : List (ℤ × ℕ)} : w.reconnectTimeout = t :: rest → t.1 ≤ w.now →
      Shut Set.univ (w.expired t.2) w₁ → Walk e P w { w₁ with reconnectTimeout := w₁.reconnectTimeout.tail }
  | idle (w : World) : Walk e P w { w with firstIdle := w.firstIdle.tail }
  | reset (w : World) : Walk e P w (w.recorded .reset)
  | clearActived {w : World} : (∃ c, (c, .reset) ∈ w.history) → Walk e P w { w with actived := ∅ }
  | clearIdle {w : World} : (∃ c, (c, .reset) ∈ w.history) → Walk e P w { w with firstIdle := [] }
  | clearCache {w : World} : (∃ c, (c, .reset) ∈ w.history) →
      Walk e P w { w.recorded .cleared with reconnectCache := ∅ }
  | clearTimers {w : World} : (∃ c, (c, .reset) ∈ w.history) → Walk e P w { w with reconnectTimeout := [] }

variable {e : GwEnv} {P : Permit} {rec : Reentry} {w w' w₀ : World} {s : ℕ}

theorem Walk.history (h : Walk e P w w') : w.history <+: w'.history := by
  induction h with
  | trans _ _ ih ih' => exact ih.trans ih'
  | path h => exact h.later.history
  | giveUp _ _ h _ => exact (List.prefix_append _ _).trans h.older.history
  | tick | clearCache => exact List.prefix_append _ _
  | expire _ _ h => exact (List.prefix_append _ _).trans h.older.history
  | reset => exact List.prefix_append _ _
  | _ => exact List.prefix_refl _

/-! ## What holds at any time -/

theorem World.Sound.accepted (h : w.Sound) (seed : ℕ) (fd : Bool) (peer : Peer) : (w.accepted e seed fd peer).Sound := by
  have hne : ∀ {t}, t < w.count → (w.accepted e seed fd peer).sess t = w.sess t := fun ht =>
    World.setSess_sess_ne (ne_of_lt ht) _ w
  have hold : ∀ {t}, t < w.count → t < (w.accepted e seed fd peer).count := fun ht => Nat.lt_succ_of_lt ht
  refine ⟨fun t => ?_, fun t ht => ?_, fun k t hk => ?_, fun k t hk => ?_, fun t ht => ?_⟩
  · by_cases htc : t = w.count
    · have hnew : (w.accepted e seed fd peer).sess t = Session.accepted e w.conf seed fd peer := by
        rw [htc]
        exact World.setSess_sess ..
      rw [hnew]
      exact ⟨fun _ => ⟨rfl, rfl, rfl⟩, fun howner => absurd howner.symm Bool.false_ne_true,
        fun hread => absurd hread Bool.false_ne_true, fun hid => absurd rfl hid, fun hrec => absurd hrec Bool.false_ne_true⟩
    · have hsame : (w.accepted e seed fd peer).sess t = w.sess t := World.setSess_sess_ne htc _ w
      exact hsame ▸ h.sess t
  · by_cases htc : t = w.count
    · exact htc ▸ Nat.lt_succ_self _
    · have hsame : (w.accepted e seed fd peer).sess t = w.sess t := World.setSess_sess_ne htc _ w
      exact hold (h.counted t (hsame ▸ ht))
  · obtain ⟨h₁, h₂⟩ := h.actived k t hk
    exact ⟨hold h₁, hne h₁ ▸ h₂⟩
  · obtain ⟨h₁, h₂⟩ := h.cached k t hk
    exact ⟨hold h₁, hne h₁ ▸ h₂⟩
  · obtain ⟨h₁, h₂⟩ := h.timers t ht
    exact ⟨hold h₁, hne h₁ ▸ h₂⟩

/-- a change of one session from outside -/
theorem World.Sound.same {x : Session} (h : w.Sound) (hx : x.Sound) (hid : x.id = (w.sess s).id)
    (hinited : x.flags.inited = (w.sess s).flags.inited) (hfd : x.flags.hasFd = (w.sess s).flags.hasFd)
    (hproto : x.proto = (w.sess s).proto) (hread : x.stream.reading = true → s < w.count) : (w.setSess s x).Sound := by
  have hsess : ∀ t, ((w.setSess s x).sess t).id = (w.sess t).id ∧ ((w.setSess s x).sess t).flags.inited = (w.sess t).flags.inited ∧
      ((w.setSess s x).sess t).flags.hasFd = (w.sess t).flags.hasFd ∧ ((w.setSess s x).sess t).proto = (w.sess t).proto := by
    intro t
    by_cases hts : t = s
    · subst hts
      rw [World.setSess_sess]
      exact ⟨hid, hinited, hfd, hproto⟩
    · rw [World.setSess_sess_ne hts]
      exact ⟨rfl, rfl, rfl, rfl⟩
  refine ⟨fun t => ?_, fun t ht => ?_, fun k t hk => ?_, fun k t hk => ?_, fun t ht => ?_⟩
  · by_cases hts : t = s
    · subst hts
      rwa [World.setSess_sess]
    · rw [World.setSess_sess_ne hts]
      exact h.sess t
  · by_cases hts : t = s
    · subst hts
      rw [World.setSess_sess] at ht
      exact hread ht
    · rw [World.setSess_sess_ne hts] at ht
      exact h.counted t ht
  · obtain ⟨h₁, h₂, h₃⟩ := hsess t
    rw [h₁, h₂, h₃.2]
    exact h.actived k t hk
  · obtain ⟨h₁, h₂, h₃⟩ := hsess t
    rw [h₁, h₃.1, h₃.2]
    exact h.cached k t hk
  · rw [(hsess t.2).2.2.1]
    exact h.timers t ht

theorem World.Sound.giveUp {w₁ : World} (h : w.Sound) (hfd : (w.sess s).flags.hasFd = true)
    (hs : Shut Set.univ ((w.recorded (.allocRead s)).modSess s Session.loseFd) w₁) (hproto : (w₁.sess s).proto.flags.closing = true) :
    (w₁.modSess s Session.dropOwner).Sound := by
  have hlost : (((w.recorded (.allocRead s)).modSess s Session.loseFd).sess s).flags.hasFd = false := by
    rw [World.modSess_sess]
    rfl
  have hkept : ∀ t, (w.sess t).Kept (w₁.sess t) := fun t =>
    (World.kept_modSess Session.kept_loseFd (w.recorded (.allocRead s)) s t).trans (hs.kept t)
  refine h.settled (S := Set.univ) (fun t => (hkept t).trans (World.kept_modSess Session.kept_dropOwner _ _ t)) ?_ ?_ ?_
  · exact socket_closed (f := Session.loseFd) (fun _ => rfl) hfd (fun _ hne => World.modSess_sess_ne hne) World.modSess_sess hs.socket hproto
  · have holder : w.Older Set.univ ((w.recorded (.allocRead s)).modSess s Session.loseFd) :=
      (w.older_recorded (.allocRead s)).trans (World.older_setSess _ _ _) fun _ => rfl
    refine ((holder.trans hs.older fun t => ?_).trans (World.older_setSess _ _ _) fun t => (hkept t).id)
    exact (World.kept_modSess Session.kept_loseFd (w.recorded (.allocRead s)) s t).id
  · exact (hs.steady ((h.steady.recorded _).modSess (.lost rfl))).modSess (f := Session.dropOwner) (.lost (hs.lost hlost))

theorem World.Sound.expired (h : w.Sound) (s : ℕ) : (w.expired s).Sound := by
  have hs := h.sess s
  have hdrop := (h.recorded (.expireReconnect s)).dropCached (w.sess s).id
  refine hdrop.same (s := s) (x := Session.setWaiting false _) ⟨hs.socket, hs.lost, hs.reading, hs.named, hs.gone⟩ rfl rfl rfl rfl ?_
  exact h.counted s

/-- **The invariant** holds along every walk. -/
theorem Walk.sound (h : Walk e P w w') (hw : w.Sound) : w'.Sound := by
  induction h with
  | refl w => exact hw
  | trans _ _ ih ih' => exact ih' (ih hw)
  | path h => exact h.sound hw
  | accept => exact hw.accepted _ _ _
  | @listen w s due hfd hcount =>
    have hs := hw.sess s
    have hset : (w.modSess s (Session.setReading true)).Sound :=
      hw.same (s := s) ⟨hs.socket, hs.lost, fun _ _ => hfd, hs.named, hs.gone⟩ rfl rfl rfl rfl fun _ => hcount
    exact ⟨hset.sess, hset.counted, hset.actived, hset.cached, hset.timers⟩
  | @stream w s stream closingFd hread hclosing =>
    have hs := hw.sess s
    refine hw.same ⟨fun hfd => ⟨(hs.socket hfd).1, (hs.socket hfd).2.1, ?_⟩, hs.lost, fun h => hs.reading (hread h), hs.named, hs.gone⟩
      rfl rfl rfl rfl fun h => hw.counted s (hread h)
    exact Bool.eq_false_iff.2 fun hc => Bool.false_ne_true ((hs.socket hfd).2.2.symm.trans (hclosing hc))
  | giveUp hfd _ h hproto => exact hw.giveUp hfd h hproto
  | @router w k s router _ =>
    have hs := hw.sess s
    exact hw.same ⟨hs.socket, hs.lost, hs.reading, hs.named, hs.gone⟩ rfl rfl rfl rfl (hw.counted s)
  | answer | clock | reload | tick | idle | reset | clearIdle => exact ⟨hw.sess, hw.counted, hw.actived, hw.cached, hw.timers⟩
  | expire _ _ h =>
    have h₁ := h.sound (hw.expired _)
    exact ⟨h₁.sess, h₁.counted, h₁.actived, h₁.cached, fun t ht => h₁.timers t (List.mem_of_mem_tail ht)⟩
  | clearActived => exact ⟨hw.sess, hw.counted, fun k s hk => SessionMap.empty_elim hk, hw.cached, hw.timers⟩
  | clearCache => exact ⟨hw.sess, hw.counted, hw.actived, fun k s hk => SessionMap.empty_elim hk, hw.timers⟩
  | clearTimers => exact ⟨hw.sess, hw.counted, hw.actived, hw.cached, fun t ht => absurd ht List.not_mem_nil⟩

/-! ## Events -/

/-- what an event leads to -/
structure Went (e : GwEnv) (P : Permit) (w₀ w : World) : Prop where
  walk : Walk e P w₀ w
  known : w.Known

theorem Went.next (h : Went e P w₀ w) (hw : Walk e P w w') (hknown : w'.Known) : Went e P w₀ w' := ⟨h.walk.trans hw, hknown⟩

theorem Went.trans {w₁ w₂ : World} (h : Went e P w₀ w₁) (h' : Went e P w₁ w₂) : Went e P w₀ w₂ := ⟨h.walk.trans h'.walk, h'.known⟩

/-- the same where nobody is accepted: `first_idle_` only loses its first entries, and whoever is in the cache has a timer -/
structure WentOn (e : GwEnv) (P : Permit) (w₀ w : World) : Prop extends Went e P w₀ w where
  idle : w.firstIdle <:+ w₀.firstIdle
  waits : w₀.Waits → w.Waits

theorem WentOn.refl (hknown : w.Known) : WentOn e P w w := ⟨⟨.refl w, hknown⟩, List.suffix_refl _, fun h => h⟩

theorem WentOn.trans {w₁ w₂ : World} (h : WentOn e P w₀ w₁) (h' : WentOn e P w₁ w₂) : WentOn e P w₀ w₂ :=
  ⟨h.toWent.trans h'.toWent, h'.idle.trans h.idle, fun hw => h'.waits (h.waits hw)⟩

/-- a move that leaves the lists and the cache -/
theorem WentOn.next (h : WentOn e P w₀ w) (hw : Walk e P w w') (hknown : w'.Known) (hidle : w'.firstIdle = w.firstIdle)
    (hcache : w'.reconnectCache = w.reconnectCache) (htimers : w'.reconnectTimeout = w.reconnectTimeout) : WentOn e P w₀ w' := by
  refine ⟨h.toWent.next hw hknown, hidle ▸ h.idle, fun hwaits => ?_⟩
  rw [Core.Waits, hcache, htimers]
  exact h.waits hwaits

/-- a change of one session from outside -/
theorem Core.Known.setSess (h : w.Known) {x : Session} (hreg : x.flags.registered = (w.sess s).flags.registered)
    (hproto : x.proto = (w.sess s).proto) : (w.setSess s x).Known := by
  intro t ht
  by_cases hts : t = s
  · subst hts
    rw [World.setSess_sess] at ht ⊢
    rw [hproto]
    exact h t (hreg.symm.trans ht)
  · rw [World.setSess_sess_ne hts] at ht ⊢
    exact h t ht

theorem WentOn.shut (h : WentOn e P w₀ w) (hs : Shut Set.univ w w') : WentOn e P w₀ w' :=
  h.trans ⟨⟨.path (.shut hs), h.known.kept hs.kept⟩, hs.older.firstIdle ▸ List.suffix_refl _, hs.waits⟩

theorem WentOn.serving (h : WentOn e P w₀ w) (hs : Serving e w w') : WentOn e P w₀ w' :=
  h.trans ⟨⟨.path hs.path, hs.known⟩, hs.path.later.firstIdle ▸ List.suffix_refl _, hs.path.waits⟩

/-- libuv stops reading, shuts the socket down or closes it -/
theorem WentOn.stream (h : WentOn e P w₀ w) (stream : UvStream) (closingFd : Bool)
    (hread : stream.reading = true → (w.sess s).stream.reading = true)
    (hclosing : closingFd = true → (w.sess s).flags.closingFd = true) :
    WentOn e P w₀ (w.setSess s { w.sess s with stream := stream, flags := { (w.sess s).flags with closingFd := closingFd } }) :=
  h.next (.stream hread hclosing) (h.known.setSess rfl rfl) rfl rfl rfl

theorem WentOn.recorded (h : WentOn e P w₀ w) (step : Step) (hallow : w.Allows e step) : WentOn e P w₀ (w.recorded step) :=
  h.next (.path (.record hallow)) h.known rfl rfl rfl

theorem managerClose_went (hok : ReentryOk rec) (h : WentOn e P w₀ w) (id : UInt64) (reason : ℤ) (allow : Bool) :
    wp (managerClose e rec id reason allow) (fun _ w' => WentOn e P w₀ w') Faulty w :=
  wp_post (managerClose_shut hok (.univ h.known) id (fun _ _ => trivial) reason allow) fun _ _ h' => h.shut h'.1

theorem sessionClose_went (hok : ReentryOk rec) (h : WentOn e P w₀ w) (hcause : w.Cause s) (reason : ℤ) :
    wp (sessionClose e rec s reason) (fun _ w' => WentOn e P w₀ w') Faulty w :=
  wp_post (sessionClose_shut hok (Set.mem_univ s) (.univ h.known) hcause reason) fun _ _ h' => h.shut h'.1

theorem World.mem_recorded (w : World) (step : Step) : (w.toCore, step) ∈ (w.recorded step).history :=
  List.mem_append_right _ (List.mem_singleton_self _)

/-! ### Accepting -/

theorem World.joined_sess (x : Session) : (w.joined x).sess w.count = x := World.setSess_sess ..

theorem World.joined_setSess (x y : Session) : (w.joined x).setSess w.count y = w.joined y := by
  unfold World.joined World.setSess
  simp only [Function.update_idem]

theorem World.accepted_sess_ne {t : ℕ} (h : t ≠ w.count) (seed : ℕ) (fd : Bool) (peer : Peer) :
    (w.accepted e seed fd peer).sess t = w.sess t := World.setSess_sess_ne h _ w

theorem acceptSocket_wp {E : Fault → World → Prop} (seed : ℕ) (peer : Peer) (initRes acceptRes : ℤ) :
    wp (acceptSocket w.count peer initRes acceptRes) (fun res w' => ∃ fd peer', w' = w.accepted e seed fd peer' ∧
      (res = 0 → fd = true ∧ initRes = 0 ∧ acceptRes = 0)) E (w.accepted e seed false {}) := by
  unfold acceptSocket World.accepted
  simp only [wp_ite, wp_bind, wp_modifySess, wp_pure, World.joined_sess, World.joined_setSess]
  refine ⟨fun _ => ⟨false, {}, rfl, fun h0 => absurd h0 (by decide)⟩, fun hinit => ⟨fun _ => ?_, fun haccept => ?_⟩⟩
  · exact ⟨true, {}, rfl, fun h0 => absurd h0 (by decide)⟩
  · exact ⟨true, peer, rfl, fun _ => ⟨rfl, not_not.1 hinit, not_not.1 haccept⟩⟩

theorem WentOn.accepted (h : WentOn e P w₀ w) (seed : ℕ) (fd : Bool) (peer : Peer) :
    WentOn e P w₀ (w.accepted e seed fd peer) := by
  refine h.next (.accept seed fd peer w) (fun t ht => ?_) rfl rfl rfl
  by_cases htc : t = w.count
  · subst htc
    rw [World.accepted, World.joined_sess] at ht
    exact nomatch ht
  · rw [World.accepted_sess_ne htc] at ht ⊢
    exact h.known t ht

/-- when a session that is accepted now has to be registered -/
def Core.idleDue (w : Core) : ℤ := w.now + if 0 < w.conf.firstIdleTimeout then w.conf.firstIdleTimeout else 1

/-- one session is accepted -/
structure Listened (e : GwEnv) (P : Permit) (w w' : World) : Prop extends Went e P w w' where
  idle : w'.firstIdle = w.firstIdle ++ [(w.idleDue, w.count)]
  waits : w.Waits → w'.Waits

theorem acceptTcp_went (hok : ReentryOk rec) (hknown : w.Known) (seed : ℕ) (peer : Peer) (initRes acceptRes : ℤ) :
    wp (acceptTcp e rec seed peer initRes acceptRes) (fun _ w' => WentOn e P w w' ∨
      (initRes = 0 ∧ acceptRes = 0 ∧ w.full = false) ∧ Listened e P w w') Faulty w := by
  have hcreate : wp (createSession e seed) (fun s w' => s = w.count ∧ w' = w.accepted e seed false {}) Faulty w := ⟨rfl, rfl⟩
  unfold acceptTcp acceptSession
  rw [wp_bind]
  refine wp_post hcreate fun s w₁ ⟨hs, hw₁⟩ => ?_
  subst hs hw₁
  rw [wp_bind]
  refine wp_post (acceptSocket_wp seed peer initRes acceptRes) fun res w₂ ⟨fd, peer', hw₂, hfd⟩ => ?_
  have hw : WentOn e P w w₂ := hw₂ ▸ (WentOn.refl hknown).accepted seed fd peer'
  rw [wp_bind, wp_get]
  simp only [wp_ite, wp_bind, wp_pure]
  refine ⟨fun _ => ?_, fun hgo => .inr ?_⟩
  · rw [wp_record]
    refine wp_post (sessionClose_went hok (hw.recorded (.refuse w.count) trivial) ?_ _) fun _ _ h => .inl h
    exact .inl ⟨_, World.mem_recorded _ (.refuse w.count), rfl⟩
  · obtain ⟨hres, hfull⟩ := not_or.1 hgo
    obtain ⟨rfl, hinit, haccept⟩ := hfd (not_not.1 hres)
    subst hw₂
    have hlisten : ((w.accepted e seed true peer').sess w.count).flags.hasFd = true := by
      rw [World.accepted, World.joined_sess]
      rfl
    refine ⟨⟨hinit, haccept, Bool.eq_false_iff.2 hfull⟩, ?_⟩
    refine ⟨hw.toWent.next (.listen (w.accepted e seed true peer').idleDue hlisten (Nat.lt_succ_self _)) ?_, rfl, hw.waits⟩
    exact hw.known.setSess (x := Session.setReading true _) rfl rfl

/-! ### Reading and writing -/

theorem allocRead_went (hok : ReentryOk rec) (hknown : w.Known) :
    wp (allocRead e rec s) (fun _ w' => WentOn e P w w' ∧ (w'.sess s).stream.reading = (w.sess s).stream.reading) Faulty w := by
  have hrecord : WentOn e P w (w.recorded (.allocRead s)) := WentOn.recorded (.refl hknown) (.allocRead s) trivial
  unfold allocRead
  rw [wp_bind, wp_record, wp_bind, wp_getSess]
  split
  · exact faulty_of_ne (by decide)
  · rw [wp_bind]
    refine closeFd_wp hok (Set.mem_univ s) (.univ hrecord.known) _ (fun _ => ⟨hrecord, rfl⟩) fun hfd hclosing w₁ h₁ hproto => ?_
    have hsess : ((w.recorded (.allocRead s)).modSess s Session.loseFd).sess s = (w.sess s).loseFd := World.modSess_sess
    have hkept := (World.kept_modSess Session.kept_dropOwner w₁ s)
    have hgone : WentOn e P w (w₁.modSess s Session.dropOwner) := by
      refine ⟨⟨.giveUp hfd hclosing h₁ hproto, Core.Known.kept (w := w) hknown fun t => ?_⟩, ?_, h₁.waits⟩
      · exact ((World.kept_modSess Session.kept_loseFd (w.recorded (.allocRead s)) s t).trans (h₁.kept t)).trans (hkept t)
      · exact h₁.older.firstIdle ▸ List.suffix_refl w.firstIdle
    refine ⟨hgone.shut (.light (Set.mem_univ s) (Session.light_shutdownIfClosed _)), ?_⟩
    rw [World.modSess_sess, (Session.light_shutdownIfClosed _).reading, World.modSess_sess]
    show (w₁.sess s).stream.reading = _
    rw [(h₁.kept s).reading, hsess]
    rfl
  · exact ⟨hrecord, rfl⟩

theorem onRead_went (hok : SessionOk e rec) (hsound : w.Sound) (hknown : w.Known) (hread : (w.sess s).stream.reading = true)
    (chunk : Bytes) : wp (onRead e rec s chunk) (fun _ w' => WentOn e P w w') Faulty w := by
  unfold onRead
  simp only [wp_bind, wp_getSess, wp_modifySess]
  generalize Framing.read e.ext.hash (w.sess s).proto.flags.closing (w.sess s).proto.reader chunk = r
  have hlight : (w.sess s).Light { w.sess s with proto := { (w.sess s).proto with reader := r.reader } } := Session.light_proto rfl rfl
  have hset : Shut Set.univ w (w.setSess s { w.sess s with proto := { (w.sess s).proto with reader := r.reader } }) :=
    .light (Set.mem_univ s) hlight
  have hframe : ∀ c : Bytes × ℤ, Keeps (fun w' => WentOn e P w w' ∧ (w'.sess s).stream.reading = true) Faulty (frame e rec s c.1 c.2) := by
    intro c w₁ ⟨h₁, hread₁⟩
    refine wp_post (frame_path hok (h₁.walk.sound hsound) h₁.known hread₁ c.1 c.2) fun _ w₂ h₂ => ⟨h₁.serving h₂, ?_⟩
    exact (h₂.path.later.sess s).reading.trans hread₁
  refine wp_post (keeps_forM hframe r.calls _ ⟨WentOn.shut (.refl hknown) hset, (hset.kept s).reading.trans hread⟩) fun _ w₁ ⟨h₁, _⟩ => ?_
  simp only [wp_ite, wp_bind, wp_pure]
  refine ⟨fun _ => ?_, fun _ => h₁⟩
  rw [wp_record]
  exact sessionClose_went hok.toReentryOk (h₁.recorded (.readError s) trivial) (.inl ⟨_, World.mem_recorded _ (.readError s), rfl⟩) _

theorem onReadData_went (hok : SessionOk e rec) (hsound : w.Sound) (hknown : w.Known) (data : ReadData)
    (hread : ∀ chunk, data = .ok chunk → (w.sess s).stream.reading = true) :
    wp (onReadData e rec s data) (fun _ w' => WentOn e P w w') Faulty w := by
  have hself : WentOn e P w w := .refl hknown
  unfold onReadData
  simp only [wp_bind, wp_getSess, wp_ite, wp_pure]
  refine ⟨fun _ => hself, fun _ => ⟨fun _ => hself, fun _ => ?_⟩⟩
  cases data with
  | error nread =>
    simp only [wp_ite, wp_bind, wp_pure]
    exact ⟨fun _ => hself, fun _ => managerClose_went hok.toReentryOk hself _ _ _⟩
  | ok chunk => exact onRead_went hok hsound hknown (hread chunk rfl) chunk

theorem uvRead_went (hok : SessionOk e rec) (hsound : w.Sound) (hknown : w.Known) (data : ReadData) :
    wp (uvRead e rec s data) (fun _ w' => WentOn e P w w') Faulty w := by
  unfold uvRead
  simp only [wp_bind, wp_getSess, wp_ite, wp_pure, Bool.not_eq_true]
  refine ⟨fun _ => .refl hknown, fun hread => ?_⟩
  rw [Bool.not_eq_false] at hread
  refine wp_post (allocRead_went (P := P) hok.toReentryOk hknown) fun n w₁ ⟨h₁, hread₁⟩ => ?_
  have hdata : ∀ data w₂, WentOn e P w w₂ → (∀ chunk, data = .ok chunk → (w₂.sess s).stream.reading = true) →
      wp (onReadData e rec s data) (fun _ w' => WentOn e P w w') Faulty w₂ := fun data w₂ h₂ hread₂ =>
    wp_post (onReadData_went hok (h₂.walk.sound hsound) h₂.known data hread₂) fun _ _ h => h₂.trans h
  refine ⟨fun _ => hdata _ w₁ h₁ fun _ h => (nomatch h), fun _ => ?_⟩
  cases data with
  | error nread =>
    simp only [wp_bind, wp_ite, wp_modifySess, wp_pure]
    refine ⟨fun _ => hdata _ _ ?_ fun _ h => (nomatch h), fun _ => hdata _ w₁ h₁ fun _ h => (nomatch h)⟩
    exact h₁.stream { (w₁.sess s).stream with reading := false } _ (fun h => (nomatch h)) fun h => h
  | ok bytes =>
    refine hdata _ w₁ h₁ fun _ _ => ?_
    exact hread₁.trans hread

theorem uvWritten_went (hok : ReentryOk rec) (hknown : w.Known) (status : ℤ) :
    wp (uvWritten e rec s status) (fun _ w' => WentOn e P w w') Faulty w := by
  have hself : WentOn e P w w := .refl hknown
  unfold uvWritten
  simp only [wp_bind, wp_getSess, wp_ite, wp_pure, wp_modifySess]
  refine ⟨fun _ => hself, fun _ => ?_⟩
  have hflag : Shut Set.univ w (w.setSess s ((w.sess s).setFlags { (w.sess s).flags with writingFd := false })) :=
    .light (Set.mem_univ s) (Session.light_writingFd _ _)
  refine wp_post ((gwHost_writes (e := e) hok (Set.mem_univ s) (.univ hknown)).writeDone _ status hflag) fun _ w₁ h₁ => ?_
  refine (hself.shut h₁).shut (.light (Set.mem_univ s) ?_)
  split_ifs
  · exact Session.light_shutdownIfClosed _
  · exact ⟨rfl, rfl, rfl, rfl, rfl, rfl, rfl, rfl, rfl, rfl⟩

theorem uvShutdown_went (hknown : w.Known) : wp (uvShutdown s) (fun _ w' => WentOn e P w w') Faulty w := by
  unfold uvShutdown
  rw [wp_modifySess]
  split_ifs
  · exact WentOn.stream (.refl hknown) { closing := true } _ (fun h => (nomatch h)) fun h => h
  · rw [World.setSess_self]
    exact .refl hknown

theorem uvClosed_went (hknown : w.Known) : wp (uvClosed s) (fun _ w' => WentOn e P w w') Faulty w := by
  unfold uvClosed
  rw [wp_modifySess]
  split_ifs
  · exact WentOn.stream (.refl hknown) {} false (fun h => (nomatch h)) fun h => (nomatch h)
  · rw [World.setSess_self]
    exact .refl hknown

/-! ### Messages from servers -/

theorem sendToClient_went (hok : ReentryOk rec) (hknown : w.Known) (hdone : (w.sess s).proto.flags.handshakeDone = true)
    (content : Bytes) : wp (sendToClient e rec s content) (fun _ w' => WentOn e P w w') Faulty w := by
  have hself : WentOn e P w w := .refl hknown
  unfold sendToClient
  simp only [wp_bind, wp_getSess, wp_ite, wp_pure, wp_modifySess]
  refine ⟨fun _ => hself, fun _ => ⟨fun _ => hself, fun _ => ?_⟩⟩
  have hlimit : Shut Set.univ w (w.setSess s ((w.sess s).setLimit ((w.sess s).limit.addSend content.length))) :=
    .light (Set.mem_univ s) (Session.light_setLimit rfl)
  have hready : w.Ready Set.univ := .univ hknown
  refine wp_post ((gwHost_writes (e := e) hok (Set.mem_univ s) hready).calm.sendPost _ content _ hlimit) fun ret w₁ h₁ => ?_
  exact wp_post (checkLimits_checks hok (Set.mem_univ s) (h₁.ready hready) ((h₁.kept s).done.trans hdone)) fun _ w₂ h₂ =>
    (hself.shut h₁).shut h₂.shut

theorem pushData_went (hok : ReentryOk rec) (hsound : w.Sound) (hknown : w.Known) (id : UInt64) (content : Bytes) :
    wp (pushData e rec id content) (fun _ w' => WentOn e P w w') Faulty w := by
  unfold pushData
  rw [wp_bind, wp_get]
  cases hlook : w.actived.lookup id with
  | none => exact .refl hknown
  | some s => exact sendToClient_went hok hknown (hsound.actived id s hlook).2.1 content

theorem postData_went (hknown : w.Known) (target : UInt64) {id : UInt64} {body : SsBody} (hP : P.Answers w.toCore id body) :
    wp (postData e none target id body) (fun _ w' => WentOn e P w w') Faulty w := by
  unfold postData
  cases e.serialize id body with
  | none => exact .refl hknown
  | some _ =>
    unfold sendData
    simp only [wp_bind, wp_get, wp_modify, wp_pure]
    exact WentOn.next (.refl hknown) (.answer target _ hP) hknown rfl rfl rfl

/-- a loop over a map keeps what its body keeps -/
theorem overMap_keeps {β : Type} {map : World → SessionMap} {f : β → ℕ → Prog Fault World β} {I : World → Prop}
    {E : Fault → World → Prop} (hf : ∀ b k s w, I w → (map w).lookup k = some s → wp (f b s) (fun _ => I) E w)
    (hbad : ∀ w, I w → E .badIterator w) (b : β) : Keeps I E (overMap map b f) := by
  intro w hw
  unfold overMap
  rw [wp_bind, wp_get]
  generalize (map w).entries = entries
  induction entries generalizing b w with
  | nil => exact hw
  | cons entry entries ih =>
    rw [List.foldlM_cons, wp_bind, wp_bind, wp_get]
    simp only [wp_ite, wp_pure]
    refine ⟨fun hlook => ?_, fun _ => ih b w hw⟩
    rw [wp_bind]
    refine wp_post (hf b _ _ w hw hlook) fun b' w' hw' => ?_
    rw [wp_bind, wp_get]
    simp only [wp_ite, wp_pure, wp_throw]
    exact ⟨fun _ => ih b' w' hw', fun _ => hbad w' hw'⟩

theorem broadcastData_went (hok : ReentryOk rec) (hsound : w.Sound) (hknown : w.Known) (content : Bytes) :
    wp (broadcastData e rec content) (fun _ w' => WentOn e P w w') Faulty w := by
  refine overMap_keeps (I := WentOn e P w) (fun ret k s w₁ h₁ hlook => ?_) (fun _ _ => faulty_of_ne (by decide)) _ w (.refl hknown)
  simp only [wp_bind, wp_getSess, wp_ite, wp_pure]
  refine ⟨fun _ => ?_, fun _ => h₁⟩
  refine wp_post (sendToClient_went hok h₁.known ((h₁.walk.sound hsound).actived k s hlook).2.1 content) fun _ _ h₂ => h₁.trans h₂

theorem serverPost_went (hok : ReentryOk rec) (hsound : w.Sound) (hknown : w.Known) (source id : UInt64) (ids : List UInt64)
    (content : Bytes) (hP : id ≠ 0 → ids = [] → ∀ w₁, exec (pushData e rec id content) w = (.ok EN_ECT_SESSION_NOT_FOUND, w₁) →
      P.revokes w₁.toCore id) : wp (serverPost e rec source id ids content) (fun _ w' => WentOn e P w w') Faulty w := by
  unfold serverPost
  simp only [wp_ite, wp_bind, wp_pure]
  refine ⟨fun hone => ?_, fun _ => ⟨fun _ => broadcastData_went hok hsound hknown content, fun _ => ?_⟩⟩
  · refine wp_post (wp_exec (pushData_went hok hsound hknown id content)) fun ret w₁ ⟨h₁, hrun⟩ => ⟨fun hmiss => ?_, fun _ => h₁⟩
    exact wp_post (postData_went h₁.known _ (hP hone.1 hone.2 w₁ (hmiss ▸ hrun))) fun _ _ h₂ => h₁.trans h₂
  · refine keeps_forM (I := WentOn e P w) (fun id w₁ h₁ => ?_) ids w (.refl hknown)
    simp only [wp_bind, wp_pure]
    exact wp_post (pushData_went hok (h₁.walk.sound hsound) h₁.known id content) fun _ _ h₂ => h₁.trans h₂

theorem serverSetRouter_went (hknown : w.Known) (source id router : UInt64) :
    wp (serverSetRouter e source id router) (fun _ w' => WentOn e P w w') Faulty w := by
  have hpost : ∀ (res : ℤ) w₁, WentOn e P w w₁ →
      wp (postData e none source id (.setRouterRsp router res)) (fun _ w' => WentOn e P w w') Faulty w₁ := fun _ w₁ h₁ =>
    wp_post (postData_went h₁.known _ trivial) fun _ _ h₂ => h₁.trans h₂
  unfold serverSetRouter setSessionRouter
  simp only [wp_bind, wp_get, wp_pure]
  cases hlook : w.actived.lookup id with
  | none => exact hpost _ w (.refl hknown)
  | some s =>
    simp only [wp_bind, wp_modifySess, wp_pure]
    exact hpost _ _ (WentOn.next (.refl hknown) (.router router hlook) (hknown.setSess rfl rfl) rfl rfl rfl)

/-! ### Timers and the operator -/

/-- a round of the loop over `reconnect_timeout_` -/
def World.Expires (s : ℕ) (w w' : World) : Prop :=
  ∃ w₁, Shut Set.univ (w.expired s) w₁ ∧ w' = { w₁ with reconnectTimeout := w₁.reconnectTimeout.tail }

/-- a round of the loop over `first_idle_` -/
def World.Idles (s : ℕ) (w w' : World) : Prop :=
  ∃ w₁, (w₁ = w ∨ Shut Set.univ (w.recorded (.expireIdle s)) w₁) ∧ w' = { w₁ with firstIdle := w₁.firstIdle.tail }

/-- the start of a `tick` in a new second -/
def World.ticked (w : World) : World := { w.recorded .tick with lastTickTime := w.now }

/-- a `tick` in a new second -/
def World.Ticks (w w' : World) : Prop :=
  ∃ w₁, Rounds (fun t => World.Expires t.2) (w.reconnectTimeout.takeWhile (·.1 ≤ w.now)) w.ticked w₁ ∧
    Rounds (fun t => World.Idles t.2) (w₁.firstIdle.takeWhile (·.1 ≤ w₁.now)) w₁ w'

theorem World.expired_known (hknown : w.Known) (s : ℕ) : (w.expired s).Known :=
  Core.Known.setSess (w := (w.recorded (.expireReconnect s)).dropCached (w.sess s).id) hknown rfl rfl

theorem World.Expires.known (h : w.Expires s w') (hknown : w.Known) : w'.Known := by
  obtain ⟨w₁, h₁, rfl⟩ := h
  exact (World.expired_known hknown s).kept h₁.kept

theorem World.Idles.known (h : w.Idles s w') (hknown : w.Known) : w'.Known := by
  obtain ⟨w₁, rfl | h₁, rfl⟩ := h
  · exact hknown
  · exact Core.Known.kept (w := w.recorded (.expireIdle s)) hknown h₁.kept

theorem expireReconnect_wp (hok : ReentryOk rec) (hknown : w.Known) :
    wp (expireReconnect e rec s) (fun _ w' => w.Expires s w') Faulty w := by
  have hcause : (w.expired s).Cause s := .inl ⟨_, w.mem_recorded (.expireReconnect s), rfl⟩
  unfold expireReconnect
  rw [wp_bind, wp_record]
  simp only [wp_bind, wp_modify, wp_modifySess]
  refine wp_post (closeWithManager_shut hok (Set.mem_univ s) (.univ (World.expired_known hknown s)) hcause _ true) ?_
  exact fun _ w₁ h₁ => ⟨w₁, h₁.1, rfl⟩

theorem expireIdle_wp (hok : ReentryOk rec) (hknown : w.Known) :
    wp (expireIdle e rec s) (fun _ w' => w.Idles s w') Faulty w := by
  unfold expireIdle
  simp only [wp_bind, wp_getSess, wp_ite, wp_pure, wp_modify]
  refine ⟨fun _ => ?_, fun _ => ⟨w, .inl rfl, rfl⟩⟩
  rw [wp_record]
  have hknown' : (w.recorded (.expireIdle s)).Known := hknown
  have hcause : (w.recorded (.expireIdle s)).Cause s := .inl ⟨_, w.mem_recorded (.expireIdle s), rfl⟩
  exact wp_post (sessionClose_shut hok (Set.mem_univ s) (.univ hknown') hcause _) fun _ w₁ h₁ => ⟨w₁, .inr h₁.1, rfl⟩

theorem tick_wp (hok : ReentryOk rec) (hknown : w.Known) : wp (tick e rec) (fun _ w' =>
    w.lastTickTime = w.now ∧ w' = w ∨ w.lastTickTime ≠ w.now ∧ w.Ticks w') Faulty w := by
  unfold tick
  rw [wp_bind, wp_get, wp_ite]
  refine ⟨fun hsame => .inl ⟨hsame, rfl⟩, fun hsecond => ?_⟩
  rw [wp_bind, wp_record, wp_bind, wp_modify, wp_bind]
  have hexpires : wp ((w.reconnectTimeout.takeWhile (·.1 ≤ w.now)).forM fun t => expireReconnect e rec t.2)
      (fun _ => Rounds (fun t => World.Expires t.2) (w.reconnectTimeout.takeWhile (·.1 ≤ w.now)) w.ticked) Faulty w.ticked :=
    wp_forM_rounds (I := fun w₁ => w₁.Known) (fun t w₁ hw₁ =>
      wp_post (expireReconnect_wp hok hw₁) fun _ _ h => ⟨h, h.known hw₁⟩) hknown
  refine wp_post hexpires fun _ w₁ h₁ => ?_
  have hknown₁ : w₁.Known := h₁.keeps (I := fun _ w₁ => w₁.Known) hknown fun _ _ _ _ h hw => h.known hw
  rw [wp_bind, wp_get]
  refine wp_post (wp_forM_rounds (I := fun w₁ => w₁.Known) (fun t w₂ hw₂ => ?_) hknown₁) fun _ w₂ h₂ => .inr ⟨hsecond, w₁, h₁, h₂⟩
  exact wp_post (expireIdle_wp hok hw₂) fun _ _ h => ⟨h, h.known hw₂⟩

/-- where the loop over `reconnect_timeout_` stands, with the timers `dues` to come and `rest` behind them -/
structure Expiring (e : GwEnv) (P : Permit) (w : World) (rest dues : List (ℤ × ℕ)) (w₁ : World) : Prop where
  went : WentOn e P w w₁
  now : w₁.now = w.now
  idle : w₁.firstIdle = w.firstIdle
  timers : ∃ new, w₁.reconnectTimeout = dues ++ rest ++ new ∧ ∀ t ∈ new, w.now < t.1
  due : ∀ t ∈ dues, t.1 ≤ w.now

/-- one timer: those behind it stay -/
theorem Expiring.round {rest dues : List (ℤ × ℕ)} {t : ℤ × ℕ} {w₁ w₂ : World} (h : Expiring e P w rest (t :: dues) w₁)
    (hsound : w.Sound) (hround : w₁.Expires t.2 w₂) : Expiring e P w rest dues w₂ := by
  have hknown := hround.known h.went.known
  obtain ⟨w', h', rfl⟩ := hround
  obtain ⟨new, htimers, hnew⟩ := h.timers
  obtain ⟨new', htimers', hnew'⟩ := h'.timers
  have hlist : w'.reconnectTimeout = t :: (dues ++ rest ++ (new ++ new')) := by
    rw [htimers', show (w₁.expired t.2).reconnectTimeout = w₁.reconnectTimeout from rfl, htimers]
    simp only [List.cons_append, List.append_assoc]
  refine ⟨h.went.trans ⟨⟨.expire htimers ?_ h', hknown⟩, ?_, fun hwaits k s hk => ?_⟩, h'.older.now.trans h.now,
    h'.older.firstIdle.trans h.idle, ⟨new ++ new', congrArg List.tail hlist, fun t ht => ?_⟩, fun t ht => ?_⟩
  · exact h.now ▸ h.due t List.mem_cons_self
  · exact h'.older.firstIdle ▸ List.suffix_refl w₁.firstIdle
  · -- the timer that goes is not that of `s`, whose entry was not erased
    obtain ⟨added, hadded⟩ := h'.waiting
    have htail : w'.reconnectTimeout.tail = (w₁.reconnectTimeout ++ added).tail := congrArg List.tail hadded.timers
    rw [htimers] at htail
    show ∃ due, (due, s) ∈ w'.reconnectTimeout.tail
    rw [htail]
    rcases hadded.cached k s hk with hk | ⟨due, hdue⟩
    · obtain ⟨hne, hk⟩ := lookup_of_erase hk
      obtain ⟨due, hdue⟩ := hwaits k s hk
      rw [htimers] at hdue
      rcases List.mem_cons.1 hdue with rfl | hdue
      · exact absurd ((h.went.walk.sound hsound).cached k s hk).2.2.1.symm hne
      · exact ⟨due, List.mem_append_left _ hdue⟩
    · exact ⟨due, List.mem_append_right _ hdue⟩
  · rcases List.mem_append.1 ht with ht | ht
    · exact hnew t ht
    · exact h.now ▸ hnew' t ht
  · exact h.due t (List.mem_cons_of_mem _ ht)

/-- where the loop over `first_idle_` stands, with the timers `dues` to come and `rest` behind them -/
structure Idling (e : GwEnv) (P : Permit) (w : World) (rest dues : List (ℤ × ℕ)) (w₁ : World) : Prop where
  went : WentOn e P w w₁
  now : w₁.now = w.now
  idle : w₁.firstIdle = dues ++ rest
  timers : ∃ new, w₁.reconnectTimeout = w.reconnectTimeout ++ new ∧ ∀ t ∈ new, w.now < t.1

theorem Idling.round {rest dues : List (ℤ × ℕ)} {t : ℤ × ℕ} {w₁ w₂ : World} (h : Idling e P w rest (t :: dues) w₁)
    (hround : w₁.Idles t.2 w₂) : Idling e P w rest dues w₂ := by
  have hend : ∀ w', Idling e P w rest (t :: dues) w' → Idling e P w rest dues { w' with firstIdle := w'.firstIdle.tail } :=
    fun w' h' => ⟨⟨h'.went.toWent.next (.idle w') h'.went.known, (List.tail_suffix _).trans h'.went.idle, h'.went.waits⟩, h'.now,
      congrArg List.tail h'.idle, h'.timers⟩
  obtain ⟨w', rfl | h', rfl⟩ := hround
  · exact hend w' h
  · obtain ⟨new, htimers, hnew⟩ := h.timers
    obtain ⟨new', htimers', hnew'⟩ := h'.timers
    refine hend w' ⟨(h.went.recorded (.expireIdle t.2) trivial).shut h', h'.older.now.trans h.now, h'.older.firstIdle.trans h.idle,
      new ++ new', ?_, fun t ht => ?_⟩
    · rw [htimers', show (w₁.recorded (.expireIdle t.2)).reconnectTimeout = w₁.reconnectTimeout from rfl, htimers,
        List.append_assoc]
    · rcases List.mem_append.1 ht with ht | ht
      · exact hnew t ht
      · exact h.now ▸ hnew' t ht

theorem World.ticked_expiring (hknown : w.Known) (hsecond : w.lastTickTime ≠ w.now) : Expiring e P w
    (w.reconnectTimeout.dropWhile (·.1 ≤ w.now)) (w.reconnectTimeout.takeWhile (·.1 ≤ w.now)) w.ticked := by
  refine ⟨WentOn.next (.refl hknown) (.tick hsecond) hknown rfl rfl rfl, rfl, rfl, ⟨[], ?_, fun t ht => absurd ht List.not_mem_nil⟩,
    fun t ht => of_decide_eq_true (List.all_eq_true.1 List.all_takeWhile t ht)⟩
  rw [List.takeWhile_append_dropWhile, List.append_nil]
  rfl

theorem World.idling (hknown : w.Known) : Idling e P w (w.firstIdle.dropWhile (·.1 ≤ w.now)) (w.firstIdle.takeWhile (·.1 ≤ w.now)) w :=
  ⟨.refl hknown, rfl, List.takeWhile_append_dropWhile.symm, [], (List.append_nil _).symm, fun _ ht => absurd ht List.not_mem_nil⟩

theorem tick_went (hok : ReentryOk rec) (hsound : w.Sound) (hknown : w.Known) :
    wp (tick e rec) (fun _ w' => WentOn e P w w') Faulty w := by
  refine wp_post (tick_wp hok hknown) ?_
  rintro - w' (⟨-, rfl⟩ | ⟨hsecond, w₁, h₁, h₂⟩)
  · exact .refl hknown
  · have hexpiring := h₁.keeps (World.ticked_expiring (e := e) (P := P) hknown hsecond) fun _ _ _ _ hround h => h.round hsound hround
    have hidling := h₂.keeps (World.idling (e := e) (P := P) hexpiring.went.known) fun _ _ _ _ hround h => h.round hround
    exact hexpiring.went.trans hidling.went

/-- where `reset` stands: what `J` says of the maps and lists is kept by closings -/
structure Resetting (e : GwEnv) (P : Permit) (w : World) (J : World → Prop) (w₁ : World) : Prop where
  went : Went e P w w₁
  reset : ∃ c, (c, .reset) ∈ w₁.history
  empty : J w₁

section reset

variable {J : World → Prop}

theorem Resetting.close (hok : ReentryOk rec) (hJ : ∀ w₁ w₂, Shut Set.univ w₁ w₂ → J w₁ → J w₂) (s : ℕ) :
    Keeps (Resetting e P w J) Faulty (do
      let _ ← sessionClose e rec s EN_CRT_SERVER_CLOSED
      return ()) := by
  intro w₁ ⟨h₁, ⟨c, hc⟩, hempty⟩
  simp only [wp_bind, wp_pure]
  refine wp_post (sessionClose_shut hok (Set.mem_univ s) (.univ h₁.known) (.inl ⟨_, hc, trivial⟩) _) fun _ w₂ ⟨h₂, _⟩ => ?_
  exact ⟨h₁.next (.path (.shut h₂)) (h₁.known.kept h₂.kept), ⟨c, h₂.older.history.subset hc⟩, hJ w₁ w₂ h₂ hempty⟩

theorem Resetting.overMap (hok : ReentryOk rec) (hJ : ∀ w₁ w₂, Shut Set.univ w₁ w₂ → J w₁ → J w₂) (map : World → SessionMap) :
    Keeps (Resetting e P w J) Faulty (overMap map () fun _ s => do
      let _ ← sessionClose e rec s EN_CRT_SERVER_CLOSED
      return ()) :=
  overMap_keeps (fun _ _ s w₁ h₁ _ => Resetting.close hok hJ s w₁ h₁) (fun _ _ => faulty_of_ne (by decide)) ()

theorem Resetting.overList (hok : ReentryOk rec) (hJ : ∀ w₁ w₂, Shut Set.univ w₁ w₂ → J w₁ → J w₂) (ts : List (ℤ × ℕ)) :
    Keeps (Resetting e P w J) Faulty (ts.forM fun t => do
      let _ ← sessionClose e rec t.2 EN_CRT_SERVER_CLOSED
      return ()) := keeps_forM (fun t w₁ h₁ => Resetting.close hok hJ t.2 w₁ h₁) ts

end reset

theorem reset_went (hok : ReentryOk rec) (hknown : w.Known) : wp (reset e rec) (fun _ w' => WentOn e P w w') Faulty w := by
  have hbegin : Resetting e P w (fun _ => True) (w.recorded .reset) := ⟨⟨.reset w, hknown⟩, ⟨_, w.mem_recorded .reset⟩, trivial⟩
  unfold reset
  rw [wp_bind, wp_record, wp_bind]
  refine wp_post (Resetting.overMap hok (fun _ _ _ h => h) _ _ hbegin) fun _ w₁ h₁ => ?_
  rw [wp_bind, wp_modify, wp_bind, wp_get, wp_bind]
  have hinactive : Resetting e P w (fun w => w.Inactive) { w₁ with actived := ∅ } :=
    ⟨h₁.went.next (.clearActived h₁.reset) h₁.went.known, h₁.reset, fun k => AList.lookup_empty k⟩
  refine wp_post (Resetting.overList hok (fun _ _ h hw => h.inactive hw) _ _ hinactive) fun _ w₂ h₂ => ?_
  rw [wp_bind, wp_modify, wp_bind]
  have hidle : Resetting e P w (fun w => w.Inactive ∧ w.firstIdle = []) { w₂ with firstIdle := [] } :=
    ⟨h₂.went.next (.clearIdle h₂.reset) h₂.went.known, h₂.reset, h₂.empty, rfl⟩
  refine wp_post (Resetting.overMap hok (fun _ _ h hw => ⟨h.inactive hw.1, h.older.firstIdle.trans hw.2⟩) _ _ hidle) fun _ w₃ h₃ => ?_
  rw [wp_bind, wp_record, wp_bind, wp_modify, wp_bind, wp_get, wp_bind]
  have hcache : Resetting e P w (fun w => w.Inactive ∧ w.firstIdle = [] ∧ w.Uncached)
      { w₃.recorded .cleared with reconnectCache := ∅ } := by
    obtain ⟨c, hc⟩ := h₃.reset
    exact ⟨h₃.went.next (.clearCache ⟨c, hc⟩) h₃.went.known, ⟨c, List.mem_append_left _ hc⟩, h₃.empty.1, h₃.empty.2,
      fun k => AList.lookup_empty k⟩
  refine wp_post (Resetting.overList hok (fun _ _ h hw => ?_) _ _ hcache) fun _ w₄ h₄ => ?_
  · exact ⟨h.inactive hw.1, h.older.firstIdle.trans hw.2.1, h.uncached hw.1 hw.2.2⟩
  · obtain ⟨-, hidle₄, huncached⟩ := h₄.empty
    refine ⟨h₄.went.next (.clearTimers h₄.reset) h₄.went.known, ?_, fun _ k s hk => ?_⟩
    · rw [show ({ w₄ with reconnectTimeout := [] } : World).firstIdle = [] from hidle₄]
      exact List.nil_suffix
    · exact nomatch (huncached k).symm.trans hk

theorem reload_went (hP : P.sets) (hknown : w.Known) (conf : GwConf) : wp (reload e conf) (fun _ w' => WentOn e P w w') Faulty w := by
  have hconf : WentOn e P w { w with conf := conf } := WentOn.next (.refl hknown) (.reload conf w hP) hknown rfl rfl rfl
  unfold reload
  rw [wp_bind, wp_modify]
  cases globalReload e.ext conf.crypt with
  | none => exact hconf
  | some g => exact hconf.next (.path (.current g)) hconf.known rfl rfl rfl

/-! ### Runs -/

/-- the event is permitted in the world before it -/
def GwEvent.Permitted (e : GwEnv) (P : Permit) (w : World) : GwEvent → Prop
  | .clock _ | .reload _ => P.sets
  | .serverPost _ id ids content => id ≠ 0 → ids = [] → ∀ w₁,
    exec (pushData e (reentry e e.depth) id content) w = (.ok EN_ECT_SESSION_NOT_FOUND, w₁) → P.revokes w₁.toCore id
  | _ => True

/-- the event is a connection that is accepted -/
def GwEvent.Accepts (w : World) : GwEvent → Prop
  | .acceptTcp _ _ initRes acceptRes => initRes = 0 ∧ acceptRes = 0 ∧ w.full = false
  | _ => False

theorem event_timed (hsound : w.Sound) (hknown : w.Known) (ev : GwEvent) (hP : ev.Permitted e P w) :
    wp (gwEvent e ev) (fun _ w' => WentOn e P w w' ∨ ev.Accepts w ∧ Listened e P w w') Faulty w := by
  have hok := sessionOk e e.depth
  have hself : WentOn e P w w := .refl hknown
  have hon : ∀ {m : Prog Fault World Unit}, wp m (fun _ w' => WentOn e P w w') Faulty w →
      wp m (fun _ w' => WentOn e P w w' ∨ ev.Accepts w ∧ Listened e P w w') Faulty w := fun h => wp_post h fun _ _ h' => .inl h'
  cases ev with
  | acceptTcp seed peer initRes acceptRes => exact acceptTcp_went hok.toReentryOk hknown seed peer initRes acceptRes
  | acceptPipe seed => exact faulty_of_ne (by decide)
  | uvRead s data => exact hon (uvRead_went hok hsound hknown data)
  | uvWritten s status => exact hon (uvWritten_went hok.toReentryOk hknown status)
  | uvShutdown s => exact hon (uvShutdown_went hknown)
  | uvClosed s => exact hon (uvClosed_went hknown)
  | serverPost source id ids content => exact hon (serverPost_went hok.toReentryOk hsound hknown source id ids content hP)
  | serverKickoff id errorCode =>
    refine hon ?_
    unfold gwEvent serverKickoff
    simp only [wp_bind, wp_ite, wp_pure]
    exact ⟨fun _ => managerClose_went hok.toReentryOk hself _ _ _, fun _ => managerClose_went hok.toReentryOk hself _ _ _⟩
  | serverSetRouter source id router => exact hon (serverSetRouter_went hknown source id router)
  | cmdKickoff id reason => exact hon ((wp_bind _ _).2 (managerClose_went hok.toReentryOk hself id reason false))
  | cmdDisconnect id reason => exact hon ((wp_bind _ _).2 (managerClose_went hok.toReentryOk hself id reason true))
  | tick => exact hon (tick_went hok.toReentryOk hsound hknown)
  | clock now => exact .inl (hself.next (.clock now w hP) hknown rfl rfl rfl)
  | reset => exact hon (reset_went hok.toReentryOk hknown)
  | reload conf => exact hon (reload_went hP hknown conf)

/-- **Every event** leads along a walk. -/
theorem event_went (hsound : w.Sound) (hknown : w.Known) (ev : GwEvent) (hP : ev.Permitted e P w) :
    wp (gwEvent e ev) (fun _ w' => Went e P w w') Faulty w :=
  wp_post (event_timed hsound hknown ev hP) fun _ _ h => h.elim WentOn.toWent fun h => h.2.toWent

theorem World.start_sound (conf : GwConf) (now : ℤ) (current : Option CryptGlobal) : (World.start conf now current).Sound where
  sess _ := ⟨fun hfd => absurd hfd Bool.false_ne_true, fun howner => absurd howner.symm Bool.false_ne_true,
    fun hread => absurd hread Bool.false_ne_true, fun hid => absurd rfl hid, fun hrec => absurd hrec Bool.false_ne_true⟩
  counted _ hs := absurd hs Bool.false_ne_true
  actived _ _ hk := SessionMap.empty_elim hk
  cached _ _ hk := SessionMap.empty_elim hk
  timers _ ht := absurd ht List.not_mem_nil

/-- **Every run** whose events are permitted leads along a walk; where it stops at a null owner, a step led to it. -/
theorem run_permitted (e : GwEnv) (P : Permit) (conf : GwConf) (now : ℤ) (current : Option CryptGlobal) (events : List GwEvent)
    (hP : EachMeets (gwEvent e) (fun ev w => ev.Permitted e P w) events (World.start conf now current)) :
    wp (gwRun e events) (fun _ w' => Went e P (World.start conf now current) w') Faulty (World.start conf now current) := by
  have hstart := World.start_sound conf now current
  refine wp_forM (I := Went e P (World.start conf now current)) (fun ev w h hev => ?_) ⟨.refl _, fun s hs => (nomatch hs)⟩ hP
  exact wp_post (event_went (h.walk.sound hstart) h.known ev hev) fun _ _ h' => h.trans h'

/-- nothing is forbidden -/
def Permit.all : Permit := ⟨True, fun _ _ => True⟩

theorem GwEvent.permitted_all (e : GwEnv) (w : World) (ev : GwEvent) : ev.Permitted e .all w := by
  cases ev with
  | serverPost source id ids content => exact fun _ _ _ _ => trivial
  | _ => trivial

/-- every run at all -/
theorem run_went (e : GwEnv) (conf : GwConf) (now : ℤ) (current : Option CryptGlobal) (events : List GwEvent) :
    wp (gwRun e events) (fun _ w' => Went e .all (World.start conf now current) w') Faulty (World.start conf now current) :=
  run_permitted e .all conf now current events (eachMeets_of_forall fun ev _ w => ev.permitted_all e w)

end AtFrame.Gateway
