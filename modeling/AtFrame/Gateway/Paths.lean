/-
What happens inside one event of the gateway, as a relation between worlds, and what holds at any time.

`Path` adds to the closings what messages lead to: sessions are started, activated and reconnected, objects are closed, notices
are posted. `World.Sound` is what a path keeps without any condition on what clients and servers do.

- `Path.later`: what only grows;
- `Path.waits`, `Path.inOrder`: the timers of sessions that wait for a reconnect;
- `Path.sound`: the invariant.
-/
import AtFrame.Gateway.Closes
import AtFrame.Gateway.Waiting

namespace AtFrame.Gateway

open AtFrame.Lib

/-! ## Moves -/

/-- connected, and the object is open -/
def Session.Alive (x : Session) : Prop := x.flags.hasFd = true ∧ x.proto.flags.closing = false

/-- what `message_fn` is called with for a frame: buffer and length -/
def Core.delivered (e : GwEnv) (c : Core) (s : ℕ) (buffer : Bytes) (errcode : ℤ) : Option (Bytes × ℕ) :=
  if (c.sess s).proto.flags.closing ∨ errcode < 0 then none
  else
    match e.ext.verify buffer with
    | some ⟨some type, body⟩ => (c.sess s).proto.delivered e.ext type body
    | _ => none

/-- what a frame delivers, where the router accepts the notice with it -/
def Core.forwarded (e : GwEnv) (c : Core) (s : ℕ) (buffer : Bytes) (errcode : ℤ) : Option (Bytes × ℕ) :=
  (c.delivered e s buffer errcode).filter fun out =>
    (e.serialize (c.sess s).id (.post [(c.sess s).id] out.1 out.2)).isSome && decide (e.sendData c.sent.length = 0)

/-- a frame ended the first handshake of a session that was neither started nor resumed -/
def Skips (e : GwEnv) (s : ℕ) : Core × Step → Prop
  | (c, .frame t buffer errcode) => t = s ∧ (c.sess s).flags.inited = false ∧
    (c.sess s).proto.flags.handshakeDone = false ∧ (c.sess s).proto.flags.closing = false ∧ 0 ≤ errcode ∧
      ∃ type body b, e.ext.verify buffer = some ⟨some type, body⟩ ∧ ReachesHandshake (c.sess s).proto type body b ∧
        Completes e.ext c.current ((c.sess s).proto.arm type) b
  | _ => False

/-- the session may be activated: it was started or resumed, or a frame skipped that -/
def World.Earned (e : GwEnv) (w : World) (s : ℕ) : Prop :=
  (w.sess s).flags.inited = true ∨ ∃ x ∈ w.history, Skips e s x

def World.startNew (e : GwEnv) (s : ℕ) (router : UInt64) (w : World) : World :=
  { (w.recorded (.initNewSession s)).modSess s fun x => (x.initNew (e.allocate w.allocated) router).initDone w with
    allocated := w.allocated + 1 }

@[simp] theorem World.startNew_sess (e : GwEnv) (s : ℕ) (router : UInt64) (w : World) : (w.startNew e s router).sess s =
    ((w.sess s).initNew (e.allocate w.allocated) router).initDone w := Function.update_self ..

theorem World.startNew_sess_ne (e : GwEnv) {s t : ℕ} (h : t ≠ s) (router : UInt64) (w : World) :
    (w.startNew e s router).sess t = w.sess t := Function.update_of_ne h ..

def Session.setReconnected (x : Session) : Session :=
  x.setFlags { x.flags with reconnected := true, waitReconnect := false, closing := true }

/-- a session takes over what belongs to an old one -/
def World.takenOver (s old : ℕ) (oldId : UInt64) (w : World) : World :=
  (((w.recorded (.initReconnect s old)).modSess s fun x =>
    ((x.takeOver (w.sess old)).initDone w).setRegistered (w.sess old).flags.registered).modSess old
      Session.setReconnected).dropCached oldId

def World.enrolled (s : ℕ) (w : World) : World := { w with actived := w.actived.insert (w.sess s).id s }

/-- the sessions in the maps -/
def World.listed (w : World) : Set ℕ := { t | ∃ k, w.actived.lookup k = some t ∨ w.reconnectCache.lookup k = some t }

/-- a session whose first handshake just ended -/
structure Entering (w : World) (s : ℕ) : Prop where
  counted : s < w.count
  done : (w.sess s).proto.flags.handshakeDone = true
  unlisted : s ∉ w.listed

/-- `active_session` is about to enter the session: nothing stands under its id any more, and no more is held than at the call -/
structure Admitted (e : GwEnv) (w : World) (s : ℕ) : Prop extends Entering w s where
  earned : w.Earned e s
  free : w.actived.lookup (w.sess s).id = none
  room : ∃ c, (c, Step.activeSession s) ∈ w.history ∧
    (w.held < c.held ∨ w.held ≤ c.held ∧ c.actived.lookup (c.sess s).id = none)

/-- the step is a call of `reconnect` -/
def Step.IsReconnect : Step → Prop
  | .reconnect _ _ => True
  | _ => False

/-- `reconnect` was called, and in that call the object of `s` was checked with success: against that of `old`, or against that
of an active session whose close leads to no other one than `old` -/
def World.Checked (s old : ℕ) (oldId : UInt64) (w : World) : Prop :=
  ∃ pre c mid, w.history = pre ++ (c, .reconnect s oldId) :: mid ∧ (∀ x ∈ mid, ¬ x.2.IsReconnect) ∧
    ∃ c' old', (c', .checkReconnect s old' true) ∈ mid ∧ (old' = old ∨ c'.actived.lookup oldId = some old' ∧
      c'.reconnectCache.lookup oldId = none ∧ ∀ S : Set ℕ, c'.Scope S → old' ∈ S → old ∈ S)

/-- steps that are only recorded, and what is known when they are -/
def World.Allows (e : GwEnv) (w : World) : Step → Prop
  | .initNewSession _ | .initReconnect _ _ | .reconnected _ _ | .managerClose _ _ _ | .check _ _ _ _ | .reset | .cleared | .tick => False
  | .handshakeDone s status => status = 0 → w.Earned e s
  | .activeSession s => w.Earned e s
  | _ => True

/-- what one event leads to -/
inductive Path (e : GwEnv) : World → World → Prop where
  | refl (w : World) : Path e w w
  | trans {w w₁ w₂ : World} : Path e w w₁ → Path e w₁ w₂ → Path e w w₂
  | shut {w w' : World} : Shut Set.univ w w' → Path e w w'
  | record {w : World} {step : Step} : w.Allows e step → Path e w (w.recorded step)
  /-- a message closes the object -/
  | object {w : World} {s : ℕ} {p : Proto} : p.flags.closing = true →
      p.flags.handshakeDone = (w.sess s).proto.flags.handshakeDone → Path e w (w.setSess s { w.sess s with proto := p })
  /-- the first handshake ends -/
  | done {w : World} {s : ℕ} {p : Proto} : (w.sess s).proto.flags.handshakeDone = false → p.flags.handshakeDone = true →
      p.flags.closing = (w.sess s).proto.flags.closing → Path e w (w.setSess s { w.sess s with proto := p })
  | current {w : World} (g : CryptGlobal) : Path e w { w with current := some g }
  /-- `message_fn` posts what a frame delivers -/
  | post {w : World} {s : ℕ} {buffer : Bytes} {errcode : ℤ} {out : Bytes × ℕ} : (w.sess s).Alive →
      (w.toCore, .frame s buffer errcode) ∈ w.history → w.delivered e s buffer errcode = some out →
      e.serialize (w.sess s).id (.post [(w.sess s).id] out.1 out.2) ≠ none →
      Path e w { w with
        sent := w.sent ++
          [⟨some s, (w.sess s).id, (w.sess s).router, .post [(w.sess s).id] out.1 out.2, e.sendData w.sent.length⟩] }
  /-- `init_new_session` -/
  | start {w : World} {s : ℕ} (router : UInt64) : (w.sess s).Alive → Path e w (w.startNew e s router)
  /-- `active_session` for a session that no server knows -/
  | announce {w w₁ : World} {s len : ℕ} : Admitted e w s → (w.sess s).Alive → (w.sess s).flags.registered = false →
      (w.sess s).flags.reconnected = false → Checks Set.univ s (w.noticed s (.addSession (w.sess s).peer) len 0) w₁ →
      Path e w ((w₁.modSess s (Session.setRegistered true)).enrolled s)
  /-- the same where the notice fails -/
  | unheard {w w₁ : World} {s len : ℕ} {ret : ℤ} : Admitted e w s → ret < 0 →
      Shut Set.univ (w.noticed s (.addSession (w.sess s).peer) len ret) w₁ → Path e w w₁
  /-- `active_session` for a session that the servers know -/
  | enroll {w : World} {s : ℕ} : Admitted e w s → (w.sess s).Alive → (w.sess s).flags.registered = true →
      (w.sess s).flags.reconnected = false → Path e w (w.enrolled s)
  /-- the end of `reconnect` -/
  | resume {w : World} {s old : ℕ} {oldId : UInt64} : (w.sess s).Alive → (w.sess s).flags.inited = false →
      w.reconnectCache.lookup oldId = some old → (w.sess old).flags.reconnected = false → w.Checked s old oldId →
      Path e w ((w.takenOver s old oldId).recorded (.reconnected s oldId))

/-- closings enter nobody into the maps -/
theorem Shut.unlisted {S : Set ℕ} {w w' : World} {s : ℕ} (h : Shut S w w') (hs : s ∉ w.listed) : s ∉ w'.listed := by
  rintro ⟨k, hk | hk⟩
  · exact hs ⟨k, .inl (h.older.actived k s hk)⟩
  · rcases h.older.cached k s hk with hk | ⟨-, -, -, j, hj⟩
    · exact hs ⟨k, .inr hk⟩
    · exact hs ⟨j, .inl hj⟩

theorem Entering.shut {S : Set ℕ} {w w' : World} {s : ℕ} (h : Entering w s) (hs : Shut S w w') : Entering w' s where
  counted := hs.older.count ▸ h.counted
  done := (hs.kept s).done.trans h.done
  unlisted := hs.unlisted h.unlisted

theorem Entering.recorded {w : World} {s : ℕ} (h : Entering w s) {step : Step} : Entering (w.recorded step) s :=
  ⟨h.counted, h.done, h.unlisted⟩

/-- a session that is entered stays out of the maps while it is announced -/
theorem Entering.announced {S : Set ℕ} {w w₁ : World} {s : ℕ} {body : SsBody} {len : ℕ} {ret : ℤ} (h : Entering w s)
    (hs : Shut S (w.noticed s body len ret) w₁) : Entering (w₁.modSess s (Session.setRegistered true)) s := by
  have hnoticed : Entering (w.noticed s body len ret) s :=
    ⟨h.counted, (World.kept_modSess (Session.kept_noticed len) w s s).done.trans h.done, h.unlisted⟩
  have h₁ := hnoticed.shut hs
  refine ⟨h₁.counted, ?_, h₁.unlisted⟩
  rw [World.modSess_sess]
  exact h₁.done

/-! ## What only grows -/

structure Session.Later (x y : Session) : Prop where
  peer : y.peer = x.peer
  reading : y.stream.reading = x.stream.reading
  inited : x.flags.inited = true → y.flags.inited = true
  done : x.proto.flags.handshakeDone = true → y.proto.flags.handshakeDone = true
  object : x.proto.flags.closing = true → y.proto.flags.closing = true
  closing : x.flags.closing = true → y.flags.closing = true
  lost : x.flags.hasFd = false → y.flags.hasFd = false

theorem Session.Later.refl (x : Session) : x.Later x := ⟨rfl, rfl, fun h => h, fun h => h, fun h => h, fun h => h, fun h => h⟩

theorem Session.Later.trans {x y z : Session} (h : x.Later y) (h' : y.Later z) : x.Later z :=
  ⟨h'.peer.trans h.peer, h'.reading.trans h.reading, h'.inited ∘ h.inited, h'.done ∘ h.done, h'.object ∘ h.object,
    h'.closing ∘ h.closing, h'.lost ∘ h.lost⟩

structure World.Later (w w' : World) : Prop where
  sess : ∀ s, (w.sess s).Later (w'.sess s)
  conf : w'.conf = w.conf
  now : w'.now = w.now
  count : w'.count = w.count
  firstIdle : w'.firstIdle = w.firstIdle
  lastTickTime : w'.lastTickTime = w.lastTickTime
  allocated : w.allocated ≤ w'.allocated
  timers : w.reconnectTimeout <+: w'.reconnectTimeout
  history : w.history <+: w'.history
  sent : w.sent <+: w'.sent

theorem World.Later.refl (w : World) : w.Later w :=
  ⟨fun _ => .refl _, rfl, rfl, rfl, rfl, rfl, le_rfl, List.prefix_refl _, List.prefix_refl _, List.prefix_refl _⟩

theorem World.Later.trans {w w₁ w₂ : World} (h : w.Later w₁) (h' : w₁.Later w₂) : w.Later w₂ :=
  ⟨fun s => (h.sess s).trans (h'.sess s), h'.conf.trans h.conf, h'.now.trans h.now, h'.count.trans h.count,
    h'.firstIdle.trans h.firstIdle, h'.lastTickTime.trans h.lastTickTime, h.allocated.trans h'.allocated,
    h.timers.trans h'.timers, h.history.trans h'.history, h.sent.trans h'.sent⟩

variable {e : GwEnv} {S : Set ℕ} {w w' : World} {s : ℕ}

theorem Shut.later (h : Shut S w w') : w.Later w' where
  sess s :=
    { peer := (h.kept s).peer
      reading := (h.kept s).reading
      inited := fun hs => (h.kept s).inited.trans hs
      done := fun hs => (h.kept s).done.trans hs
      object := (h.kept s).object
      closing := (h.kept s).closing
      lost := h.lost }
  conf := h.older.conf
  now := h.older.now
  count := h.older.count
  firstIdle := h.older.firstIdle
  lastTickTime := h.older.lastTickTime
  allocated := h.older.allocated.ge
  timers := h.older.timers
  history := h.older.history
  sent := h.older.sent

theorem World.later_setSess {x : Session} (h : (w.sess s).Later x) (t : ℕ) : (w.sess t).Later ((w.setSess s x).sess t) := by
  by_cases hts : t = s
  · subst hts
    rwa [World.setSess_sess]
  · rw [World.setSess_sess_ne hts]
    exact .refl _

/-- a change of one session -/
theorem World.Later.setSess {x : Session} (h : (w.sess s).Later x) : w.Later (w.setSess s x) :=
  { World.Later.refl w with sess := World.later_setSess h }

theorem World.Later.recorded (w : World) (step : Step) : w.Later (w.recorded step) :=
  { World.Later.refl w with history := List.prefix_append _ _ }

theorem World.Later.noticed (w : World) (s : ℕ) (body : SsBody) (len : ℕ) (ret : ℤ) : w.Later (w.noticed s body len ret) :=
  { World.Later.refl w with
    sess := World.later_setSess ⟨rfl, rfl, fun h => h, fun h => h, fun h => h, fun h => h, fun h => h⟩
    sent := List.prefix_append _ _ }

theorem World.Later.takenOver (w : World) (s old : ℕ) (oldId : UInt64) : w.Later (w.takenOver s old oldId) := by
  have hnew : (w.recorded (.initReconnect s old)).Later ((w.recorded (.initReconnect s old)).modSess s fun x =>
      ((x.takeOver (w.sess old)).initDone w).setRegistered (w.sess old).flags.registered) :=
    .setSess ⟨rfl, rfl, fun _ => rfl, fun h => h, fun h => h, fun h => h, fun h => h⟩
  have hold := hnew.trans (.setSess (s := old) (x := Session.setReconnected _)
    ⟨rfl, rfl, fun h => h, fun h => h, fun h => h, fun _ => rfl, fun h => h⟩)
  exact (World.Later.recorded w _).trans { hold with }

theorem Path.later (h : Path e w w') : w.Later w' := by
  induction h with
  | refl w => exact .refl w
  | trans _ _ ih ih' => exact ih.trans ih'
  | shut h => exact h.later
  | record => exact .recorded _ _
  | object hclosing hdone =>
    exact .setSess ⟨rfl, rfl, fun h => h, fun h => hdone.trans h, fun _ => hclosing, fun h => h, fun h => h⟩
  | done _ hdone hclosing =>
    exact .setSess ⟨rfl, rfl, fun h => h, fun _ => hdone, fun h => hclosing.trans h, fun h => h, fun h => h⟩
  | current => exact { World.Later.refl _ with }
  | post => exact { World.Later.refl _ with sent := List.prefix_append _ _ }
  | @start w s router _ =>
    have hset : (w.recorded (.initNewSession s)).Later ((w.recorded (.initNewSession s)).modSess s fun x =>
        (x.initNew (e.allocate w.allocated) router).initDone w) :=
      .setSess ⟨rfl, rfl, fun _ => rfl, fun h => h, fun h => h, fun h => h, fun h => h⟩
    exact (World.Later.recorded w _).trans { hset with allocated := Nat.le_succ _ }
  | @announce w w₁ s len _ _ _ _ h =>
    have hset : w₁.Later (w₁.modSess s (Session.setRegistered true)) :=
      .setSess ⟨rfl, rfl, fun h => h, fun h => h, fun h => h, fun h => h, fun h => h⟩
    exact ((World.Later.noticed _ _ _ _ _).trans h.shut.later).trans { hset with }
  | unheard _ _ h => exact (World.Later.noticed _ _ _ _ _).trans h.later
  | enroll => exact { World.Later.refl _ with }
  | resume => exact (World.Later.takenOver _ _ _ _).trans (.recorded _ _)

/-! ## Sessions that wait -/

theorem Path.waits (h : Path e w w') (hw : w.Waits) : w'.Waits := by
  induction h with
  | trans _ _ ih ih' => exact ih' (ih hw)
  | shut h | unheard _ _ h => exact h.waits hw
  | announce _ _ _ _ h => exact h.shut.waits hw
  | resume => exact fun k s hk => hw k s (lookup_of_erase hk).2
  | _ => exact hw

theorem Path.inOrder (h : Path e w w') (hclose : ∀ x ∈ w'.history, ClosesInOrder x) (hw : InOrder w.reconnectTimeout) :
    InOrder w'.reconnectTimeout := by
  induction h with
  | trans _ h' ih ih' => exact ih' hclose (ih (fun x hx => hclose x (h'.later.history.subset hx)) hw)
  | shut h | unheard _ _ h => exact h.inOrder hclose hw
  | announce _ _ _ _ h => exact h.shut.inOrder hclose hw
  | _ => exact hw

/-! ## What holds at any time -/

structure Session.Sound (x : Session) : Prop where
  socket : x.flags.hasFd = true → x.owner = true ∧ x.flags.closing = false ∧ x.flags.closingFd = false
  lost : x.owner = false → x.proto.flags.closing = true
  reading : x.stream.reading = true → x.owner = true → x.flags.hasFd = true
  named : x.id ≠ 0 → x.flags.inited = true
  gone : x.flags.reconnected = true → x.flags.hasFd = false

structure World.Sound (w : World) : Prop where
  sess : ∀ s, (w.sess s).Sound
  counted : ∀ s, (w.sess s).stream.reading = true → s < w.count
  /-- only a session that was started or resumed is active under an id -/
  actived : ∀ k s, w.actived.lookup k = some s → s < w.count ∧ (w.sess s).proto.flags.handshakeDone = true ∧
    (k ≠ 0 → (w.sess s).flags.inited = true ∧ (w.sess s).id ≠ 0)
  cached : ∀ k s, w.reconnectCache.lookup k = some s → s < w.count ∧ (w.sess s).proto.flags.handshakeDone = true ∧
    (w.sess s).id = k ∧ (w.sess s).flags.hasFd = false
  timers : ∀ t ∈ w.reconnectTimeout, t.2 < w.count ∧ (w.sess t.2).flags.hasFd = false

theorem World.Sound.steady (h : w.Sound) : w.Steady :=
  ⟨fun s hs => ((h.sess s).socket hs).2.2, fun k s hk => (h.cached k s hk).2.2.2, fun t ht => (h.timers t ht).2⟩

theorem Session.Sound.shut {x y : Session} (h : x.Sound) (hkept : x.Kept y) (hsocket : x.Socket y) : y.Sound where
  socket hfd := by
    rcases hsocket with ⟨howner, hfd', hclosingFd, -, hclosing⟩ | ⟨-, hlost, -⟩
    · obtain ⟨h₁, h₂, h₃⟩ := h.socket (hfd'.symm.trans hfd)
      exact ⟨howner.trans h₁, (hclosing (hfd'.symm.trans hfd) h₃).trans h₂, hclosingFd.trans h₃⟩
    · exact absurd (hlost.symm.trans hfd) Bool.false_ne_true
  lost howner := by
    rcases hsocket with ⟨howner', -⟩ | ⟨-, -, -, hproto⟩
    · exact hkept.object (h.lost (howner'.symm.trans howner))
    · exact hproto
  reading hread howner := by
    rcases hsocket with ⟨howner', hfd, -⟩ | ⟨-, -, howner', -⟩
    · exact hfd.trans (h.reading (hkept.reading.symm.trans hread) (howner'.symm.trans howner))
    · exact absurd (howner'.symm.trans howner) Bool.false_ne_true
  named hid := hkept.inited.trans (h.named fun h0 => hid (hkept.id.trans h0))
  gone hrec := by
    have hlost := h.gone (hkept.reconnected.symm.trans hrec)
    rcases hsocket with ⟨-, hfd, -⟩ | ⟨-, hfd, -⟩
    · exact hfd.trans hlost
    · exact hfd

/-- behind closings, with all sockets that were given up lost -/
theorem World.Sound.settled (hw : w.Sound) (hkept : ∀ t, (w.sess t).Kept (w'.sess t)) (hsocket : ∀ t, (w.sess t).Socket (w'.sess t))
    (holder : w.Older S w') (hsteady : w'.Steady) : w'.Sound where
  sess s := (hw.sess s).shut (hkept s) (hsocket s)
  counted s hs := by
    rw [holder.count]
    exact hw.counted s ((hkept s).reading.symm.trans hs)
  actived k s hk := by
    obtain ⟨h₁, h₂, h₃⟩ := hw.actived k s (holder.actived k s hk)
    refine ⟨holder.count ▸ h₁, (hkept s).done.trans h₂, fun hne => ⟨(hkept s).inited.trans (h₃ hne).1, ?_⟩⟩
    rw [(hkept s).id]
    exact (h₃ hne).2
  cached k s hk := by
    have hlost := hsteady.cached k s hk
    rcases holder.cached k s hk with hk' | ⟨-, hid, -, j, hj⟩
    · obtain ⟨h₁, h₂, h₃, -⟩ := hw.cached k s hk'
      exact ⟨holder.count ▸ h₁, (hkept s).done.trans h₂, (hkept s).id.trans h₃, hlost⟩
    · obtain ⟨h₁, h₂, -⟩ := hw.actived j s hj
      exact ⟨holder.count ▸ h₁, (hkept s).done.trans h₂, (hkept s).id.trans hid.symm, hlost⟩
  timers t ht := by
    refine ⟨?_, hsteady.timers t ht⟩
    rw [holder.count]
    exact (holder.waits t ht).elim (fun ht => (hw.timers t ht).1) fun ⟨j, hj⟩ => (hw.actived j _ hj).1

theorem Shut.sound (h : Shut S w w') (hw : w.Sound) : w'.Sound := hw.settled h.kept h.socket h.older (h.steady hw.steady)

/-- a change of one session that keeps its socket and its id -/
theorem World.Sound.setSess {x : Session} (h : w.Sound) (hx : x.Sound) (hlater : (w.sess s).Later x)
    (hid : (w.sess s).id = x.id ∨ (w.sess s).Alive ∧ x.id ≠ 0 ∧ x.flags.inited = true) :
    (w.setSess s x).Sound := by
  have hl : ∀ t, (w.sess t).Later ((w.setSess s x).sess t) := World.later_setSess hlater
  refine ⟨fun t => ?_, fun t ht => h.counted t ((hl t).reading.symm.trans ht), fun k t hk => ?_, fun k t hk => ?_,
    fun t ht => ⟨(h.timers t ht).1, (hl t.2).lost (h.timers t ht).2⟩⟩
  · by_cases hts : t = s
    · subst hts
      rwa [World.setSess_sess]
    · rw [World.setSess_sess_ne hts]
      exact h.sess t
  · obtain ⟨h₁, h₂, h₃⟩ := h.actived k t hk
    refine ⟨h₁, (hl t).done h₂, fun hne => ⟨(hl t).inited (h₃ hne).1, ?_⟩⟩
    by_cases hts : t = s
    · subst hts
      rw [World.setSess_sess]
      exact hid.elim (fun hid => hid ▸ (h₃ hne).2) fun hid => hid.2.1
    · rw [World.setSess_sess_ne hts]
      exact (h₃ hne).2
  · obtain ⟨h₁, h₂, h₃, h₄⟩ := h.cached k t hk
    refine ⟨h₁, (hl t).done h₂, ?_, (hl t).lost h₄⟩
    by_cases hts : t = s
    · subst hts
      rw [World.setSess_sess]
      exact hid.elim (fun hid => hid.symm.trans h₃) fun hid => absurd (h₄.symm.trans hid.1.1) Bool.false_ne_true
    · rw [World.setSess_sess_ne hts]
      exact h₃

theorem World.Sound.recorded (h : w.Sound) (step : Step) : (w.recorded step).Sound :=
  ⟨h.sess, h.counted, h.actived, h.cached, h.timers⟩

theorem World.Sound.noticed (h : w.Sound) (s : ℕ) (body : SsBody) (len : ℕ) (ret : ℤ) : (w.noticed s body len ret).Sound := by
  have hs := h.sess s
  have hset : (w.modSess s fun x => x.setLimit (x.limit.addRecv len)).Sound := by
    refine h.setSess ⟨hs.socket, hs.lost, hs.reading, hs.named, hs.gone⟩ ?_ (.inl rfl)
    exact ⟨rfl, rfl, fun h => h, fun h => h, fun h => h, fun h => h, fun h => h⟩
  exact ⟨hset.sess, hset.counted, hset.actived, hset.cached, hset.timers⟩

theorem World.Sound.dropCached (h : w.Sound) (id : UInt64) : (w.dropCached id).Sound :=
  ⟨h.sess, h.counted, h.actived, fun k s hk => h.cached k s (lookup_of_erase hk).2, h.timers⟩

theorem World.Sound.takenOver {s old : ℕ} {oldId : UInt64} (h : w.Sound) (halive : (w.sess s).Alive)
    (hinited : (w.sess s).flags.inited = false) (hlook : w.reconnectCache.lookup oldId = some old) :
    (w.takenOver s old oldId).Sound := by
  obtain ⟨-, -, hid, hlost⟩ := h.cached oldId old hlook
  have hne : old ≠ s := fun hos => Bool.false_ne_true (hlost.symm.trans (hos ▸ halive.1))
  have hs := h.sess s
  have hnew : ((w.recorded (.initReconnect s old)).modSess s fun x =>
      ((x.takeOver (w.sess old)).initDone w).setRegistered (w.sess old).flags.registered).Sound := by
    refine (h.recorded _).setSess ⟨hs.socket, hs.lost, hs.reading, fun _ => rfl, hs.gone⟩ ?_ ?_
    · exact ⟨rfl, rfl, fun _ => rfl, fun h => h, fun h => h, fun h => h, fun h => h⟩
    · by_cases h0 : (w.sess old).id = 0
      · left
        by_contra hsid
        exact Bool.false_ne_true (hinited.symm.trans (hs.named fun hs0 => hsid (hs0.trans h0.symm)))
      · exact .inr ⟨halive, h0, rfl⟩
  have hold := h.sess old
  refine (hnew.setSess (s := old) (x := Session.setReconnected _) ?_ ?_ (.inl rfl)).dropCached oldId
  · rw [World.modSess_sess_ne hne]
    exact ⟨fun hfd => absurd (hlost.symm.trans hfd) Bool.false_ne_true, hold.lost, hold.reading, hold.named, fun _ => hlost⟩
  · exact ⟨rfl, rfl, fun h => h, fun h => h, fun h => h, fun _ => rfl, fun h => h⟩

theorem World.Sound.enrolled (h : w.Sound) (hs : Entering w s) : (w.enrolled s).Sound := by
  refine ⟨h.sess, h.counted, fun k t hk => ?_, h.cached, h.timers⟩
  by_cases hid : k = (w.sess s).id
  · subst hid
    rw [World.enrolled, AList.lookup_insert] at hk
    cases hk
    exact ⟨hs.counted, hs.done, fun hne => ⟨(h.sess s).named hne, hne⟩⟩
  · exact h.actived k t ((AList.lookup_insert_ne hid).symm.trans hk)

theorem Path.sound (h : Path e w w') (hw : w.Sound) : w'.Sound := by
  induction h with
  | refl w => exact hw
  | trans _ _ ih ih' => exact ih' (ih hw)
  | shut h => exact h.sound hw
  | record => exact hw.recorded _
  | @object w s p hclosing hdone =>
    have hs := hw.sess s
    refine hw.setSess ⟨hs.socket, fun _ => hclosing, hs.reading, hs.named, hs.gone⟩ ?_ (.inl rfl)
    exact ⟨rfl, rfl, fun h => h, fun h => hdone.trans h, fun _ => hclosing, fun h => h, fun h => h⟩
  | @done w s p _ hdone hclosing =>
    have hs := hw.sess s
    refine hw.setSess ⟨hs.socket, fun h => hclosing.trans (hs.lost h), hs.reading, hs.named, hs.gone⟩ ?_ (.inl rfl)
    exact ⟨rfl, rfl, fun h => h, fun _ => hdone, fun h => hclosing.trans h, fun h => h, fun h => h⟩
  | current => exact ⟨hw.sess, hw.counted, hw.actived, hw.cached, hw.timers⟩
  | post => exact ⟨hw.sess, hw.counted, hw.actived, hw.cached, hw.timers⟩
  | @start w s router halive =>
    have hs := hw.sess s
    have hset : ((w.recorded (.initNewSession s)).modSess s fun x =>
        (x.initNew (e.allocate w.allocated) router).initDone w).Sound := by
      refine (hw.recorded (.initNewSession s)).setSess ⟨hs.socket, hs.lost, hs.reading, fun _ => rfl, hs.gone⟩ ?_ (.inr ?_)
      · exact ⟨rfl, rfl, fun _ => rfl, fun h => h, fun h => h, fun h => h, fun h => h⟩
      · exact ⟨halive, e.allocate_ne _, rfl⟩
    exact ⟨hset.sess, hset.counted, hset.actived, hset.cached, hset.timers⟩
  | @announce w w₁ s len hs _ _ _ h =>
    have hw₁ := h.shut.sound (hw.noticed s _ len 0)
    have hs₁ := hw₁.sess s
    have hset : (w₁.modSess s (Session.setRegistered true)).Sound := by
      refine hw₁.setSess ⟨hs₁.socket, hs₁.lost, hs₁.reading, hs₁.named, hs₁.gone⟩ ?_ (.inl rfl)
      exact ⟨rfl, rfl, fun h => h, fun h => h, fun h => h, fun h => h, fun h => h⟩
    exact hset.enrolled (hs.announced h.shut)
  | unheard _ _ h => exact h.sound (hw.noticed _ _ _ _)
  | enroll hs => exact hw.enrolled hs.toEntering
  | resume halive hinited hlook _ _ => exact (hw.takenOver halive hinited hlook).recorded _

end AtFrame.Gateway
