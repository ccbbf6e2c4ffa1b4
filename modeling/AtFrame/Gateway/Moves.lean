/-
What a close does to the gateway, as a relation between worlds.

A close calls back into itself: closing a session closes its object, which may close another session on the way. `Shut S` follows
these calls as a tree: a move that has nested ones inside it (`close`, `wait`, `drop`, ...) takes the world from before it to
behind it and contains the moves between. `S` are the sessions that are touched. What closings can not do is then shown once, by
induction on the tree:

- `Shut.kept`, `Shut.socket`: what stays of each session, and in which direction the rest changes;
- `Shut.outside`: sessions that are not in `S` stay as they are;
- `Shut.older`: the maps only lose entries, except for sessions that wait for a reconnect; timers and records are only added.
-/
import AtFrame.Gateway.Session

namespace AtFrame.Gateway

open AtFrame.Lib

/-! ## Reasons to close a session -/

/-- the tests of a check in their order: is the test made, and is its limit exceeded -/
def limitTests (checkRecv checkSend : Bool) : Period → List (Bool × (GwConf → Limit → Bool))
  | .hour =>
    [(checkRecv, hourExceeded false false), (checkRecv, hourExceeded false true), (checkSend, hourExceeded true false),
      (checkSend, hourExceeded true true)]
  | .minute => [(true, minuteExceeded checkRecv checkSend)]
  | .total =>
    [(checkRecv, totalExceeded false false), (checkRecv, totalExceeded false true), (checkSend, totalExceeded true false),
      (checkSend, totalExceeded true true)]

/-- a test that is made finds its limit exceeded -/
def trips (c : GwConf) (l : Limit) (tests : List (Bool × (GwConf → Limit → Bool))) : Bool :=
  tests.any fun t => t.1 && t.2 c l

/-- a test that is made finds its limit exceeded, and another test is made behind it -/
def tripsFirst (c : GwConf) (l : Limit) : List (Bool × (GwConf → Limit → Bool)) → Bool
  | [] => false
  | t :: tests => t.1 && t.2 c l && tests.any Prod.fst || tripsFirst c l tests

/-- the check makes its tests: it is not the first one in a new period, and the session is not closing -/
def Core.Tested (c : Core) (s : ℕ) (period : Period) : Prop :=
  (match period with
    | .hour => c.now.tdiv daySeconds = (c.sess s).limit.hourTimepoint
    | .minute => c.now.tdiv minuteSeconds = (c.sess s).limit.minuteTimepoint
    | .total => True) ∧ (c.sess s).owner = true ∧ (c.sess s).flags.closing = false

/-- the check closes the session -/
def Core.Trips (c : Core) (s : ℕ) (period : Period) (checkRecv checkSend : Bool) : Prop :=
  c.Tested s period ∧ trips c.conf (c.sess s).limit (limitTests checkRecv checkSend period) = true

/-- the check closes a connected session and then makes another test -/
def Core.TripsFirst (c : Core) (s : ℕ) (period : Period) (checkRecv checkSend : Bool) : Prop :=
  c.Tested s period ∧ (c.sess s).flags.hasFd = true ∧
    tripsFirst c.conf (c.sess s).limit (limitTests checkRecv checkSend period) = true

/-- the step is a reason to close the session -/
def Blames (s : ℕ) : Core × Step → Prop
  | (c, .managerClose id _ allow) =>
    c.actived.lookup id = some s ∨
      allow = false ∧ c.actived.lookup id = none ∧ c.reconnectCache.lookup id = some s
  | (c, .check t period checkRecv checkSend) => t = s ∧ c.Trips s period checkRecv checkSend
  | (_, .readError t) | (_, .refuse t) | (_, .expireIdle t) | (_, .expireReconnect t) => t = s
  | (_, .initReconnect _ old) => old = s
  | (_, .reset) => True
  | _ => False

/-- there was a step that is a reason to close the session, or its object or its owner is gone -/
def World.Cause (w : World) (s : ℕ) : Prop :=
  (∃ x ∈ w.history, Blames s x) ∨ (w.sess s).owner = false ∨ (w.sess s).proto.flags.closing = true

/-! ## Steps -/

def World.modSess (s : ℕ) (f : Session → Session) (w : World) : World := w.setSess s (f (w.sess s))

def World.recorded (step : Step) (w : World) : World := { w with history := w.history ++ [(w.toCore, step)] }

def Session.markClosing (x : Session) : Session := x.setFlags { x.flags with closing := true }

def Session.setWaiting (b : Bool) (x : Session) : Session := x.setFlags { x.flags with waitReconnect := b }

def Session.setRegistered (b : Bool) (x : Session) : Session := x.setFlags { x.flags with registered := b }

/-- a timer and a cache entry for a session that waits for a reconnect -/
def World.startWait (s : ℕ) (w : World) : World :=
  { w.modSess s (Session.setWaiting true) with
    reconnectTimeout := w.reconnectTimeout ++ [(w.now + w.conf.reconnectTimeout, s)]
    reconnectCache := w.reconnectCache.insert (w.sess s).id s }

def World.dropActived (id : UInt64) (w : World) : World := { w with actived := w.actived.erase id }

def World.dropCached (id : UInt64) (w : World) : World := { w with reconnectCache := w.reconnectCache.erase id }

/-- a notice of the session was posted -/
def World.noticed (s : ℕ) (body : SsBody) (len : ℕ) (ret : ℤ) (w : World) : World :=
  { w.modSess s (fun x => x.setLimit (x.limit.addRecv len)) with
    sent := w.sent ++ [⟨some s, (w.sess s).id, (w.sess s).router, body, ret⟩] }

section access

variable {s t : ℕ} {f : Session → Session} {w : World}

@[simp] theorem World.modSess_sess : (w.modSess s f).sess s = f (w.sess s) := Function.update_self ..

theorem World.modSess_sess_ne (h : t ≠ s) : (w.modSess s f).sess t = w.sess t := Function.update_of_ne h ..

theorem World.modSess_modSess (g : Session → Session) : (w.modSess s f).modSess s g = w.modSess s fun x => g (f x) := by
  unfold World.modSess
  rw [World.setSess_sess, World.setSess_setSess]

@[simp] theorem World.noticed_sess (body : SsBody) (len : ℕ) (ret : ℤ) :
    (w.noticed s body len ret).sess s = (w.sess s).setLimit ((w.sess s).limit.addRecv len) := Function.update_self ..

theorem World.noticed_sess_ne (h : t ≠ s) (body : SsBody) (len : ℕ) (ret : ℤ) :
    (w.noticed s body len ret).sess t = w.sess t := Function.update_of_ne h ..

end access

/-- the session apart from its limits, its socket and its object: only bytes are counted, written or queued -/
structure Session.Light (x y : Session) : Prop where
  id : y.id = x.id
  router : y.router = x.router
  owner : y.owner = x.owner
  peer : y.peer = x.peer
  privateData : y.privateData = x.privateData
  flags : y.flags = { x.flags with writingFd := y.flags.writingFd }
  reading : y.stream.reading = x.stream.reading
  closing : y.proto.flags.closing = x.proto.flags.closing
  done : y.proto.flags.handshakeDone = x.proto.flags.handshakeDone
  recvTimes : y.limit.total.recvTimes = x.limit.total.recvTimes

/-- a session that the servers know has ended its handshake -/
def Core.Known (w : Core) : Prop :=
  ∀ s, (w.sess s).flags.registered = true → (w.sess s).proto.flags.handshakeDone = true

/-- closings of sessions in `S` -/
inductive Shut (S : Set ℕ) : World → World → Prop where
  | refl (w : World) : Shut S w w
  | trans {w w₁ w₂ : World} : Shut S w w₁ → Shut S w₁ w₂ → Shut S w w₂
  | check {w : World} (s : ℕ) (period : Period) (checkRecv checkSend : Bool) :
      Shut S w (w.recorded (.check s period checkRecv checkSend))
  /-- a `session_manager::close` that finds nothing -/
  | miss {w : World} {id : UInt64} {allow : Bool} (reason : ℤ) : w.Known → w.actived.lookup id = none →
      (allow = true ∨ w.reconnectCache.lookup id = none) → Shut S w (w.recorded (.managerClose id reason allow))
  | wrote {w : World} (n : ℕ) : Shut S w { w with writes := n }
  | light {w : World} {s : ℕ} {x : Session} : s ∈ S → (w.sess s).Light x → Shut S w (w.setSess s x)
  /-- the object of a session without a socket is closed -/
  | object {w : World} {s : ℕ} {p : Proto} : s ∈ S → (w.sess s).flags.hasFd = false → p.flags.closing = true →
      p.flags.handshakeDone = (w.sess s).proto.flags.handshakeDone → Shut S w (w.setSess s { w.sess s with proto := p })
  /-- `session::close` of a connected session -/
  | close {w w₁ : World} {s : ℕ} : s ∈ S → w.Cause s → (w.sess s).flags.closing = false → (w.sess s).flags.hasFd = true →
      (w.sess s).flags.closingFd = false → Shut S (w.modSess s fun x => x.markClosing.loseFd) w₁ →
      (w₁.sess s).proto.flags.closing = true → Shut S w (w₁.modSess s Session.dropOwner)
  /-- `session::close` of a session without a socket -/
  | closeDead {w : World} {s : ℕ} : s ∈ S → w.Cause s → (w.sess s).flags.closing = false →
      ¬ ((w.sess s).flags.hasFd = true ∧ (w.sess s).flags.closingFd = false) → Shut S w (w.modSess s Session.markClosing)
  /-- `send_remove_session` -/
  | remove {w w₁ : World} {s len : ℕ} {ret : ℤ} : s ∈ S → (w.sess s).flags.registered = true →
      (w.sess s).flags.reconnected = false → (w.sess s).flags.waitReconnect = false →
      Shut S (w.noticed s (.removeSession (w.sess s).peer) len ret) w₁ →
      Shut S w (if ret = 0 then w₁.modSess s (Session.setRegistered false) else w₁)
  /-- `session_manager::close` of a connected session that may reconnect -/
  | wait {w w₁ : World} {id : UInt64} {reason : ℤ} {s : ℕ} : w.Known → w.actived.lookup id = some s → s ∈ S →
      0 < w.conf.reconnectTimeout → (w.sess s).flags.hasFd = true → (w.sess s).flags.closingFd = false →
      Shut S (((w.recorded (.managerClose id reason true)).startWait s).modSess s Session.loseFd) w₁ →
      (w₁.sess s).proto.flags.closing = true → w₁.actived.lookup id = some s →
      Shut S w ((w₁.modSess s Session.dropOwner).dropActived id)
  /-- the same for a session without a socket -/
  | waitDead {w : World} {id : UInt64} {reason : ℤ} {s : ℕ} : w.Known → w.actived.lookup id = some s → s ∈ S →
      0 < w.conf.reconnectTimeout → ¬ ((w.sess s).flags.hasFd = true ∧ (w.sess s).flags.closingFd = false) →
      Shut S w (((w.recorded (.managerClose id reason true)).startWait s).dropActived id)
  /-- `session_manager::close` of a session that may not reconnect -/
  | drop {w w₁ : World} {id : UInt64} {reason : ℤ} {allow : Bool} {s : ℕ} : w.Known → w.actived.lookup id = some s → s ∈ S →
      ¬ (0 < w.conf.reconnectTimeout ∧ allow = true) → Shut S (w.recorded (.managerClose id reason allow)) w₁ →
      (w₁.sess s).flags.closing = true → w₁.actived.lookup id = some s → Shut S w (w₁.dropActived id)
  /-- `session_manager::close` of a session that waits for a reconnect -/
  | dropCached {w w₁ : World} {id : UInt64} {reason : ℤ} {s : ℕ} : w.Known → w.actived.lookup id = none →
      w.reconnectCache.lookup id = some s → s ∈ S → Shut S (w.recorded (.managerClose id reason false)) w₁ →
      (w₁.sess s).flags.closing = true → w₁.reconnectCache.lookup id = some s →
      Shut S w ((w₁.modSess s (Session.setWaiting false)).dropCached id)

/-! ## What closings can not do -/

/-- what stays of a session, and in which direction the rest changes -/
structure Session.Kept (x y : Session) : Prop where
  id : y.id = x.id
  router : y.router = x.router
  peer : y.peer = x.peer
  privateData : y.privateData = x.privateData
  inited : y.flags.inited = x.flags.inited
  reconnected : y.flags.reconnected = x.flags.reconnected
  reading : y.stream.reading = x.stream.reading
  done : y.proto.flags.handshakeDone = x.proto.flags.handshakeDone
  closing : x.flags.closing = true → y.flags.closing = true
  registered : y.flags.registered = true → x.flags.registered = true
  object : x.proto.flags.closing = true → y.proto.flags.closing = true

theorem Session.Kept.refl (x : Session) : x.Kept x := ⟨rfl, rfl, rfl, rfl, rfl, rfl, rfl, rfl, fun h => h, fun h => h, fun h => h⟩

theorem Session.Kept.trans {x y z : Session} (h : x.Kept y) (h' : y.Kept z) : x.Kept z :=
  ⟨h'.id.trans h.id, h'.router.trans h.router, h'.peer.trans h.peer, h'.privateData.trans h.privateData,
    h'.inited.trans h.inited, h'.reconnected.trans h.reconnected, h'.reading.trans h.reading, h'.done.trans h.done,
    h'.closing ∘ h.closing, h.registered ∘ h'.registered, h'.object ∘ h.object⟩

theorem Session.Light.kept {x y : Session} (h : x.Light y) : x.Kept y := by
  have hf := h.flags
  exact ⟨h.id, h.router, h.peer, h.privateData, by rw [hf], by rw [hf], h.reading, h.done,
    by rw [hf]; exact fun h => h, by rw [hf]; exact fun h => h, h.closing.trans⟩

theorem Session.kept_markClosing (x : Session) : x.Kept x.markClosing :=
  ⟨rfl, rfl, rfl, rfl, rfl, rfl, rfl, rfl, fun _ => rfl, fun h => h, fun h => h⟩

theorem Session.kept_loseFd (x : Session) : x.Kept x.loseFd := ⟨rfl, rfl, rfl, rfl, rfl, rfl, rfl, rfl, fun h => h, fun h => h, fun h => h⟩

theorem Session.kept_dropOwner (x : Session) : x.Kept x.dropOwner :=
  ⟨rfl, rfl, rfl, rfl, rfl, rfl, rfl, rfl, fun h => h, fun h => h, fun h => h⟩

theorem Session.kept_setWaiting (b : Bool) (x : Session) : x.Kept (x.setWaiting b) :=
  ⟨rfl, rfl, rfl, rfl, rfl, rfl, rfl, rfl, fun h => h, fun h => h, fun h => h⟩

theorem Session.kept_unregister (x : Session) : x.Kept (x.setRegistered false) :=
  ⟨rfl, rfl, rfl, rfl, rfl, rfl, rfl, rfl, fun h => h, fun h => absurd h Bool.false_ne_true, fun h => h⟩

theorem Session.kept_noticed (len : ℕ) (x : Session) : x.Kept (x.setLimit (x.limit.addRecv len)) :=
  ⟨rfl, rfl, rfl, rfl, rfl, rfl, rfl, rfl, fun h => h, fun h => h, fun h => h⟩

/-- what becomes of the socket: it is there or not as before, or it was lost and the owner with it -/
def Session.Socket (x y : Session) : Prop :=
  y.owner = x.owner ∧ y.flags.hasFd = x.flags.hasFd ∧ y.flags.closingFd = x.flags.closingFd ∧
      (x.flags.hasFd = true → y.proto.flags.closing = x.proto.flags.closing) ∧
      (x.flags.hasFd = true → x.flags.closingFd = false → y.flags.closing = x.flags.closing) ∨
    x.flags.hasFd = true ∧ y.flags.hasFd = false ∧ y.owner = false ∧ y.proto.flags.closing = true

theorem Session.Socket.refl (x : Session) : x.Socket x := .inl ⟨rfl, rfl, rfl, fun _ => rfl, fun _ _ => rfl⟩

/-- a change of a session that leaves the socket alone -/
theorem Session.Socket.of {x y : Session} (howner : y.owner = x.owner) (hfd : y.flags.hasFd = x.flags.hasFd)
    (hclosingFd : y.flags.closingFd = x.flags.closingFd) (hproto : y.proto = x.proto)
    (hclosing : y.flags.closing = x.flags.closing) : x.Socket y :=
  .inl ⟨howner, hfd, hclosingFd, fun _ => by rw [hproto], fun _ _ => hclosing⟩

theorem Session.Light.socket {x y : Session} (h : x.Light y) : x.Socket y := by
  have hf := h.flags
  exact .inl ⟨h.owner, by rw [hf], by rw [hf], fun _ => h.closing, fun _ _ => by rw [hf]⟩

theorem Session.socket_setWaiting (b : Bool) (x : Session) : x.Socket (x.setWaiting b) := .of rfl rfl rfl rfl rfl

theorem Session.socket_setRegistered (b : Bool) (x : Session) : x.Socket (x.setRegistered b) := .of rfl rfl rfl rfl rfl

theorem Session.socket_noticed (len : ℕ) (x : Session) : x.Socket (x.setLimit (x.limit.addRecv len)) := .of rfl rfl rfl rfl rfl

/-- the socket is lost, and `close` has run to its end -/
theorem Session.Socket.lost {x y : Session} (hfd : x.flags.hasFd = true) (hproto : y.proto.flags.closing = true)
    (hkept : y.flags.hasFd = false) : x.Socket y.dropOwner :=
  .inr ⟨hfd, hkept, rfl, hproto⟩

theorem Session.Socket.trans {x y z : Session} (h : x.Socket y) (h' : y.Socket z) (hkept : y.Kept z) : x.Socket z := by
  rcases h with ⟨howner, hfd, hclosingFd, hproto, hclosing⟩ | ⟨hfd, hlost, howner, hproto⟩
  · rcases h' with ⟨howner', hfd', hclosingFd', hproto', hclosing'⟩ | ⟨hfd', hlost', howner', hproto'⟩
    · exact .inl ⟨howner'.trans howner, hfd'.trans hfd, hclosingFd'.trans hclosingFd,
        fun h => (hproto' (hfd.trans h)).trans (hproto h),
        fun h hc => (hclosing' (hfd.trans h) (hclosingFd.trans hc)).trans (hclosing h hc)⟩
    · exact .inr ⟨hfd.symm.trans hfd', hlost', howner', hproto'⟩
  · rcases h' with ⟨howner', hfd', -, -⟩ | ⟨hfd', -, -, -⟩
    · exact .inr ⟨hfd, hfd'.trans hlost, howner'.trans howner, hkept.object hproto⟩
    · exact absurd (hlost.symm.trans hfd') Bool.false_ne_true

section steps

variable {w : World} {s t : ℕ} {S : Set ℕ}

theorem World.kept_setSess {x : Session} (h : (w.sess s).Kept x) (t : ℕ) : (w.sess t).Kept ((w.setSess s x).sess t) := by
  by_cases hts : t = s
  · subst hts
    rwa [World.setSess_sess]
  · rw [World.setSess_sess_ne hts]
    exact Session.Kept.refl _

theorem World.kept_modSess {f : Session → Session} (hf : ∀ x : Session, x.Kept (f x)) (w : World) (s t : ℕ) :
    (w.sess t).Kept ((w.modSess s f).sess t) := World.kept_setSess (hf _) t

theorem World.kept_startWait (w : World) (s t : ℕ) : (w.sess t).Kept ((w.startWait s).sess t) :=
  World.kept_setSess (Session.kept_setWaiting true _) t

theorem World.socket_setSess {x : Session} (h : (w.sess s).Socket x) (t : ℕ) :
    (w.sess t).Socket ((w.setSess s x).sess t) := by
  by_cases hts : t = s
  · subst hts
    rwa [World.setSess_sess]
  · rw [World.setSess_sess_ne hts]
    exact Session.Socket.refl _

/-- nothing but the direction of the changes is lost on the way -/
theorem Shut.kept {w w' : World} (h : Shut S w w') (t : ℕ) : (w.sess t).Kept (w'.sess t) := by
  induction h with
  | refl w => exact Session.Kept.refl _
  | trans _ _ ih ih' => exact ih.trans ih'
  | check | miss | wrote => exact Session.Kept.refl _
  | light _ hx => exact World.kept_setSess hx.kept t
  | object _ _ hclosing hdone =>
    refine World.kept_setSess ?_ t
    exact ⟨rfl, rfl, rfl, rfl, rfl, rfl, rfl, hdone, fun h => h, fun h => h, fun _ => hclosing⟩
  | close _ _ _ _ _ _ _ ih =>
    have hmark : ∀ x : Session, x.Kept x.markClosing.loseFd := fun x => x.kept_markClosing.trans (Session.kept_loseFd _)
    exact ((World.kept_modSess hmark _ _ t).trans ih).trans (World.kept_modSess Session.kept_dropOwner _ _ t)
  | closeDead => exact World.kept_modSess Session.kept_markClosing _ _ t
  | remove _ _ _ _ _ ih =>
    have hmid := (World.kept_modSess (Session.kept_noticed _) _ _ t).trans ih
    split_ifs
    · exact hmid.trans (World.kept_modSess Session.kept_unregister _ _ t)
    · exact hmid
  | @wait w _ id reason s _ _ _ _ _ _ _ _ _ ih =>
    have hwait : (w.sess t).Kept (((w.recorded (.managerClose id reason true)).startWait s).sess t) :=
      World.kept_startWait (w.recorded (.managerClose id reason true)) s t
    exact ((hwait.trans (World.kept_modSess Session.kept_loseFd _ _ t)).trans ih).trans
      (World.kept_modSess Session.kept_dropOwner _ _ t)
  | @waitDead w id reason s => exact World.kept_startWait (w.recorded (.managerClose id reason true)) s t
  | drop _ _ _ _ _ _ _ ih => exact ih
  | dropCached _ _ _ _ _ _ _ ih => exact ih.trans (World.kept_modSess (Session.kept_setWaiting false) _ _ t)

theorem World.socket_modSess {f : Session → Session} (hf : ∀ x : Session, x.Socket (f x)) (w : World) (s t : ℕ) :
    (w.sess t).Socket ((w.modSess s f).sess t) := World.socket_setSess (hf _) t

/-- a close whose socket was given up first: all of it from outside -/
theorem socket_closed {w₁ w₂ : World} {f : Session → Session} (hf : ∀ x, (f x).flags.hasFd = false)
    (hfd : (w.sess s).flags.hasFd = true) (hsame : ∀ t, t ≠ s → w₁.sess t = w.sess t) (hw₁ : w₁.sess s = f (w.sess s))
    (hsocket : ∀ t, (w₁.sess t).Socket (w₂.sess t)) (hproto : (w₂.sess s).proto.flags.closing = true) (t : ℕ) :
    (w.sess t).Socket ((w₂.modSess s Session.dropOwner).sess t) := by
  by_cases hts : t = s
  · subst hts
    rw [World.modSess_sess]
    refine Session.Socket.lost hfd hproto ?_
    rcases hsocket t with ⟨-, hfd', -, -⟩ | ⟨-, hlost, -, -⟩
    · rw [hfd', hw₁, hf]
    · exact hlost
  · rw [World.modSess_sess_ne hts, ← hsame t hts]
    exact hsocket t

theorem Shut.socket {w w' : World} (h : Shut S w w') (t : ℕ) : (w.sess t).Socket (w'.sess t) := by
  induction h generalizing t with
  | refl w => exact Session.Socket.refl _
  | trans _ h' ih ih' => exact (ih t).trans (ih' t) (h'.kept t)
  | check | miss | wrote => exact Session.Socket.refl _
  | light _ hx => exact World.socket_setSess hx.socket t
  | object _ hfd _ _ =>
    refine World.socket_setSess ?_ t
    exact .inl ⟨rfl, rfl, rfl, fun h => absurd (hfd.symm.trans h) Bool.false_ne_true, fun _ _ => rfl⟩
  | close _ _ _ hfd _ _ hproto ih =>
    exact socket_closed (f := fun x => x.markClosing.loseFd) (fun _ => rfl) hfd (fun _ hne => World.modSess_sess_ne hne)
      World.modSess_sess ih hproto t
  | closeDead _ _ _ hdead =>
    refine World.socket_setSess ?_ t
    exact .inl ⟨rfl, rfl, rfl, fun _ => rfl, fun hfd hclosing => absurd ⟨hfd, hclosing⟩ hdead⟩
  | remove _ _ _ _ h ih =>
    have hmid := (World.socket_modSess (Session.socket_noticed _) _ _ t).trans (ih t) (h.kept t)
    split_ifs
    · exact hmid.trans (World.socket_modSess (Session.socket_setRegistered false) _ _ t)
        (World.kept_modSess Session.kept_unregister _ _ t)
    · exact hmid
  | wait _ _ _ _ hfd _ _ hproto _ ih =>
    refine socket_closed (f := fun x => (x.setWaiting true).loseFd) (fun _ => rfl) hfd ?_ ?_ ih hproto t
    · exact fun t hne => (World.modSess_sess_ne hne).trans (World.modSess_sess_ne hne)
    · exact World.modSess_sess.trans (congrArg Session.loseFd World.modSess_sess)
  | @waitDead w id reason s =>
    exact World.socket_modSess (Session.socket_setWaiting true) w s t
  | drop _ _ _ _ _ _ _ ih => exact ih t
  | dropCached _ _ _ _ _ _ _ ih =>
    exact (ih t).trans (World.socket_modSess (Session.socket_setWaiting false) _ _ t)
      (World.kept_modSess (Session.kept_setWaiting false) _ _ t)

theorem Shut.outside {w w' : World} (h : Shut S w w') {t : ℕ} (ht : t ∉ S) : w'.sess t = w.sess t := by
  have hne : ∀ {s}, s ∈ S → t ≠ s := fun hs hts => ht (hts ▸ hs)
  induction h with
  | refl w => rfl
  | trans _ _ ih ih' => exact ih'.trans ih
  | check | miss | wrote => rfl
  | light hs => exact World.setSess_sess_ne (hne hs) _ _
  | object hs => exact World.setSess_sess_ne (hne hs) _ _
  | close hs _ _ _ _ _ _ ih => exact (World.modSess_sess_ne (hne hs)).trans (ih.trans (World.modSess_sess_ne (hne hs)))
  | closeDead hs => exact World.modSess_sess_ne (hne hs)
  | remove hs _ _ _ _ ih =>
    have hmid := ih.trans (World.noticed_sess_ne (hne hs) _ _ _)
    split_ifs
    · exact (World.modSess_sess_ne (hne hs)).trans hmid
    · exact hmid
  | wait _ _ hs _ _ _ _ _ _ ih =>
    refine (World.modSess_sess_ne (hne hs)).trans (ih.trans ?_)
    exact (World.modSess_sess_ne (hne hs)).trans (World.modSess_sess_ne (hne hs))
  | waitDead _ _ hs => exact World.modSess_sess_ne (hne hs)
  | drop _ _ _ _ _ _ _ ih => exact ih
  | dropCached _ _ _ hs _ _ _ ih => exact (World.modSess_sess_ne (hne hs)).trans ih

theorem Shut.mono {w w' : World} (h : Shut S w w') {S' : Set ℕ} (hS : S ⊆ S') : Shut S' w w' := by
  induction h with
  | refl w => exact .refl w
  | trans _ _ ih ih' => exact .trans ih ih'
  | check s period r d => exact .check s period r d
  | miss reason h₁ h₂ h₃ => exact .miss reason h₁ h₂ h₃
  | wrote n => exact .wrote n
  | light hs h₁ => exact .light (hS hs) h₁
  | object hs h₁ h₂ h₃ => exact .object (hS hs) h₁ h₂ h₃
  | close hs h₁ h₂ h₃ h₄ _ h₅ ih => exact .close (hS hs) h₁ h₂ h₃ h₄ ih h₅
  | closeDead hs h₁ h₂ h₃ => exact .closeDead (hS hs) h₁ h₂ h₃
  | remove hs h₁ h₂ h₃ _ ih => exact .remove (hS hs) h₁ h₂ h₃ ih
  | wait h₀ h₁ hs h₂ h₃ h₄ _ h₅ h₆ ih => exact .wait h₀ h₁ (hS hs) h₂ h₃ h₄ ih h₅ h₆
  | waitDead h₀ h₁ hs h₂ h₃ => exact .waitDead h₀ h₁ (hS hs) h₂ h₃
  | drop h₀ h₁ hs h₂ _ h₃ h₄ ih => exact .drop h₀ h₁ (hS hs) h₂ ih h₃ h₄
  | dropCached h₀ h₁ h₂ hs _ h₃ h₄ ih => exact .dropCached h₀ h₁ h₂ (hS hs) ih h₃ h₄

theorem lookup_of_erase {m : SessionMap} {k id : UInt64} {x : ℕ} (h : (m.erase id).lookup k = some x) :
    k ≠ id ∧ m.lookup k = some x := by
  by_cases hk : k = id
  · subst hk
    rw [AList.lookup_erase] at h
    exact absurd h (by simp)
  · rw [AList.lookup_erase_ne hk] at h
    exact ⟨hk, h⟩

theorem SessionMap.empty_elim {k : UInt64} {x : ℕ} {P : Prop} (h : (∅ : SessionMap).lookup k = some x) : P :=
  nomatch (AList.lookup_empty k).symm.trans h

/-- what closings of sessions in `S` leave of the maps and lists -/
structure World.Older (S : Set ℕ) (w w' : World) : Prop where
  conf : w'.conf = w.conf
  now : w'.now = w.now
  current : w'.current = w.current
  count : w'.count = w.count
  allocated : w'.allocated = w.allocated
  firstIdle : w'.firstIdle = w.firstIdle
  lastTickTime : w'.lastTickTime = w.lastTickTime
  actived : ∀ k x, w'.actived.lookup k = some x → w.actived.lookup k = some x
  cached : ∀ k x, w'.reconnectCache.lookup k = some x →
    w.reconnectCache.lookup k = some x ∨
      x ∈ S ∧ k = (w.sess x).id ∧ 0 < w.conf.reconnectTimeout ∧ ∃ j, w.actived.lookup j = some x
  timers : w.reconnectTimeout <+: w'.reconnectTimeout
  waits : ∀ t ∈ w'.reconnectTimeout, t ∈ w.reconnectTimeout ∨ ∃ j, w.actived.lookup j = some t.2
  history : w.history <+: w'.history
  sent : w.sent <+: w'.sent

theorem World.Older.of {w w' : World} (hconf : w'.conf = w.conf) (hnow : w'.now = w.now) (hcurrent : w'.current = w.current)
    (hcount : w'.count = w.count) (hallocated : w'.allocated = w.allocated) (hidle : w'.firstIdle = w.firstIdle)
    (htick : w'.lastTickTime = w.lastTickTime) (hactived : w'.actived = w.actived)
    (hcached : w'.reconnectCache = w.reconnectCache) (htimers : w'.reconnectTimeout = w.reconnectTimeout)
    (hhistory : w.history <+: w'.history) (hsent : w.sent <+: w'.sent) : w.Older S w' where
  conf := hconf
  now := hnow
  current := hcurrent
  count := hcount
  allocated := hallocated
  firstIdle := hidle
  lastTickTime := htick
  actived k x h := by rwa [hactived] at h
  cached k x h := .inl (by rwa [hcached] at h)
  timers := htimers ▸ List.prefix_refl _
  waits t ht := .inl (htimers ▸ ht)
  history := hhistory
  sent := hsent

theorem World.Older.lookup_none {w w' : World} (h : w.Older S w') {id : UInt64} (hid : w.actived.lookup id = none) :
    w'.actived.lookup id = none := by
  cases hlook : w'.actived.lookup id with
  | none => rfl
  | some x =>
    rw [h.actived id x hlook] at hid
    exact nomatch hid

theorem World.Older.trans {w w₁ w₂ : World} (h : w.Older S w₁) (h' : w₁.Older S w₂)
    (hid : ∀ x, (w₁.sess x).id = (w.sess x).id) : w.Older S w₂ where
  conf := h'.conf.trans h.conf
  now := h'.now.trans h.now
  current := h'.current.trans h.current
  count := h'.count.trans h.count
  allocated := h'.allocated.trans h.allocated
  firstIdle := h'.firstIdle.trans h.firstIdle
  lastTickTime := h'.lastTickTime.trans h.lastTickTime
  actived k x hx := h.actived k x (h'.actived k x hx)
  cached k x hx := by
    rcases h'.cached k x hx with hx | ⟨hs, hk, htimeout, j, hj⟩
    · exact h.cached k x hx
    · exact .inr ⟨hs, hk.trans (hid x), h.conf ▸ htimeout, j, h.actived j x hj⟩
  timers := h.timers.trans h'.timers
  waits t ht := by
    rcases h'.waits t ht with ht | ⟨j, hj⟩
    · exact h.waits t ht
    · exact .inr ⟨j, h.actived j _ hj⟩
  history := h.history.trans h'.history
  sent := h.sent.trans h'.sent

theorem World.Older.refl (w : World) : w.Older S w :=
  .of rfl rfl rfl rfl rfl rfl rfl rfl rfl rfl (List.prefix_refl _) (List.prefix_refl _)

theorem World.older_setSess (w : World) (s : ℕ) (x : Session) : w.Older S (w.setSess s x) :=
  .of rfl rfl rfl rfl rfl rfl rfl rfl rfl rfl (List.prefix_refl _) (List.prefix_refl _)

theorem World.older_recorded (w : World) (step : Step) : w.Older S (w.recorded step) :=
  .of rfl rfl rfl rfl rfl rfl rfl rfl rfl rfl (List.prefix_append _ _) (List.prefix_refl _)

theorem World.older_noticed (w : World) (s : ℕ) (body : SsBody) (len : ℕ) (ret : ℤ) :
    w.Older S (w.noticed s body len ret) :=
  .of rfl rfl rfl rfl rfl rfl rfl rfl rfl rfl (List.prefix_refl _) (List.prefix_append _ _)

theorem World.older_dropActived (w : World) (id : UInt64) : w.Older S (w.dropActived id) :=
  { World.Older.refl (S := S) w with
    actived := fun _ _ h => (lookup_of_erase h).2 }

theorem World.older_dropCached (w : World) (id : UInt64) : w.Older S (w.dropCached id) :=
  { World.Older.refl (S := S) w with
    cached := fun _ _ h => .inl (lookup_of_erase h).2 }

theorem World.older_startWait {w : World} {j : UInt64} (hj : w.actived.lookup j = some s) (hs : s ∈ S)
    (htimeout : 0 < w.conf.reconnectTimeout) : w.Older S (w.startWait s) :=
  { World.Older.refl (S := S) w with
    cached := by
      intro k x h
      by_cases hk : k = (w.sess s).id
      · subst hk
        rw [World.startWait, AList.lookup_insert] at h
        cases h
        exact .inr ⟨hs, rfl, htimeout, j, hj⟩
      · exact .inl ((AList.lookup_insert_ne hk).symm.trans h)
    timers := List.prefix_append _ _
    waits := by
      intro t ht
      rcases List.mem_append.1 ht with ht | ht
      · exact .inl ht
      · rw [List.mem_singleton.1 ht]
        exact .inr ⟨j, hj⟩ }

theorem Shut.older {w w' : World} (h : Shut S w w') : w.Older S w' := by
  induction h with
  | refl w => exact World.Older.refl w
  | trans h _ ih ih' => exact ih.trans ih' fun x => (h.kept x).id
  | check | miss => exact World.older_recorded _ _
  | wrote => exact .of rfl rfl rfl rfl rfl rfl rfl rfl rfl rfl (List.prefix_refl _) (List.prefix_refl _)
  | light => exact World.older_setSess _ _ _
  | object => exact World.older_setSess _ _ _
  | @close w w₁ s _ _ _ _ _ h _ ih =>
    have hmark : ∀ x : Session, x.Kept x.markClosing.loseFd := fun x => x.kept_markClosing.trans (Session.kept_loseFd _)
    refine (((w.older_setSess _ _).trans ih fun x => (World.kept_modSess hmark w s x).id)).trans (w₁.older_setSess _ _) ?_
    exact fun x => ((World.kept_modSess hmark w s x).trans (h.kept x)).id
  | closeDead => exact World.older_setSess _ _ _
  | @remove w w₁ s len ret _ _ _ _ h ih =>
    have hid : ∀ x, ((w.noticed s (.removeSession (w.sess s).peer) len ret).sess x).id = (w.sess x).id :=
      fun x => (World.kept_modSess (Session.kept_noticed len) w s x).id
    have hmid := (w.older_noticed _ _ _ _).trans ih hid
    split_ifs
    · exact hmid.trans (w₁.older_setSess _ _) fun x => ((h.kept x).id).trans (hid x)
    · exact hmid
  | @wait w w₁ id reason s _ hlook hs htimeout _ _ h _ _ ih =>
    have hstart : w.Older S ((w.recorded (.managerClose id reason true)).startWait s) :=
      (w.older_recorded _).trans (World.older_startWait hlook hs htimeout) fun _ => rfl
    have hid : ∀ x, ((((w.recorded (.managerClose id reason true)).startWait s).modSess s Session.loseFd).sess x).id =
        (w.sess x).id := fun x => ((World.kept_startWait (w.recorded _) s x).trans
          (World.kept_modSess Session.kept_loseFd _ s x)).id
    have hin := (hstart.trans (World.older_setSess _ _ _) fun x => (World.kept_startWait (w.recorded _) s x).id).trans ih hid
    have hid₁ : ∀ x, (w₁.sess x).id = (w.sess x).id := fun x => (h.kept x).id.trans (hid x)
    refine (hin.trans (w₁.older_setSess s _) hid₁).trans (World.older_dropActived _ _) fun x => ?_
    exact (World.kept_modSess Session.kept_dropOwner w₁ s x).id.trans (hid₁ x)
  | @waitDead w id reason s _ hlook hs htimeout =>
    refine ((w.older_recorded _).trans (World.older_startWait hlook hs htimeout) fun _ => rfl).trans (World.older_dropActived _ _) ?_
    exact fun x => (World.kept_startWait (w.recorded _) s x).id
  | drop _ _ _ _ h _ _ ih => exact ((World.older_recorded _ _).trans ih fun _ => rfl).trans (World.older_dropActived _ _) fun x => (h.kept x).id
  | @dropCached w w₁ id reason s _ _ _ _ h _ _ ih =>
    refine ((((w.older_recorded _).trans ih fun _ => rfl).trans (w₁.older_setSess s _) fun x => (h.kept x).id)).trans
      (World.older_dropCached _ _) fun x => ?_
    exact (World.kept_modSess (Session.kept_setWaiting false) w₁ s x).id.trans (h.kept x).id

/-! ## How many sessions are held -/

/-- the entries of both maps, as `on_evt_accept_tcp` counts them -/
def Core.held (w : Core) : ℕ := w.reconnectCache.entries.length + w.actived.entries.length

theorem SessionMap.length_keys (m : SessionMap) : m.keys.length = m.entries.length := List.length_map _

theorem SessionMap.length_erase_le (m : SessionMap) (k : UInt64) : (m.erase k).entries.length ≤ m.entries.length := by
  rw [← length_keys, ← length_keys, AList.keys_erase]
  exact List.erase_sublist.length_le

theorem SessionMap.length_erase {m : SessionMap} {k : UInt64} (h : m.lookup k = some s) :
    (m.erase k).entries.length + 1 = m.entries.length := by
  have hmem : k ∈ m.keys := AList.mem_keys.1 (AList.lookup_isSome.1 (Option.isSome_of_eq_some h))
  rw [← length_keys, ← length_keys, AList.keys_erase, List.length_erase_of_mem hmem]
  exact Nat.sub_add_cancel (List.length_pos_of_mem hmem)

theorem SessionMap.length_insert_le (m : SessionMap) (k : UInt64) (s : ℕ) :
    (m.insert k s).entries.length ≤ m.entries.length + 1 := by
  rw [← length_keys, ← length_keys, AList.keys_insert, List.length_cons]
  exact Nat.succ_le_succ List.erase_sublist.length_le

theorem World.held_dropActived {w : World} {id : UInt64} (h : w.actived.lookup id = some s) :
    (w.dropActived id).held + 1 = w.held := by
  unfold Core.held World.dropActived
  rw [add_assoc, SessionMap.length_erase h]

theorem World.held_dropCached (w : World) (id : UInt64) : (w.dropCached id).held ≤ w.held :=
  Nat.add_le_add_right (SessionMap.length_erase_le _ _) _

theorem World.held_startWait (w : World) (s : ℕ) : (w.startWait s).held ≤ w.held + 1 := by
  unfold Core.held World.startWait
  rw [add_right_comm]
  exact Nat.add_le_add_right (SessionMap.length_insert_le _ _ _) _

/-- closings move entries from one map to the other or erase them -/
theorem Shut.held {w w' : World} (h : Shut S w w') : w'.held ≤ w.held := by
  induction h with
  | refl w => exact le_rfl
  | trans _ _ ih ih' => exact ih'.trans ih
  | check | miss | wrote | light | object | closeDead => exact le_rfl
  | close _ _ _ _ _ _ _ ih => exact ih
  | remove _ _ _ _ _ ih =>
    split_ifs
    · exact ih
    · exact ih
  | @wait w w₁ id reason s _ _ _ _ _ _ _ _ hfound ih =>
    have hstart := ih.trans (World.held_startWait (w.recorded (.managerClose id reason true)) s)
    have hdrop := World.held_dropActived (w := w₁.modSess s Session.dropOwner) hfound
    exact Nat.le_of_succ_le_succ (hdrop.trans_le hstart)
  | @waitDead w id reason s _ hlook _ _ _ =>
    have hstart := World.held_startWait (w.recorded (.managerClose id reason true)) s
    have hdrop := World.held_dropActived (w := (w.recorded (.managerClose id reason true)).startWait s) hlook
    exact Nat.le_of_succ_le_succ (hdrop.trans_le hstart)
  | drop _ _ _ _ _ _ hfound ih => exact (Nat.le_of_succ_le (World.held_dropActived hfound).le).trans ih
  | dropCached _ _ _ _ _ _ _ ih => exact (World.held_dropCached _ _).trans ih

/-! ## Records -/

/-- the steps that closings record -/
def Records : Core × Step → Prop
  | (_, .check _ _ _ _) => True
  | (c, .managerClose _ _ _) => c.Known
  | _ => False

/-- only closings were recorded from `w` to `w'`, all at one time -/
def World.Recorded (w w' : World) : Prop := ∃ new, w'.history = w.history ++ new ∧ ∀ x ∈ new, Records x ∧ x.1.now = w.now

theorem World.Recorded.of {w w' : World} (h : w'.history = w.history) : w.Recorded w' :=
  ⟨[], h.trans (List.append_nil _).symm, fun _ hx => absurd hx List.not_mem_nil⟩

theorem World.Recorded.step {w w' : World} {step : Step} (h : w'.history = w.history ++ [(w.toCore, step)])
    (hx : Records (w.toCore, step)) : w.Recorded w' := ⟨_, h, fun _ hy => List.mem_singleton.1 hy ▸ ⟨hx, rfl⟩⟩

theorem World.Recorded.closing {w w' : World} {id : UInt64} {reason : ℤ} {allow : Bool}
    (h : w'.history = w.history ++ [(w.toCore, .managerClose id reason allow)]) (hknown : w.Known) : w.Recorded w' :=
  .step h hknown

theorem World.Recorded.trans {w w₁ w₂ : World} (h : w.Recorded w₁) (h' : w₁.Recorded w₂) (hnow : w₁.now = w.now) :
    w.Recorded w₂ := by
  obtain ⟨new, hnew, hrec⟩ := h
  obtain ⟨new', hnew', hrec'⟩ := h'
  refine ⟨new ++ new', by rw [hnew', hnew, List.append_assoc], fun x hx => (List.mem_append.1 hx).elim (hrec x) fun hx => ?_⟩
  exact ⟨(hrec' x hx).1, (hrec' x hx).2.trans hnow⟩

theorem Shut.recorded {w w' : World} (h : Shut S w w') : w.Recorded w' := by
  induction h with
  | refl w => exact .of rfl
  | trans h _ ih ih' => exact ih.trans ih' h.older.now
  | check => exact .step rfl trivial
  | miss _ hknown => exact .closing rfl hknown
  | wrote => exact .of rfl
  | light => exact .of rfl
  | object => exact .of rfl
  | close _ _ _ _ _ _ _ ih => exact ih
  | closeDead => exact .of rfl
  | remove _ _ _ _ _ ih =>
    split_ifs
    · exact ih
    · exact ih
  | wait hknown _ _ _ _ _ _ _ _ ih => exact (World.Recorded.closing rfl hknown).trans ih rfl
  | waitDead hknown => exact .closing rfl hknown
  | drop hknown _ _ _ _ _ _ ih => exact (World.Recorded.closing rfl hknown).trans ih rfl
  | dropCached hknown _ _ _ _ _ _ ih => exact (World.Recorded.closing rfl hknown).trans ih rfl

/-! ## Sockets and sessions that wait -/

/-- a session that waits for a reconnect has no socket -/
structure World.Steady (w : World) : Prop where
  socket : ∀ s, (w.sess s).flags.hasFd = true → (w.sess s).flags.closingFd = false
  cached : ∀ k s, w.reconnectCache.lookup k = some s → (w.sess s).flags.hasFd = false
  timers : ∀ t ∈ w.reconnectTimeout, (w.sess t.2).flags.hasFd = false

/-- no socket comes back -/
def Session.Dims (x y : Session) : Prop :=
  y.flags.hasFd = true → x.flags.hasFd = true ∧ (x.flags.closingFd = false → y.flags.closingFd = false)

theorem Session.Dims.of {x y : Session} (hfd : y.flags.hasFd = x.flags.hasFd)
    (hclosing : y.flags.closingFd = x.flags.closingFd) : x.Dims y := fun h => ⟨hfd.symm.trans h, hclosing.trans⟩

theorem Session.Dims.lost {x y : Session} (hfd : y.flags.hasFd = false) : x.Dims y :=
  fun h => absurd (hfd.symm.trans h) Bool.false_ne_true

theorem Session.Light.dims {x y : Session} (h : x.Light y) : x.Dims y := by
  have hf := h.flags
  exact .of (by rw [hf]) (by rw [hf])

theorem World.dims_setSess {x : Session} (h : (w.sess s).Dims x) (t : ℕ) : (w.sess t).Dims ((w.setSess s x).sess t) := by
  by_cases hts : t = s
  · subst hts
    rwa [World.setSess_sess]
  · rw [World.setSess_sess_ne hts]
    exact .of rfl rfl

theorem World.Steady.dims {w w' : World} (h : w.Steady) (hdims : ∀ t, (w.sess t).Dims (w'.sess t))
    (hcached : ∀ k s, w'.reconnectCache.lookup k = some s → w.reconnectCache.lookup k = some s ∨ (w'.sess s).flags.hasFd = false)
    (htimers : ∀ t ∈ w'.reconnectTimeout, t ∈ w.reconnectTimeout ∨ (w'.sess t.2).flags.hasFd = false) : w'.Steady where
  socket s hs := (hdims s hs).2 (h.socket s (hdims s hs).1)
  cached k s hk := by
    rcases hcached k s hk with hk | hlost
    · exact Bool.eq_false_iff.2 fun hs => Bool.false_ne_true ((h.cached k s hk).symm.trans (hdims s hs).1)
    · exact hlost
  timers t ht := by
    rcases htimers t ht with ht | hlost
    · exact Bool.eq_false_iff.2 fun hs => Bool.false_ne_true ((h.timers t ht).symm.trans (hdims t.2 hs).1)
    · exact hlost

theorem World.Steady.setSess {x : Session} (h : w.Steady) (hx : (w.sess s).Dims x) : (w.setSess s x).Steady :=
  h.dims (World.dims_setSess hx) (fun _ _ h => .inl h) fun _ h => .inl h

theorem World.Steady.modSess {f : Session → Session} (h : w.Steady) (hf : (w.sess s).Dims (f (w.sess s))) :
    (w.modSess s f).Steady := h.setSess hf

theorem World.Steady.recorded (h : w.Steady) (step : Step) : (w.recorded step).Steady := ⟨h.socket, h.cached, h.timers⟩

theorem World.Steady.dropActived (h : w.Steady) (id : UInt64) : (w.dropActived id).Steady := ⟨h.socket, h.cached, h.timers⟩

theorem World.Steady.dropCached (h : w.Steady) (id : UInt64) : (w.dropCached id).Steady :=
  ⟨h.socket, fun _ _ hk => h.cached _ _ (lookup_of_erase hk).2, h.timers⟩

theorem lookup_startWait {k : UInt64} {t : ℕ} (h : (w.startWait s).reconnectCache.lookup k = some t) :
    w.reconnectCache.lookup k = some t ∨ t = s := by
  by_cases hk : k = (w.sess s).id
  · subst hk
    rw [World.startWait, AList.lookup_insert] at h
    cases h
    exact .inr rfl
  · exact .inl ((AList.lookup_insert_ne hk).symm.trans h)

theorem mem_startWait {t : ℤ × ℕ} (h : t ∈ (w.startWait s).reconnectTimeout) : t ∈ w.reconnectTimeout ∨ t.2 = s := by
  rcases List.mem_append.1 h with h | h
  · exact .inl h
  · rw [List.mem_singleton.1 h]
    exact .inr rfl

theorem Shut.lost {w w' : World} (h : Shut S w w') (hs : (w.sess s).flags.hasFd = false) : (w'.sess s).flags.hasFd = false := by
  rcases h.socket s with ⟨-, hfd, -⟩ | ⟨-, hfd, -⟩
  · exact hfd.trans hs
  · exact hfd

theorem Shut.steady {w w' : World} (h : Shut S w w') (hw : w.Steady) : w'.Steady := by
  induction h with
  | refl w => exact hw
  | trans _ _ ih ih' => exact ih' (ih hw)
  | check | miss | wrote => exact hw.dims (fun _ => .of rfl rfl) (fun _ _ h => .inl h) fun _ h => .inl h
  | light _ hx => exact hw.setSess hx.dims
  | object => exact hw.setSess (.of rfl rfl)
  | @close w w₁ s _ _ _ _ _ h _ ih =>
    have hlost : ((w.modSess s fun x => x.markClosing.loseFd).sess s).flags.hasFd = false := by
      rw [World.modSess_sess]
      rfl
    exact (ih (hw.setSess (.lost rfl))).setSess (.lost (h.lost hlost))
  | closeDead => exact hw.setSess (.of rfl rfl)
  | @remove w w₁ s len ret _ _ _ _ _ ih =>
    have hnotice : (w.noticed s (.removeSession (w.sess s).peer) len ret).Steady :=
      hw.dims (World.dims_setSess (.of rfl rfl)) (fun _ _ h => .inl h) fun _ h => .inl h
    split_ifs
    · exact (ih hnotice).setSess (.of rfl rfl)
    · exact ih hnotice
  | @wait w w₁ id reason s _ _ _ _ _ _ h _ _ ih =>
    have hlost : ((((w.recorded (.managerClose id reason true)).startWait s).modSess s Session.loseFd).sess s).flags.hasFd =
        false := by
      rw [World.modSess_sess]
      rfl
    have hstart : (((w.recorded (.managerClose id reason true)).startWait s).modSess s Session.loseFd).Steady := by
      refine hw.dims (fun t => ?_) (fun k t hk => (lookup_startWait hk).imp_right ?_) fun t ht => (mem_startWait ht).imp_right ?_
      · by_cases hts : t = s
        · subst hts
          exact .lost hlost
        · rw [World.modSess_sess_ne hts, World.startWait, World.modSess_sess_ne hts]
          exact .of rfl rfl
      · rintro rfl
        exact hlost
      · rintro rfl
        exact hlost
    exact ((ih hstart).modSess (f := Session.dropOwner) (.lost (h.lost hlost))).dropActived _
  | @waitDead w id reason s _ _ _ _ hdead =>
    have hlost : (w.sess s).flags.hasFd = false := Bool.eq_false_iff.2 fun hfd => hdead ⟨hfd, hw.socket s hfd⟩
    have hlost' : (((w.recorded (.managerClose id reason true)).startWait s).sess s).flags.hasFd = false := by
      rw [World.startWait, World.modSess_sess]
      exact hlost
    refine hw.dims (World.dims_setSess (.of rfl rfl)) (fun k t hk => (lookup_startWait hk).imp_right ?_) fun t ht =>
      (mem_startWait ht).imp_right ?_
    · rintro rfl
      exact hlost'
    · rintro rfl
      exact hlost'
  | drop _ _ _ _ _ _ _ ih => exact (ih (hw.recorded _)).dropActived _
  | dropCached _ _ _ _ _ _ _ ih =>
    exact ((ih (hw.recorded _)).modSess (f := Session.setWaiting false) (.of rfl rfl)).dropCached _

/-! ## What closings need -/

/-- closings that start in `S` stay in `S`: the maps lead from the ids of its sessions into it -/
def Core.Scope (S : Set ℕ) (w : Core) : Prop :=
  ∀ y ∈ S, ∀ x, (w.actived.lookup (w.sess y).id = some x ∨ w.reconnectCache.lookup (w.sess y).id = some x) → x ∈ S

structure World.Ready (S : Set ℕ) (w : World) : Prop where
  scope : w.Scope S
  known : w.Known

theorem Core.Scope.univ (w : Core) : w.Scope Set.univ := fun _ _ _ _ => trivial

theorem World.Ready.univ {w : World} (h : w.Known) : w.Ready Set.univ := ⟨.univ w.toCore, h⟩

theorem Core.Known.kept {w w' : World} (h : w.Known) (hkept : ∀ t, (w.sess t).Kept (w'.sess t)) : w'.Known :=
  fun s hs => (hkept s).done.trans (h s ((hkept s).registered hs))

theorem World.Ready.after {w w' : World} (h : w.Ready S) (holder : w.Older S w') (hkept : ∀ t, (w.sess t).Kept (w'.sess t)) :
    w'.Ready S where
  scope y hy x hx := by
    rw [(hkept y).id] at hx
    rcases hx with hx | hx
    · exact h.scope y hy x (.inl (holder.actived _ x hx))
    · rcases holder.cached _ x hx with hx | ⟨hs, -⟩
      · exact h.scope y hy x (.inr hx)
      · exact hs
  known := h.known.kept hkept

theorem Shut.ready {w w' : World} (h : Shut S w w') (hw : w.Ready S) : w'.Ready S := hw.after h.older h.kept

theorem World.Ready.modSess {w : World} (h : w.Ready S) {f : Session → Session} (hf : ∀ x : Session, x.Kept (f x)) (s : ℕ) :
    (w.modSess s f).Ready S := h.after (w.older_setSess _ _) (World.kept_modSess hf w s)

theorem World.Ready.recorded {w : World} (h : w.Ready S) (step : Step) : (w.recorded step).Ready S :=
  h.after (w.older_recorded _) fun _ => Session.Kept.refl _

/-- a cause stays one -/
theorem World.Cause.shut {w w' : World} (hc : w.Cause s) (h : Shut S w w') : w'.Cause s := by
  rcases hc with ⟨x, hx, hblame⟩ | howner | hproto
  · exact .inl ⟨x, h.older.history.subset hx, hblame⟩
  · refine .inr (.inl ?_)
    rcases h.socket s with ⟨howner', -⟩ | ⟨-, -, howner', -⟩
    · exact howner'.trans howner
    · exact howner'
  · exact .inr (.inr ((h.kept s).object hproto))

end steps

end AtFrame.Gateway
