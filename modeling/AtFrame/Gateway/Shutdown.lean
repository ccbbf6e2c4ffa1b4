/-
A socket is shut down once, and only behind the last write.

Two places call `uv_shutdown`: `close_fd`, when the object is closed already, and `on_write_done`, when it is closed by then.
`Session.shutdowns` records each call with the flags of the object. A write that completes while the session still has its
socket and its object is closing (a kickoff or a bad frame of the client came before) leads to both: the object closes the
session from inside `write_done`, `close_fd` calls `uv_shutdown`, and `on_write_done` does so once more.

- `Session.Tidy`: what holds of a session whenever one of its functions returns, inside callbacks too;
- `Settling`: no session that lost its socket is touched by a call, and no call leaves a shutdown due;
- `reentry_settles`: the re-entrant functions, at every depth;
- `shutdown_once`: the statement over runs, `shutdown_twice`: a run with that write.

Premise (`Turn.Calm`, for each turn in the state before it): no write completes while its session has its socket and its object is
closing. Closes of the gateway itself may come at any point. The run may stop at an assertion; what was requested until then is
counted. Witness `shutdown_once_kick`.
-/
import AtFrame.Inner.Runs
import AtFrame.Gateway.NullOwner

namespace AtFrame.Gateway

open AtFrame.Lib

/-! ## The requests of one session -/

/-- one request at most, made when the object was closed and wrote nothing -/
def Session.Once (x : Session) : Prop :=
  x.shutdowns.length ≤ 1 ∧ ∀ f ∈ x.shutdowns, f.closed = true ∧ f.writing = false

/-- the shutdown is due and was not requested -/
def Session.Owes (x : Session) : Prop := x.flags.closingFd = true ∧ x.proto.flags.closed = true ∧ x.shutdowns = []

/-- what holds of a session at any time -/
structure Session.Tidy (x : Session) : Prop where
  once : x.Once
  requested : x.shutdowns ≠ [] → x.proto.flags.closed = true
  connected : x.flags.hasFd = true → x.flags.closingFd = false ∧ x.shutdowns = []
  leaving : x.flags.closingFd = true → x.proto.flags.closing = true
  pending : x.flags.writingFd = true → x.proto.flags.writing = true
  closed : x.proto.flags.closed = true → x.proto.flags.closing = true ∧ x.proto.flags.writing = false
  last : x.proto.flags.closing = true → x.proto.flags.closed = false → x.proto.flags.writing = true

/-- what a call leaves of a session: nothing happens to one without a socket, and no shutdown falls due -/
structure Session.Rests (x y : Session) : Prop where
  lost : x.flags.hasFd = false →
    y.flags.hasFd = false ∧ y.flags.closingFd = x.flags.closingFd ∧ y.shutdowns = x.shutdowns
  closed : x.proto.flags.closed = true → y.proto.flags.closed = true
  owes : y.Owes → x.Owes

theorem Session.Rests.refl (x : Session) : x.Rests x := ⟨fun h => ⟨h, rfl, rfl⟩, fun h => h, fun h => h⟩

theorem Session.Rests.trans {x y z : Session} (h : x.Rests y) (h' : y.Rests z) : x.Rests z := by
  refine ⟨fun hlost => ?_, fun hclosed => h'.closed (h.closed hclosed), fun howes => h.owes (h'.owes howes)⟩
  obtain ⟨h₁, h₂, h₃⟩ := h.lost hlost
  obtain ⟨h₁', h₂', h₃'⟩ := h'.lost h₁
  exact ⟨h₁', h₂'.trans h₂, h₃'.trans h₃⟩

/-- the same in all that `Tidy` and `Rests` look at -/
structure Session.Alike (x y : Session) : Prop where
  hasFd : x.flags.hasFd = y.flags.hasFd
  closingFd : x.flags.closingFd = y.flags.closingFd
  writingFd : x.flags.writingFd = y.flags.writingFd
  shutdowns : x.shutdowns = y.shutdowns
  writing : x.proto.flags.writing = y.proto.flags.writing
  closing : x.proto.flags.closing = y.proto.flags.closing
  closed : x.proto.flags.closed = y.proto.flags.closed

/-- what has to be the same for that -/
def Session.gist (x : Session) : List Bool × List ProtoFlags :=
  ([x.flags.hasFd, x.flags.closingFd, x.flags.writingFd, x.proto.flags.writing, x.proto.flags.closing, x.proto.flags.closed],
    x.shutdowns)

variable {x y z : Session}

theorem Session.Alike.of_eq (h : x.gist = y.gist) : x.Alike y := by
  simp only [Session.gist, Prod.mk.injEq, List.cons.injEq, and_true] at h
  obtain ⟨⟨h₁, h₂, h₃, h₄, h₅, h₆⟩, h₇⟩ := h
  exact ⟨h₁, h₂, h₃, h₇, h₄, h₅, h₆⟩

theorem Session.Alike.tidy (ha : x.Alike y) (h : y.Tidy) : x.Tidy where
  once := by
    rw [Session.Once, ha.shutdowns]
    exact h.once
  requested := by
    rw [ha.shutdowns, ha.closed]
    exact h.requested
  connected := by
    rw [ha.hasFd, ha.closingFd, ha.shutdowns]
    exact h.connected
  leaving := by
    rw [ha.closingFd, ha.closing]
    exact h.leaving
  pending := by
    rw [ha.writingFd, ha.writing]
    exact h.pending
  closed := by
    rw [ha.closed, ha.closing, ha.writing]
    exact h.closed
  last := by
    rw [ha.closing, ha.closed, ha.writing]
    exact h.last

theorem Session.Alike.rests (ha : x.Alike y) : y.Rests x where
  lost hlost := ⟨ha.hasFd.trans hlost, ha.closingFd, ha.shutdowns⟩
  closed hclosed := ha.closed.trans hclosed
  owes howes := ⟨ha.closingFd.symm.trans howes.1, ha.closed.symm.trans howes.2.1, ha.shutdowns.symm.trans howes.2.2⟩

/-- the request that is due -/
theorem Session.Tidy.shutdown (h : x.Tidy) (hlost : x.flags.hasFd = false) (hnone : x.shutdowns = []) :
    x.shutdownIfClosed.Tidy ∧ ¬ x.shutdownIfClosed.Owes := by
  unfold Session.shutdownIfClosed
  split_ifs with hclosed
  · have hone : x.shutdowns ++ [x.proto.flags] = [x.proto.flags] := by rw [hnone, List.nil_append]
    simp only [hone]
    refine ⟨⟨⟨le_rfl, fun f hf => ?_⟩, fun _ => hclosed, fun hfd => absurd (hlost.symm.trans hfd) Bool.false_ne_true, h.leaving,
      h.pending, h.closed, h.last⟩, fun howes => nomatch howes.2.2⟩
    rw [List.mem_singleton.1 hf]
    exact ⟨hclosed, (h.closed hclosed).2⟩
  · exact ⟨h, fun howes => hclosed howes.2.1⟩

theorem Session.proto_shutdownIfClosed (x : Session) : x.shutdownIfClosed.proto = x.proto := by
  unfold Session.shutdownIfClosed
  split_ifs <;> rfl

/-! ## The sessions of a world -/

/-- where a call that began in `w₀` may stand -/
structure Settling (w₀ w : World) : Prop where
  tidy : ∀ s, (w.sess s).Tidy
  rests : ∀ s, (w₀.sess s).Rests (w.sess s)

/-- what is left at a fault -/
def Fine (_ : Fault) (w : World) : Prop := ∀ s, (w.sess s).Once

variable {e : GwEnv} {rec : Reentry} {w w' w₀ w₁ : World} {s : ℕ}

theorem Settling.fine (h : Settling w₀ w) (fault : Fault) : Fine fault w := fun s => (h.tidy s).once

theorem Settling.refl (h : ∀ s, (w.sess s).Tidy) : Settling w w := ⟨h, fun _ => .refl _⟩

theorem Settling.trans (h : Settling w₀ w₁) (h' : Settling w₁ w) : Settling w₀ w :=
  ⟨h'.tidy, fun s => (h.rests s).trans (h'.rests s)⟩

theorem tidy_set (h : ∀ t, (w.sess t).Tidy) (hx : x.Tidy) (t : ℕ) : ((w.setSess s x).sess t).Tidy := by
  by_cases hts : t = s
  · rw [hts, World.setSess_sess]
    exact hx
  · rw [World.setSess_sess_ne hts]
    exact h t

/-- one session changes -/
theorem Settling.set (h : Settling w₀ w) (htidy : x.Tidy) (hrests : (w₀.sess s).Rests x) : Settling w₀ (w.setSess s x) := by
  refine ⟨tidy_set h.tidy htidy, fun t => ?_⟩
  · by_cases hts : t = s
    · rw [hts, World.setSess_sess]
      exact hrests
    · rw [World.setSess_sess_ne hts]
      exact h.rests t

theorem Settling.alike (h : Settling w₀ w) (hx : x.Alike (w.sess s)) : Settling w₀ (w.setSess s x) :=
  h.set (hx.tidy (h.tidy s)) ((h.rests s).trans hx.rests)

/-- nothing that concerns the sockets changes -/
theorem keeps_alike {f : Session → Session} (s : ℕ) (hf : ∀ x, (f x).gist = x.gist) :
    Keeps (Settling w₀) Fine (modifySess s f) := fun _ h => h.alike (.of_eq (hf _))

/-- no session changes -/
theorem keeps_sess {f : World → World} (hf : ∀ w, (f w).sess = w.sess) : Keeps (Settling w₀) Fine (modify f) := by
  intro w h
  rw [wp_modify]
  exact ⟨fun s => hf w ▸ h.tidy s, fun s => hf w ▸ h.rests s⟩

theorem keeps_record (step : Step) : Keeps (Settling w₀) Fine (record step) := fun _ h => ⟨h.tidy, h.rests⟩

theorem keeps_fault {α : Type} (fault : Fault) : Keeps (Settling w₀) Fine (throw fault : Prog Fault World α) :=
  fun _ h => h.fine fault

theorem keeps_getSess {α : Type} {f : Session → Prog Fault World α} (hf : ∀ x, Keeps (Settling w₀) Fine (f x)) :
    Keeps (Settling w₀) Fine (getSess s >>= f) := keeps_bind (fun _ h => h) hf

theorem sendData_settles (sender : Option ℕ) (target id : UInt64) (body : SsBody) :
    Keeps (Settling w₀) Fine (sendData e sender target id body) :=
  keeps_get fun _ => keeps_bind (keeps_sess fun _ => rfl) fun _ => keeps_pure _

theorem postData_settles (sender : Option ℕ) (target id : UInt64) (body : SsBody) :
    Keeps (Settling w₀) Fine (postData e sender target id body) := by
  unfold postData
  cases e.serialize id body with
  | none => exact keeps_pure _
  | some _ => exact sendData_settles _ _ _ _

theorem onNewSession_settles (s : ℕ) : Keeps (Settling w₀) Fine (onNewSession e s) := by
  have hinit : ∀ router, Keeps (Settling w₀) Fine (initNewSession e s router) := fun router =>
    keeps_bind (keeps_record _) fun _ => keeps_get fun _ => keeps_bind (keeps_sess fun _ => rfl) fun _ =>
      keeps_bind (keeps_alike s fun _ => rfl) fun _ => keeps_getSess fun _ =>
        keeps_ite (fun _ => keeps_bind (keeps_alike s fun _ => rfl) fun _ => keeps_pure _) fun _ => keeps_fault _
  exact keeps_get fun _ => keeps_bind (hinit _) fun _ => keeps_getSess fun _ => keeps_pure _

/-! ## The protocol object -/

/-- the functions that callbacks lead back to -/
structure Reentry.Settles (rec : Reentry) : Prop where
  close : ∀ w₀ s reason, Keeps (Settling w₀) Fine (rec.close s reason)
  onClose : ∀ w₀ s reason, Keeps (Settling w₀) Fine (rec.onClose s reason)
  onHandshakeDone : ∀ w₀ s status, Keeps (Settling w₀) Fine (rec.onHandshakeDone s status)
  onReconnect : ∀ w₀ s id, Keeps (Settling w₀) Fine (rec.onReconnect s id)

/-- a write that failed at once, before `write_done` is called for it -/
def Failed (w₀ : World) (s : ℕ) (w : World) : Prop :=
  Settling w₀ w ∧ (w.sess s).flags.writingFd = false ∧ (w.sess s).proto.flags.closing = false

/-- the object of one session changes -/
theorem Settling.object {p : Proto} (h : Settling w₀ w)
    (hpending : (w.sess s).flags.writingFd = true → p.flags.writing = true)
    (hclosing : (w.sess s).proto.flags.closing = true → p.flags.closing = true)
    (hkept : (w.sess s).proto.flags.closed = true → p.flags.closed = true)
    (hclosed : p.flags.closed = true → p.flags.closing = true ∧ p.flags.writing = false)
    (hlast : p.flags.closing = true → p.flags.closed = false → p.flags.writing = true)
    (hnew : p.flags.closed = true → (w.sess s).flags.closingFd = true → (w.sess s).proto.flags.closed = true) :
    Settling w₀ (w.setSess s { w.sess s with proto := p }) := by
  have htidy := h.tidy s
  refine h.set ⟨htidy.once, fun hr => hkept (htidy.requested hr), htidy.connected, fun hl => hclosing (htidy.leaving hl), hpending,
    hclosed, hlast⟩ ((h.rests s).trans ⟨fun hlost => ⟨hlost, rfl, rfl⟩, hkept, fun howes => ?_⟩)
  exact ⟨howes.1, hnew howes.2.1 howes.1, howes.2.2⟩

/-- the object becomes closed -/
theorem Settling.closed {p : Proto} (h : Settling w₀ w) (hopen : (w.sess s).proto.flags.closed = false)
    (hidle : (w.sess s).proto.flags.writing = false)
    (hp : p.flags = { (w.sess s).proto.flags with writing := false, closing := true, closed := true }) :
    Settling w₀ (w.setSess s { w.sess s with proto := p }) := by
  have htidy := h.tidy s
  -- an object that is closing is still writing its last message
  have hfree : (w.sess s).proto.flags.closing = false := by
    by_contra hclosing
    exact absurd (hidle.symm.trans (htidy.last (Bool.not_eq_false _ ▸ hclosing) hopen)) Bool.false_ne_true
  refine h.object (fun hpending => ?_) (fun _ => ?_) (fun _ => ?_) (fun _ => ?_) (fun _ hc => ?_) fun _ hleaving => ?_
  · exact absurd (hidle.symm.trans (htidy.pending hpending)) Bool.false_ne_true
  · rw [hp]
  · rw [hp]
  · rw [hp]
    exact ⟨rfl, rfl⟩
  · rw [hp] at hc
    exact absurd hc.symm Bool.false_ne_true
  · exact absurd (hfree.symm.trans (htidy.leaving hleaving)) Bool.false_ne_true

theorem onWrite_settling {p : Proto} (h : Settling w₀ w) (hopen : (w.sess s).proto.flags.closing = false)
    (hp : p.flags = { (w.sess s).proto.flags with writing := true }) (buf : Bytes) :
    wp (onWrite e s buf) (fun r w' => (r.2 = false → Settling w₀ w') ∧ (r.2 = true → Failed w₀ s w')) Fine
      (w.setSess s { w.sess s with proto := p }) := by
  have hset : Settling w₀ (w.setSess s { w.sess s with proto := p }) := by
    have hunclosed : (w.sess s).proto.flags.closed = false := by
      by_contra hc
      exact absurd (hopen.symm.trans ((h.tidy s).closed (Bool.not_eq_false _ ▸ hc)).1) Bool.false_ne_true
    refine h.object (fun _ => ?_) (fun hc => ?_) (fun hc => ?_) (fun hc => ?_) (fun _ _ => ?_) fun hc _ => ?_
    · rw [hp]
    · exact absurd (hopen.symm.trans hc) Bool.false_ne_true
    · exact absurd (hunclosed.symm.trans hc) Bool.false_ne_true
    · rw [hp] at hc
      exact absurd (hunclosed.symm.trans hc) Bool.false_ne_true
    · rw [hp]
    · rw [hp] at hc
      exact absurd (hunclosed.symm.trans hc) Bool.false_ne_true
  obtain ⟨u, hu⟩ : ∃ u, u = w.setSess s { w.sess s with proto := p } := ⟨_, rfl⟩
  have hsess : u.sess s = { w.sess s with proto := p } := hu ▸ World.setSess_sess ..
  rw [← hu] at hset ⊢
  have hwriting : (u.sess s).proto.flags.writing = true := by rw [hsess, hp]
  have hfree : (u.sess s).proto.flags.closing = false := by
    rw [hsess, hp]
    exact hopen
  have hflag : ∀ b n, Settling w₀ (World.setSess s ((u.sess s).setFlags { (u.sess s).flags with writingFd := b })
      { u with writes := n }) := by
    intro b n
    have htidy := hset.tidy s
    refine Settling.set (w := { u with writes := n }) ⟨hset.tidy, hset.rests⟩ ?_ ((hset.rests s).trans ?_)
    · exact ⟨htidy.once, htidy.requested, htidy.connected, htidy.leaving, fun _ => hwriting, htidy.closed, htidy.last⟩
    · exact ⟨fun hlost => ⟨hlost, rfl, rfl⟩, id, id⟩
  unfold onWrite
  simp only [wp_ite, wp_throw, wp_bind, wp_get, wp_modify, wp_modifySess, wp_getSess, wp_pure, World.setSess_sess]
  refine ⟨fun _ => hset.fine _, fun _ => ⟨fun _ => hflag _ _, fun hdone => ⟨hflag _ _, ?_, ?_⟩⟩⟩
  · rw [World.setSess_sess]
    exact Bool.not_eq_true' _ ▸ hdone
  · rw [World.setSess_sess]
    exact hfree

theorem Settling.fine_object (h : Settling w₀ w) (p : Proto) (fault : Fault) :
    Fine fault (w.setSess s { w.sess s with proto := p }) := by
  intro t
  by_cases hts : t = s
  · rw [hts, World.setSess_sess]
    exact (h.tidy s).once
  · rw [World.setSess_sess_ne hts]
    exact (h.tidy t).once

theorem gwHost_owned_settling (hrec : rec.Settles) : (gwHost e rec s).Owned (Settling w₀) (Failed w₀ s) Fine where
  quiet {w p} h hp := h.alike ⟨rfl, rfl, rfl, rfl, hp.writing, hp.closing, hp.closed⟩
  overflow p h := (h.elim (fun h => h) And.left).fine_object p _
  assertFail h := (h.elim (fun h => h) And.left).fine _
  errorFn f hf errcode errmsg w h := by
    cases hf
    exact h
  writeFn f hf w p buf h hopen _ hp := by
    cases hf
    exact onWrite_settling h hopen hp buf
  idle h _ := h.1
  release {w p} h _ _ hp := by
    obtain ⟨h, hdone, hopen⟩ := h
    have hclosed : (w.sess s).proto.flags.closed = false := by
      by_contra hc
      exact absurd (hopen.symm.trans ((h.tidy s).closed (Bool.not_eq_false _ ▸ hc)).1) Bool.false_ne_true
    refine h.object (fun hc => absurd (hdone.symm.trans hc) Bool.false_ne_true) (fun hc => ?_) (fun hc => ?_) (fun hc => ?_)
      (fun hc _ => ?_) fun hc _ => ?_ <;> rw [hp] at *
    · exact hc
    · exact hc
    · exact absurd (hclosed.symm.trans hc) Bool.false_ne_true
    · exact absurd (hopen.symm.trans hc) Bool.false_ne_true
    · exact hc
  closes {w p} h hstage hp := by
    refine h.object (fun hc => ?_) (fun _ => ?_) (fun hc => ?_) (fun hc => ?_) (fun _ hc => ?_) fun hc _ => ?_ <;> rw [hp] at *
    · exact (h.tidy s).pending hc
    · exact hc
    · exact ⟨rfl, ((h.tidy s).closed hc).2⟩
    · exact hstage.resolve_right fun hclosed => Bool.false_ne_true (hc.symm.trans hclosed)
    · exact hc
  closed {w} hopen h p hp := by
    refine ⟨fun h => (nomatch h), fun f hf reason => ?_⟩
    cases hf
    rcases h with ⟨h, -, hclosing⟩ | ⟨h, hidle⟩
    · exact absurd (h.2.2.symm.trans hclosing) Bool.false_ne_true
    · exact hrec.onClose w₀ s reason _ (h.closed hopen hidle hp)

section object

variable (hrec : rec.Settles)

include hrec

theorem gwHost_calm_settling (s : ℕ) : (gwHost e rec s).Calm (Settling w₀) Fine := (gwHost_owned_settling hrec).calm

theorem gwHost_respects_settling (s : ℕ) : (gwHost e rec s).Respects (Settling w₀) Fine Host.Guard.free where
  toCalm := gwHost_calm_settling hrec s
  nullConf h := h.fine _
  finishClose := (gwHost_owned_settling hrec).finishClose
  done {w p} h _ hp := by
    subst hp
    refine ⟨fun h => (nomatch h), fun f hf status _ => ?_⟩
    cases hf
    exact hrec.onHandshakeDone w₀ s status _ (h.alike (.of_eq rfl))
  updateFn f hf status w h := by
    cases hf
    exact h
  newSessionFn f hf id w h _ _ := by
    cases hf
    exact wp_post (onNewSession_settles s w h) fun _ _ h' => ⟨h', trivial⟩
  finishCalm := (gwHost_calm_settling hrec s).free
  finishCurrent _ := trivial
  start _ _ := trivial
  resume _ _ := trivial

theorem frame_settles (s : ℕ) (buffer : Bytes) (errcode : ℤ) :
    Keeps (Settling w₀) Fine (frame e rec s buffer errcode) := by
  have hrespects : (gwHost e rec s).Respects (Settling w₀) Fine Host.Guard.free := gwHost_respects_settling hrec s
  refine keeps_bind (keeps_record _) fun _ w hw => hrespects.dispatchData (hrespects.resumes ?_) hw fun type body _ => ?_
  · intro f hf id
    cases hf
    exact hrec.onReconnect w₀ s id
  · refine ⟨fun b _ => ⟨fun _ => trivial, fun _ => trivial, fun _ => trivial, fun g _ w' h _ => ⟨h.tidy, h.rests⟩,
      fun _ w' h => h.fine _⟩, fun _ w' h => h.fine _, fun f hf out len _ h _ => ?_⟩
    cases hf
    exact keeps_getSess (fun x => postData_settles _ _ _ _) w h

/-- the object of a session is closed behind `close` -/
theorem close_settling (reason : ℤ) (kick : Bool) (h : Settling w₀ w) : wp (close (gwHost e rec s) reason kick)
    (fun _ w' => Settling w₀ w' ∧ (w'.sess s).proto.flags.closing = true) Fine w := by
  refine (gwHost_calm_settling hrec s).close (fun _ h hclosing => ⟨h, hclosing⟩) (fun w h => ?_) reason kick h
  refine Host.finishClose_wp (fun hstage p hp => ⟨(gwHost_owned_settling hrec).closes h hstage hp, ?_⟩) fun hopen hidle p hp =>
    ⟨fun h => (nomatch h), fun f hf reason => ?_⟩
  · rw [World.setSess_sess, hp]
  · cases hf
    have hset : Settling w₀ (w.setSess s { w.sess s with proto := p }) := h.closed hopen hidle hp
    refine wp_post (hrec.onClose _ s reason _ (.refl hset.tidy)) fun _ w' h' => ⟨hset.trans h', ?_⟩
    refine ((h'.tidy s).closed ((h'.rests s).closed ?_)).1
    rw [World.setSess_sess, hp]

/-- **`close_fd`** calls `uv_shutdown` if the object is closed by then, and for the first time. -/
theorem closeFd_settles (s : ℕ) (reason : ℤ) : Keeps (Settling w₀) Fine (closeFd e rec s reason) := by
  intro w h
  unfold closeFd
  simp only [wp_bind, wp_getSess, wp_ite, wp_pure, wp_modifySess]
  refine ⟨fun _ => h, fun _ => ⟨fun hfd => ?_, fun _ => h⟩⟩
  have htidy := h.tidy s
  obtain ⟨hstay, hnone⟩ := htidy.connected hfd
  have hrests : ∀ x : Session, ((w.sess s).proto.flags.closed = true → x.proto.flags.closed = true) → ¬ x.Owes →
      (w₀.sess s).Rests x := fun x hclosed hpaid => (h.rests s).trans
    ⟨fun hno => absurd (hno.symm.trans hfd) Bool.false_ne_true, hclosed, fun howes => absurd howes hpaid⟩
  -- from here on the session has no socket, and no call touches it
  have hlose : Settling w₀ (w.setSess s (w.sess s).loseFd) := by
    refine h.set ?_ (hrests _ (fun h => h) fun howes => Bool.false_ne_true (hstay.symm.trans howes.1))
    exact ⟨htidy.once, htidy.requested, fun h => absurd h Bool.false_ne_true, htidy.leaving, htidy.pending, htidy.closed, htidy.last⟩
  refine wp_post (close_settling hrec reason true (.refl hlose.tidy)) fun _ w₁ ⟨h₁, hclosing⟩ => ?_
  have hsess : (w.setSess s (w.sess s).loseFd).sess s = (w.sess s).loseFd := World.setSess_sess ..
  have h₁s := h₁.rests s
  rw [hsess] at h₁s
  obtain ⟨hlost, -, hnone₁⟩ := h₁s.lost rfl
  rw [World.setSess_sess, World.setSess_setSess]
  have hdrop : (w₁.sess s).dropOwner.Tidy :=
    { h₁.tidy s with
      connected := fun hfd => absurd (hlost.symm.trans hfd) Bool.false_ne_true
      leaving := fun _ => hclosing }
  obtain ⟨hrequest, hpaid⟩ := hdrop.shutdown hlost (hnone₁.trans hnone)
  refine (hlose.trans h₁).set hrequest (hrests _ (fun hclosed => ?_) hpaid)
  rw [Session.proto_shutdownIfClosed]
  exact h₁s.closed hclosed

/-! ## The functions of the sessions -/

theorem limitCheck_settles (s : ℕ) (check : Bool) (exceeded : GwConf → Limit → Bool) :
    Keeps (Settling w₀) Fine (limitCheck rec s check exceeded) :=
  keeps_ite (fun _ => keeps_getSess fun _ => keeps_ite (fun _ => keeps_get fun _ =>
    keeps_ite (fun _ => keeps_bind (hrec.close _ _ _) fun _ => keeps_pure _) fun _ => keeps_pure _) fun _ => keeps_fault _)
    fun _ => keeps_pure _

theorem checkLimits_settles (s : ℕ) (checkRecv checkSend : Bool) :
    Keeps (Settling w₀) Fine (checkLimits e rec s checkRecv checkSend) := by
  have hfour : ∀ (c : Bool → Bool → GwConf → Limit → Bool), Keeps (Settling w₀) Fine (do
      limitCheck rec s checkRecv (c false false)
      limitCheck rec s checkRecv (c false true)
      limitCheck rec s checkSend (c true false)
      limitCheck rec s checkSend (c true true)) := fun c =>
    keeps_bind (limitCheck_settles hrec _ _ _) fun _ => keeps_bind (limitCheck_settles hrec _ _ _) fun _ =>
      keeps_bind (limitCheck_settles hrec _ _ _) fun _ => limitCheck_settles hrec _ _ _
  have hkey : Keeps (Settling w₀) Fine (updateKey e rec s) :=
    keeps_get fun _ => keeps_getSess fun _ => keeps_ite (fun _ => keeps_bind (keeps_alike s fun _ => rfl) fun _ =>
      keeps_bind (fun _ h => (gwHost_respects_settling hrec s).sendKeySyn h fun _ _ => trivial) fun _ => keeps_pure _)
      fun _ => keeps_pure _
  refine keeps_bind (keeps_bind (keeps_record _) fun _ => ?_) fun _ => keeps_bind (keeps_bind (keeps_record _) fun _ => ?_)
    fun _ => keeps_bind (keeps_record _) fun _ => ?_
  · exact keeps_get fun _ => keeps_getSess fun _ => keeps_ite (fun _ => keeps_alike s fun _ => rfl) fun _ =>
      keeps_ite (fun _ => keeps_pure _) fun _ => keeps_ite (fun _ => keeps_pure _) fun _ => hfour hourExceeded
  · exact keeps_get fun _ => keeps_getSess fun _ => keeps_ite (fun _ => keeps_alike s fun _ => rfl) fun _ =>
      keeps_ite (fun _ => keeps_pure _) fun _ => keeps_ite (fun _ => keeps_pure _) fun _ =>
        keeps_ite (fun _ => keeps_bind (hrec.close _ _ _) fun _ => keeps_pure _) fun _ => hkey
  · exact keeps_getSess fun _ => keeps_ite (fun _ => keeps_pure _) fun _ => keeps_ite (fun _ => keeps_pure _) fun _ =>
      hfour totalExceeded

theorem sendToServer_settles (s : ℕ) (body : SsBody) (mgr : Bool) :
    Keeps (Settling w₀) Fine (sendToServer e rec s body mgr) := by
  refine keeps_getSess fun x => keeps_ite (fun _ => keeps_pure _) fun _ => keeps_ite (fun _ => keeps_pure _) fun _ => ?_
  cases e.serialize x.id body with
  | none => exact keeps_pure _
  | some len => exact keeps_bind (keeps_alike s fun _ => rfl) fun _ => keeps_bind (sendData_settles _ _ _ _) fun _ =>
      keeps_bind (checkLimits_settles hrec s true false) fun _ => keeps_pure _

theorem sendNewSession_settles (s : ℕ) : Keeps (Settling w₀) Fine (sendNewSession e rec s) :=
  keeps_getSess fun _ => keeps_ite (fun _ => keeps_pure _) fun _ => keeps_bind (sendToServer_settles hrec s _ _) fun _ =>
    keeps_bind (keeps_ite (fun _ => keeps_alike s fun _ => rfl) fun _ => keeps_pure _) fun _ => keeps_pure _

theorem sendRemoveSession_settles (s : ℕ) (mgr : Bool) : Keeps (Settling w₀) Fine (sendRemoveSession e rec s mgr) :=
  keeps_getSess fun _ => keeps_ite (fun _ => keeps_pure _) fun _ => keeps_bind (sendToServer_settles hrec s _ _) fun _ =>
    keeps_bind (keeps_ite (fun _ => keeps_alike s fun _ => rfl) fun _ => keeps_pure _) fun _ => keeps_pure _

theorem closeWithManager_settles (s : ℕ) (reason : ℤ) (mgr : Bool) :
    Keeps (Settling w₀) Fine (closeWithManager e rec s reason mgr) := by
  refine keeps_getSess fun _ => keeps_bind (keeps_ite (fun _ => keeps_bind (sendRemoveSession_settles hrec s mgr) fun _ =>
    keeps_pure _) fun _ => keeps_pure _) fun _ => keeps_getSess fun _ => keeps_ite (fun _ => keeps_pure _) fun _ => ?_
  exact keeps_bind (keeps_alike s fun _ => rfl) fun _ => closeFd_settles hrec s reason

theorem sessionClose_settles (s : ℕ) (reason : ℤ) : Keeps (Settling w₀) Fine (sessionClose e rec s reason) :=
  keeps_getSess fun _ => closeWithManager_settles hrec s reason _

omit hrec in
theorem eraseActived_settles (id : UInt64) (s : ℕ) : Keeps (Settling w₀) Fine (eraseActived id s) :=
  keeps_get fun _ => keeps_ite (fun _ => keeps_sess fun _ => rfl) fun _ => keeps_fault _

omit hrec in
theorem eraseCache_settles (id : UInt64) (s : ℕ) : Keeps (Settling w₀) Fine (eraseCache id s) :=
  keeps_get fun _ => keeps_ite (fun _ => keeps_sess fun _ => rfl) fun _ => keeps_fault _

theorem managerClose_settles (id : UInt64) (reason : ℤ) (allowReconnect : Bool) :
    Keeps (Settling w₀) Fine (managerClose e rec id reason allowReconnect) := by
  refine keeps_bind (keeps_record _) fun _ => keeps_get fun w => ?_
  cases w.actived.lookup id with
  | none =>
    refine keeps_ite (fun _ => keeps_pure _) fun _ => keeps_get fun w => ?_
    cases w.reconnectCache.lookup id with
    | none => exact keeps_pure _
    | some s => exact keeps_bind (sessionClose_settles hrec s reason) fun _ => keeps_bind (keeps_alike s fun _ => rfl) fun _ =>
        keeps_bind (eraseCache_settles id s) fun _ => keeps_pure _
  | some s =>
    refine keeps_bind (keeps_ite (fun _ => ?_) fun _ => sessionClose_settles hrec s reason) fun _ =>
      keeps_bind (eraseActived_settles id s) fun _ => keeps_pure _
    exact keeps_bind (keeps_sess fun _ => rfl) fun _ => keeps_bind (keeps_sess fun _ => rfl) fun _ =>
      keeps_bind (keeps_alike s fun _ => rfl) fun _ => closeFd_settles hrec s reason

theorem onClose_settles (s : ℕ) (reason : ℤ) : Keeps (Settling w₀) Fine (onClose e rec s reason) := by
  have hclose : Keeps (Settling w₀) Fine (sessionClose e rec s reason >>= fun _ => pure (0 : ℤ)) :=
    keeps_bind (sessionClose_settles hrec s reason) fun _ => keeps_pure _
  exact keeps_getSess fun _ => keeps_ite (fun _ => keeps_pure _) fun _ => keeps_ite
    (fun _ => keeps_bind (managerClose_settles hrec _ _ _) fun _ => keeps_ite (fun _ => hclose) fun _ => keeps_pure _) fun _ => hclose

theorem onHandshakeDone_settles (s : ℕ) (status : ℤ) : Keeps (Settling w₀) Fine (onHandshakeDone e rec s status) := by
  have hactive : Keeps (Settling w₀) Fine (activeSession e rec s) := by
    refine keeps_bind (keeps_record _) fun _ => keeps_get fun _ => keeps_bind (keeps_ite (fun _ => ?_) fun _ => keeps_pure _) fun _ =>
      keeps_bind (sendNewSession_settles hrec s) fun _ => keeps_ite (fun _ => keeps_pure _) fun _ =>
        keeps_bind (keeps_sess fun _ => rfl) fun _ => keeps_pure _
    exact keeps_bind (managerClose_settles hrec _ _ _) fun _ => keeps_pure _
  exact keeps_bind (keeps_record _) fun _ => keeps_ite (fun _ => keeps_bind hactive fun _ => keeps_pure _) fun _ => keeps_pure _

theorem checkOld_settles (s old : ℕ) : Keeps (Settling w₀) Fine (checkOld e rec s old) :=
  keeps_getSess fun o => keeps_bind ((gwHost_calm_settling hrec s).toStill.checkReconnect o.proto) fun _ =>
    keeps_bind (keeps_record _) fun _ => keeps_pure _

theorem onReconnect_settles (s : ℕ) (oldId : UInt64) : Keeps (Settling w₀) Fine (onReconnect e rec s oldId) := by
  have hold : Keeps (Settling w₀) Fine (closeOldConnection e rec s oldId) := by
    refine keeps_get fun w => ?_
    split
    · exact keeps_bind (checkOld_settles hrec s _) fun _ => keeps_bind (keeps_ite (fun _ =>
        keeps_bind (managerClose_settles hrec _ _ _) fun _ => keeps_pure _) fun _ => keeps_pure _) fun _ => keeps_pure _
    · exact keeps_pure _
  have hinit : ∀ old, Keeps (Settling w₀) Fine (initReconnect s old) := fun old =>
    keeps_bind (keeps_record _) fun _ => keeps_get fun _ => keeps_getSess fun _ => keeps_bind (keeps_alike s fun _ => rfl) fun _ =>
      keeps_getSess fun _ => keeps_ite (fun _ => keeps_bind (keeps_alike s fun _ => rfl) fun _ =>
        keeps_bind (keeps_alike s fun _ => rfl) fun _ => keeps_alike old fun _ => rfl)
        fun _ => keeps_fault _
  refine keeps_getSess fun _ => keeps_ite (fun _ => keeps_pure _) fun _ => keeps_bind (keeps_record _) fun _ =>
    keeps_bind hold fun _ => keeps_get fun w => ?_
  cases w.reconnectCache.lookup oldId with
  | none => exact keeps_pure _
  | some old =>
    refine keeps_getSess fun _ => keeps_ite (fun _ => keeps_pure _) fun _ => keeps_ite (fun _ => keeps_pure _) fun _ =>
      keeps_bind (keeps_ite (fun _ => keeps_pure _) fun _ => checkOld_settles hrec s old) fun _ =>
        keeps_ite (fun _ => keeps_pure _) fun _ => ?_
    exact keeps_bind (hinit old) fun _ => keeps_bind (sessionClose_settles hrec old _) fun _ =>
      keeps_bind (eraseCache_settles oldId old) fun _ => keeps_bind (keeps_record _) fun _ => keeps_pure _

end object

/-- **The re-entrant functions**, at every depth. -/
theorem reentry_settles (e : GwEnv) (n : ℕ) : (reentry e n).Settles := by
  induction n with
  | zero => exact ⟨fun _ _ _ => keeps_fault _, fun _ _ _ => keeps_fault _, fun _ _ _ => keeps_fault _, fun _ _ _ => keeps_fault _⟩
  | succ n ih => exact
    { close := fun _ s reason => sessionClose_settles ih s reason
      onClose := fun _ s reason => onClose_settles ih s reason
      onHandshakeDone := fun _ s status => onHandshakeDone_settles ih s status
      onReconnect := fun _ s id => onReconnect_settles ih s id }

/-! ## Events -/

/-- between two events no session owes a shutdown -/
structure World.Settled (w : World) : Prop where
  tidy : ∀ s, (w.sess s).Tidy
  paid : ∀ s, ¬ (w.sess s).Owes

theorem Settling.settled (h : Settling w w') (hw : w.Settled) : w'.Settled :=
  ⟨h.tidy, fun s howes => hw.paid s ((h.rests s).owes howes)⟩

theorem World.Settled.of_keeps {α : Type} {m : Prog Fault World α} (hw : w.Settled) (hm : Keeps (Settling w) Fine m) :
    wp m (fun _ w' => w'.Settled) Fine w := wp_post (hm w (.refl hw.tidy)) fun _ _ h => h.settled hw

theorem World.Settled.set (hw : w.Settled) (htidy : x.Tidy) (hpaid : ¬ x.Owes) : (w.setSess s x).Settled := by
  refine ⟨tidy_set hw.tidy htidy, fun t => ?_⟩
  by_cases hts : t = s
  · rw [hts, World.setSess_sess]
    exact hpaid
  · rw [World.setSess_sess_ne hts]
    exact hw.paid t

/-- a session that has just been accepted -/
theorem World.Settled.accepted (hw : w.Settled) (seed : ℕ) (fd : Bool) (peer : Peer) : (w.accepted e seed fd peer).Settled := by
  have hnew : (w.setSess w.count (Session.accepted e w.conf seed fd peer)).Settled := by
    refine hw.set ⟨⟨Nat.zero_le _, fun f hf => absurd hf List.not_mem_nil⟩, fun h => absurd rfl h, fun _ => ⟨rfl, rfl⟩,
      fun h => ?_, fun h => ?_, fun h => ?_, fun h => ?_⟩ fun h => absurd h.1 Bool.false_ne_true
    all_goals exact absurd h Bool.false_ne_true
  exact ⟨hnew.tidy, hnew.paid⟩

/-- the write of session `s` completes while it has its socket and its object is closing -/
def World.Recloses (w : World) (s : ℕ) : Prop :=
  (w.sess s).flags.writingFd = true ∧ (w.sess s).flags.hasFd = true ∧ (w.sess s).proto.flags.closing = true

section events

variable (hrec : rec.Settles)

include hrec

theorem acceptTcp_settled (hw : w.Settled) (seed : ℕ) (peer : Peer) (initRes acceptRes : ℤ) :
    wp (acceptTcp e rec seed peer initRes acceptRes) (fun _ w' => w'.Settled) Fine w := by
  have hcreate : wp (createSession e seed) (fun s w' => s = w.count ∧ w' = w.accepted e seed false {}) Fine w := ⟨rfl, rfl⟩
  unfold acceptTcp acceptSession
  rw [wp_bind]
  refine wp_post hcreate fun s w₁ ⟨hs, hw₁⟩ => ?_
  subst hs hw₁
  rw [wp_bind]
  refine wp_post (acceptSocket_wp seed peer initRes acceptRes) fun res w₂ ⟨fd, peer', hw₂, _⟩ => ?_
  subst hw₂
  refine (hw.accepted seed fd peer').of_keeps (keeps_get fun _ => keeps_ite (fun _ => ?_) fun _ => ?_)
  · exact keeps_bind (keeps_record _) fun _ => keeps_bind (sessionClose_settles hrec _ _) fun _ => keeps_pure _
  · exact keeps_bind (keeps_alike _ fun _ => rfl) fun _ => keeps_sess fun _ => rfl

theorem uvRead_settles (s : ℕ) (data : ReadData) : Keeps (Settling w₀) Fine (uvRead e rec s data) := by
  have halloc : Keeps (Settling w₀) Fine (allocRead e rec s) := by
    refine keeps_bind (keeps_record _) fun _ => keeps_getSess fun x => ?_
    split
    · exact keeps_fault _
    · exact keeps_bind (closeFd_settles hrec s _) fun _ => keeps_pure _
    · exact keeps_pure _
  have hread : ∀ chunk, Keeps (Settling w₀) Fine (onRead e rec s chunk) := fun chunk =>
    keeps_getSess fun _ => keeps_bind (keeps_alike s fun _ => rfl) fun _ =>
      keeps_bind (keeps_forM (fun _ => frame_settles hrec s _ _) _) fun _ =>
      keeps_ite (fun _ => keeps_bind (keeps_record _) fun _ => keeps_bind (sessionClose_settles hrec s _) fun _ => keeps_pure _)
        fun _ => keeps_pure _
  have hdata : ∀ data, Keeps (Settling w₀) Fine (onReadData e rec s data) := by
    refine fun data => keeps_getSess fun _ => keeps_ite (fun _ => keeps_pure _) fun _ => keeps_ite (fun _ => keeps_pure _) fun _ => ?_
    cases data with
    | error nread => exact keeps_ite (fun _ => keeps_pure _) fun _ => keeps_bind (managerClose_settles hrec _ _ _) fun _ => keeps_pure _
    | ok chunk => exact hread chunk
  refine keeps_getSess fun _ => keeps_ite (fun _ => keeps_pure _) fun _ => keeps_bind halloc fun _ => keeps_ite (fun _ => hdata _) fun _ => ?_
  cases data with
  | error nread => exact keeps_bind (keeps_ite (fun _ => keeps_alike s fun _ => rfl) fun _ => keeps_pure _) fun _ => hdata _
  | ok bytes => exact hdata _

theorem sendToClient_settles (s : ℕ) (content : Bytes) : Keeps (Settling w₀) Fine (sendToClient e rec s content) :=
  keeps_getSess fun _ => keeps_ite (fun _ => keeps_pure _) fun _ => keeps_ite (fun _ => keeps_pure _) fun _ =>
    keeps_bind (keeps_alike s fun _ => rfl) fun _ => keeps_bind ((gwHost_calm_settling hrec s).sendPost _ content) fun _ =>
      keeps_bind (checkLimits_settles hrec s false true) fun _ => keeps_pure _

theorem pushData_settles (id : UInt64) (content : Bytes) : Keeps (Settling w₀) Fine (pushData e rec id content) := by
  refine keeps_get fun w => ?_
  cases w.actived.lookup id with
  | none => exact keeps_pure _
  | some s => exact sendToClient_settles hrec s content

theorem serverPost_settles (source id : UInt64) (ids : List UInt64) (content : Bytes) :
    Keeps (Settling w₀) Fine (serverPost e rec source id ids content) := by
  refine keeps_ite (fun _ => ?_) fun _ => keeps_ite (fun _ => ?_) fun _ => ?_
  · exact keeps_bind (pushData_settles hrec id content) fun _ =>
      keeps_ite (fun _ => keeps_bind (postData_settles _ _ _ _) fun _ => keeps_pure _) fun _ => keeps_pure _
  · refine keeps_bind (overMap_keeps (fun ret _ s w hw _ => ?_) (fun _ hw => hw.fine _) _) fun _ => keeps_pure _
    exact keeps_getSess (fun _ => keeps_ite (fun _ => keeps_bind (sendToClient_settles hrec s content) fun _ => keeps_pure _)
      fun _ => keeps_pure _) w hw
  · exact keeps_forM (fun id => keeps_bind (pushData_settles hrec id content) fun _ => keeps_pure _) ids

theorem tick_settles : Keeps (Settling w₀) Fine (tick e rec) := by
  have hreconnect : ∀ s, Keeps (Settling w₀) Fine (expireReconnect e rec s) := fun s =>
    keeps_bind (keeps_record _) fun _ => keeps_bind (keeps_sess fun _ => rfl) fun _ =>
      keeps_bind (keeps_alike s fun _ => rfl) fun _ =>
      keeps_bind (closeWithManager_settles hrec s _ _) fun _ => keeps_sess fun _ => rfl
  have hidle : ∀ s, Keeps (Settling w₀) Fine (expireIdle e rec s) := fun s =>
    keeps_getSess fun _ => keeps_bind (keeps_ite (fun _ => keeps_bind (keeps_record _) fun _ =>
      keeps_bind (sessionClose_settles hrec s _) fun _ => keeps_pure _) fun _ => keeps_pure _) fun _ => keeps_sess fun _ => rfl
  unfold tick
  refine keeps_get fun _ => keeps_ite (fun _ => keeps_pure _) fun _ => keeps_bind (keeps_record _) fun _ =>
    keeps_bind (keeps_sess fun _ => rfl) fun _ => ?_
  exact keeps_bind (keeps_forM (fun t : ℤ × ℕ => hreconnect t.2) _) fun _ => keeps_get fun _ =>
    keeps_forM (fun t : ℤ × ℕ => hidle t.2) _

theorem reset_settles : Keeps (Settling w₀) Fine (reset e rec) := by
  have hclose : ∀ s, Keeps (Settling w₀) Fine (sessionClose e rec s EN_CRT_SERVER_CLOSED >>= fun _ => pure ()) := fun s =>
    keeps_bind (sessionClose_settles hrec s _) fun _ => keeps_pure _
  have hmap : ∀ map : World → SessionMap, Keeps (Settling w₀) Fine (overMap map () fun _ s =>
      sessionClose e rec s EN_CRT_SERVER_CLOSED >>= fun _ => pure ()) := fun _ =>
    overMap_keeps (fun _ _ s w hw _ => hclose s w hw) (fun _ hw => hw.fine _) ()
  have hlist : ∀ ts : List (ℤ × ℕ), Keeps (Settling w₀) Fine (ts.forM fun t =>
      sessionClose e rec t.2 EN_CRT_SERVER_CLOSED >>= fun _ => pure ()) := keeps_forM fun t => hclose t.2
  unfold reset
  refine keeps_bind (keeps_record _) fun _ => keeps_bind (hmap _) fun _ => keeps_bind (keeps_sess fun _ => rfl) fun _ =>
    keeps_get fun _ => ?_
  refine keeps_bind (hlist _) fun _ => keeps_bind (keeps_sess fun _ => rfl) fun _ => keeps_bind (hmap _) fun _ =>
    keeps_bind (keeps_record _) fun _ => ?_
  exact keeps_bind (keeps_sess fun _ => rfl) fun _ => keeps_get fun _ => keeps_bind (hlist _) fun _ => keeps_sess fun _ => rfl

/-- **A completed write** whose session has lost its socket, or whose object is open. -/
theorem uvWritten_settled (hw : w.Settled) (s : ℕ) (status : ℤ) (hcalm : ¬ w.Recloses s) :
    wp (uvWritten e rec s status) (fun _ w' => w'.Settled) Fine w := by
  have htidy := hw.tidy s
  unfold uvWritten
  simp only [wp_bind, wp_getSess, wp_ite, wp_pure, wp_modifySess]
  refine ⟨fun _ => hw, fun hwriting => ?_⟩
  rw [not_not] at hwriting
  have hpending := htidy.pending hwriting
  have hopen : (w.sess s).proto.flags.closed = false := by
    by_contra hc
    exact absurd ((htidy.closed (Bool.not_eq_false _ ▸ hc)).2.symm.trans hpending) Bool.false_ne_true
  obtain ⟨x, hx⟩ : ∃ x, x = (w.sess s).setFlags { (w.sess s).flags with writingFd := false } := ⟨_, rfl⟩
  rw [← hx]
  have hproto : x.proto = (w.sess s).proto := hx ▸ rfl
  have hidle : x.flags.writingFd = false := hx ▸ rfl
  have hset : (w.setSess s x).Settled := by
    subst hx
    exact hw.set ⟨htidy.once, htidy.requested, htidy.connected, htidy.leaving, fun h => absurd h Bool.false_ne_true, htidy.closed,
      htidy.last⟩ (hw.paid s)
  have hsess : (w.setSess s x).sess s = x := World.setSess_sess ..
  cases hclosing : (w.sess s).proto.flags.closing with
  | false =>
    -- an open object stays open, and its session keeps its socket
    have hfree : ((w.setSess s x).sess s).proto.flags.closing = false := by rw [hsess, hproto, hclosing]
    have hfailed : Failed (w.setSess s x) s (w.setSess s x) := ⟨.refl hset.tidy, by rw [hsess, hidle], hfree⟩
    have hreason := (Host.tryWrite_reason (H := gwHost e rec s) (writeFn_proto e rec s) ((w.setSess s x).sess s).proto.closeReason e.stack).2
      status (w.setSess s x) ⟨hfree, rfl⟩
    refine wp_mono (wp_and ((gwHost_owned_settling hrec).writes.writeDone e.stack status hfailed) hreason) (fun _ w' ⟨h', hfree', _⟩ => ?_)
      fun _ _ h => h.1
    have hstay : (w'.sess s).flags.closingFd = false := by
      by_contra hc
      exact absurd (hfree'.symm.trans ((h'.tidy s).leaving (Bool.not_eq_false _ ▸ hc))) Bool.false_ne_true
    rw [if_neg (by rw [hstay]; exact Bool.false_ne_true), World.setSess_self]
    exact h'.settled hset
  | true =>
    have hlost : (w.sess s).flags.hasFd = false := by
      by_contra hfd
      exact hcalm ⟨hwriting, Bool.not_eq_false _ ▸ hfd, hclosing⟩
    have hnone : (w.sess s).shutdowns = [] := by
      by_contra hr
      exact absurd (hopen.symm.trans (htidy.requested hr)) Bool.false_ne_true
    have hobject : (gwHost e rec s).proto (w.setSess s x) = (w.sess s).proto := (congrArg Session.proto hsess).trans hproto
    refine Host.writeDone_last (H := gwHost e rec s) ?_ ?_ ?_ (fun p => (Settling.refl hset.tidy).fine_object p _)
      ((Settling.refl hset.tidy).fine _)
      (fun p hp => ⟨fun h => (nomatch h), fun f hf reason => ?_⟩) _ _
    · rw [hobject, hpending]
    · rw [hobject, hclosing]
    · rw [hobject, hopen]
    · cases hf
      rw [hobject] at hp
      show wp (rec.onClose s reason) _ Fine ((w.setSess s x).setSess s { (w.setSess s x).sess s with proto := p })
      rw [hsess, World.setSess_setSess]
      have hxs : x.flags.hasFd = false ∧ x.shutdowns = [] := by
        rw [hx]
        exact ⟨hlost, hnone⟩
      -- the shutdown of this session may fall due now; the callback leaves it to `on_write_done`
      have hdue : ∀ t, ((w.setSess s { x with proto := p }).sess t).Tidy := by
        refine tidy_set hw.tidy ⟨?_, fun _ => ?_, fun h => ?_, fun _ => ?_, fun h => ?_, fun _ => ?_, fun _ hc => ?_⟩
        · rw [Session.Once, hxs.2]
          exact ⟨Nat.zero_le _, fun f hf => absurd hf List.not_mem_nil⟩
        · rw [hp]
        · exact absurd (hxs.1.symm.trans h) Bool.false_ne_true
        · rw [hp]
        · exact absurd (hidle.symm.trans h) Bool.false_ne_true
        · rw [hp]
          exact ⟨rfl, rfl⟩
        · rw [hp] at hc
          exact absurd hc.symm Bool.false_ne_true
      refine wp_post (hrec.onClose _ s reason _ (.refl hdue)) fun _ w' h' => ?_
      have hself : (w.setSess s { x with proto := p }).sess s = { x with proto := p } := World.setSess_sess ..
      have hrests := h'.rests s
      rw [hself] at hrests
      obtain ⟨hlost', -, hnone'⟩ := hrests.lost hxs.1
      have hothers : ∀ t, t ≠ s → ¬ (w'.sess t).Owes := by
        intro t hts howes
        have h := (h'.rests t).owes howes
        rw [World.setSess_sess_ne hts] at h
        exact hw.paid t h
      have hend : ∀ y : Session, y.Tidy → ¬ y.Owes → (w'.setSess s y).Settled := by
        intro y hy hpaid
        refine ⟨tidy_set h'.tidy hy, fun t => ?_⟩
        by_cases hts : t = s
        · rw [hts, World.setSess_sess]
          exact hpaid
        · rw [World.setSess_sess_ne hts]
          exact hothers t hts
      split_ifs with hleaving
      · obtain ⟨hrequest, hpaid⟩ := (h'.tidy s).shutdown hlost' (hnone'.trans hxs.2)
        exact hend _ hrequest hpaid
      · exact hend _ (h'.tidy s) fun howes => hleaving howes.1

end events

/-! ## Runs -/

/-- a turn of a run: an event of the gateway, or one of the calls that close a session, at any time -/
inductive Turn where
  | event (ev : GwEvent)
  /-- `session::close` -/
  | close (s : ℕ) (reason : ℤ)
  | closeFd (s : ℕ) (reason : ℤ)
  /-- `close` of the object -/
  | closeProto (s : ℕ) (reason : ℤ) (isSendKickoff : Bool)

def turn (e : GwEnv) : Turn → Prog Fault World Unit
  | .event ev => gwEvent e ev
  | .close s reason => do
    let _ ← sessionClose e (reentry e e.depth) s reason
    return ()
  | .closeFd s reason => do
    let _ ← closeFd e (reentry e e.depth) s reason
    return ()
  | .closeProto s reason isSendKickoff => do
    let _ ← close (gwHost e (reentry e e.depth) s) reason isSendKickoff
    return ()

def turnRun (e : GwEnv) (turns : List Turn) : Prog Fault World Unit := turns.forM (turn e)

/-- no write completes while its session has its socket and its object is closing -/
def Turn.Calm (w : World) : Turn → Prop
  | .event (.uvWritten s _) => ¬ w.Recloses s
  | _ => True

theorem uvClosed_settled (hw : w.Settled) (s : ℕ) : wp (uvClosed s) (fun _ w' => w'.Settled) Fine w := by
  have htidy := hw.tidy s
  unfold uvClosed
  rw [wp_modifySess]
  split_ifs with hclosing
  · refine hw.set ⟨htidy.once, htidy.requested, fun hfd => ⟨rfl, (htidy.connected hfd).2⟩, fun h => ?_, htidy.pending, htidy.closed,
      htidy.last⟩ fun howes => ?_
    · exact absurd h Bool.false_ne_true
    · exact absurd howes.1 Bool.false_ne_true
  · rw [World.setSess_self]
    exact hw

theorem event_settled (e : GwEnv) (hw : w.Settled) (ev : GwEvent) (hcalm : (Turn.event ev).Calm w) :
    wp (gwEvent e ev) (fun _ w' => w'.Settled) Fine w := by
  have hrec := reentry_settles e e.depth
  cases ev with
  | acceptTcp seed peer initRes acceptRes => exact acceptTcp_settled hrec hw seed peer initRes acceptRes
  | acceptPipe seed =>
    have hnew := hw.accepted (e := e) seed false {}
    exact fun s => (hnew.tidy s).once
  | uvRead s data => exact hw.of_keeps (uvRead_settles hrec s data)
  | uvWritten s status => exact uvWritten_settled hrec hw s status hcalm
  | uvShutdown s =>
    have hstream : Keeps (Settling w) Fine (uvShutdown s) := by
      refine keeps_alike s fun x => ?_
      split_ifs <;> rfl
    exact hw.of_keeps hstream
  | uvClosed s => exact uvClosed_settled hw s
  | serverPost source id ids content => exact hw.of_keeps (serverPost_settles hrec source id ids content)
  | serverKickoff id errorCode =>
    refine hw.of_keeps (keeps_bind (keeps_ite (fun _ => ?_) fun _ => ?_) fun _ => keeps_pure _)
    · exact managerClose_settles hrec _ _ _
    · exact managerClose_settles hrec _ _ _
  | serverSetRouter source id router =>
    refine hw.of_keeps (keeps_bind (keeps_get fun w => ?_) fun _ => keeps_bind (postData_settles _ _ _ _) fun _ => keeps_pure _)
    cases w.actived.lookup id with
    | none => exact keeps_pure _
    | some s => exact keeps_bind (keeps_alike s fun _ => rfl) fun _ => keeps_pure _
  | cmdKickoff id reason => exact hw.of_keeps (keeps_bind (managerClose_settles hrec _ _ _) fun _ => keeps_pure _)
  | cmdDisconnect id reason => exact hw.of_keeps (keeps_bind (managerClose_settles hrec _ _ _) fun _ => keeps_pure _)
  | tick => exact hw.of_keeps (tick_settles hrec)
  | clock now => exact hw.of_keeps (keeps_sess fun _ => rfl)
  | reset => exact hw.of_keeps (reset_settles hrec)
  | reload conf =>
    refine hw.of_keeps (keeps_bind (keeps_sess fun _ => rfl) fun _ => ?_)
    cases globalReload e.ext conf.crypt with
    | none => exact keeps_pure _
    | some g => exact keeps_sess fun _ => rfl

theorem turn_settled (e : GwEnv) (t : Turn) (hw : w.Settled) (hcalm : t.Calm w) :
    wp (turn e t) (fun _ w' => w'.Settled) Fine w := by
  have hrec := reentry_settles e e.depth
  cases t with
  | event ev => exact event_settled e hw ev hcalm
  | close s reason => exact hw.of_keeps (keeps_bind (sessionClose_settles hrec s reason) fun _ => keeps_pure _)
  | closeFd s reason => exact hw.of_keeps (keeps_bind (closeFd_settles hrec s reason) fun _ => keeps_pure _)
  | closeProto s reason kick =>
    exact hw.of_keeps (keeps_bind ((gwHost_respects_settling hrec s).close reason kick) fun _ => keeps_pure _)

theorem start_settled (conf : GwConf) (now : ℤ) (current : Option CryptGlobal) : (World.start conf now current).Settled := by
  refine ⟨fun s => ⟨⟨Nat.zero_le _, fun f hf => absurd hf List.not_mem_nil⟩, fun h => absurd rfl h, fun _ => ⟨rfl, rfl⟩,
    fun h => ?_, fun h => ?_, fun h => ?_, fun h => ?_⟩, fun s howes => absurd howes.1 Bool.false_ne_true⟩
  all_goals exact absurd h Bool.false_ne_true

instance (w : World) (s : ℕ) : Decidable (w.Recloses s) := inferInstanceAs (Decidable (_ ∧ _ ∧ _))

instance (w : World) (t : Turn) : Decidable (t.Calm w) := by
  rcases t with (_ | _) | _ <;> dsimp only [Turn.Calm] <;> infer_instance

/-- **Every run** in which no write completes while its session has its socket and its object is closing: one request for each
session at most, for a closed object that writes nothing, also when the run stops at a fault; and none is missing when it ends. -/
theorem shutdown_once (e : GwEnv) (conf : GwConf) (now : ℤ) (current : Option CryptGlobal) (turns : List Turn)
    (hcalm : EachMeets (turn e) (fun t w => t.Calm w) turns (World.start conf now current)) :
    (∀ s, ((exec (turnRun e turns) (World.start conf now current)).2.sess s).Once) ∧
      ((exec (turnRun e turns) (World.start conf now current)).1 = .ok () →
        ∀ s, ¬ ((exec (turnRun e turns) (World.start conf now current)).2.sess s).Owes) := by
  have hrun := wp_forM (I := World.Settled) (fun t _ hw hc => turn_settled e t hw hc) (start_settled conf now current) hcalm
  unfold turnRun
  rcases hexec : exec (turns.forM (turn e)) (World.start conf now current) with ⟨fault | _, w⟩
  · exact ⟨wp_error hrun hexec, fun h => nomatch h⟩
  · have hw : w.Settled := wp_ok hrun hexec
    exact ⟨fun s => (hw.tidy s).once, fun _ => hw.paid⟩

/-- the operator kicks a client while the answer to its handshake is still being written -/
def kickWhileWriting : List Turn := startOne.map .event ++ [.event (.cmdKickoff 1 (-1)), .event (.uvWritten 0 0)]

theorem shutdown_once_kick :
    (∀ s, ((exec (turnRun (scriptEnv [plainStartReq] 2) kickWhileWriting) (World.start openConf 1500000000 none)).2.sess s).Once) ∧
      ((exec (turnRun (scriptEnv [plainStartReq] 2) kickWhileWriting) (World.start openConf 1500000000 none)).1 = .ok () → ∀ s,
        ¬ ((exec (turnRun (scriptEnv [plainStartReq] 2) kickWhileWriting) (World.start openConf 1500000000 none)).2.sess s).Owes) :=
  shutdown_once (scriptEnv [plainStartReq] 2) openConf 1500000000 none kickWhileWriting (by decide +kernel)

def kickoffMsg (reason : ℤ) : CsMsg := ⟨some .EN_MTT_KICKOFF, .kickoff (some reason)⟩

/-- a client says that it goes while the answer to its handshake is still being written -/
def goWhileWriting : List Turn := startOne.map .event ++ [.event (.uvRead 0 (.ok (scriptFrame 1))), .event (.uvWritten 0 0)]

theorem shutdown_twice : ¬ ∀ turns s,
    ((exec (turnRun (scriptEnv [plainStartReq, kickoffMsg 0] 2) turns) (World.start openConf 1500000000 none)).2.sess s).Once := by
  have htwo : ((exec (turnRun (scriptEnv [plainStartReq, kickoffMsg 0] 2) goWhileWriting)
      (World.start openConf 1500000000 none)).2.sess 0).shutdowns.length = 2 := by decide +kernel
  intro h
  obtain ⟨x, hx⟩ : ∃ x, x = (exec (turnRun (scriptEnv [plainStartReq, kickoffMsg 0] 2) goWhileWriting)
      (World.start openConf 1500000000 none)).2.sess 0 := ⟨_, rfl⟩
  have hone : x.Once := hx ▸ h goWhileWriting 0
  rw [← hx] at htwo
  exact absurd (htwo ▸ hone.1) (by decide)

end AtFrame.Gateway
