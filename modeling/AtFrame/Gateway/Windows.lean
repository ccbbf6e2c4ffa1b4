/-
The traffic counters of a session and their windows.

A call of `send_to_client` or `send_to_server` is counted first; the checks behind it then find out whether a new
window has begun and clear the counters of the old one, the call that began the new one included. Without limits
nothing else happens to a session that is open (`call_counted`).

- `windows_count_iff`: the counters of the minute and the hour are right behind every call of a sequence exactly if
  all calls lie in the minute and the day whose time points the session already has, and nothing runs over;
- `windows_next_minute`: the first message of a new minute is lost.

Premises: the session is open, nothing is counted yet, and there are no limits, so that only the windows decide. Witness
`windows_count_two`.
-/
import AtFrame.Gateway.NullOwner

namespace AtFrame.Gateway

open AtFrame.Lib

variable {e : GwEnv} {rec : Reentry} {s : ℕ} {w w₀ : World}

/-! ## Writing -/

/-- another object, and an outstanding write or none -/
def Session.written (p : Proto) (b : Bool) (x : Session) : Session :=
  { x with proto := p, flags := { x.flags with writingFd := b } }

def World.written (s : ℕ) (p : Proto) (b : Bool) (n : ℕ) (w : World) : World :=
  { w.modSess s (Session.written p b) with writes := n }

@[simp] theorem World.written_sess (p : Proto) (b : Bool) (n : ℕ) :
    (w.written s p b n).sess s = (w.sess s).written p b := World.modSess_sess

/-- bytes were handed to the object of the session -/
def Wrote (s : ℕ) (w w' : World) : Prop :=
  ∃ p b n, w' = w.written s p b n ∧ p.flags.closing = (w.sess s).proto.flags.closing ∧
    p.flags.handshakeDone = (w.sess s).proto.flags.handshakeDone

theorem Wrote.refl (w : World) : Wrote s w w :=
  ⟨(w.sess s).proto, (w.sess s).flags.writingFd, w.writes,
    (congrArg (fun u : World => { u with writes := w.writes }) (w.setSess_self s)).symm, rfl, rfl⟩

theorem Wrote.setProto (h : Wrote s w₀ w) {p : Proto} (hclosing : p.flags.closing = (w.sess s).proto.flags.closing)
    (hdone : p.flags.handshakeDone = (w.sess s).proto.flags.handshakeDone) :
    Wrote s w₀ (w.setSess s { w.sess s with proto := p }) := by
  obtain ⟨q, b, n, rfl, hc, hd⟩ := h
  rw [World.written_sess] at hclosing hdone
  refine ⟨p, b, n, ?_, hclosing.trans hc, hdone.trans hd⟩
  rw [World.written_sess]
  simp only [World.written, World.modSess, World.setSess, Function.update_idem, Session.written]

theorem onWrite_wrote (h : Wrote s w₀ w) (buf : Bytes) :
    wp (onWrite e s buf) (fun _ => Wrote s w₀) (fun _ _ => True) w := by
  unfold onWrite
  simp only [wp_ite, wp_throw, wp_bind, wp_get, wp_modify, wp_modifySess, wp_getSess, wp_pure]
  refine ⟨fun _ => trivial, fun _ => ?_⟩
  obtain ⟨q, b, n, rfl, hc, hd⟩ := h
  refine ⟨q, decide (e.uvWrite n = 0), n + 1, ?_, hc, hd⟩
  simp only [World.written, World.modSess, World.setSess, Function.update_self, Function.update_idem]
  rfl

/-- **The write queue** of an object that is open does nothing else. -/
theorem gwHost_writes_wrote (e : GwEnv) (rec : Reentry) (s : ℕ) (w₀ : World) : (gwHost e rec s).Writes
    (fun w => Wrote s w₀ w ∧ (w.sess s).proto.flags.closing = false)
    (fun w => Wrote s w₀ w ∧ (w.sess s).proto.flags.closing = false) (fun _ _ => True) where
  quiet h hp := by
    refine ⟨h.1.setProto hp.closing hp.handshakeDone, ?_⟩
    rw [World.setSess_sess]
    exact hp.closing.trans h.2
  overflow _ _ := trivial
  assertFail _ := trivial
  errorFn f hf errcode errmsg w h := by
    cases hf
    exact h
  writeFn f hf w p buf h hopen hwriting hp := by
    cases hf
    have hset : Wrote s w₀ (w.setSess s { w.sess s with proto := p }) := h.1.setProto (by rw [hp]) (by rw [hp])
    have hopen' : ((w.setSess s { w.sess s with proto := p }).sess s).proto.flags.closing = false := by
      rw [World.setSess_sess, hp]
      exact hopen
    refine wp_mono (wp_and (onWrite_wrote hset buf) (onWrite_open hopen' buf)) (fun _ w' hw' => ?_) fun _ _ _ => trivial
    exact ⟨fun _ => hw', fun _ => hw'⟩
  idle h _ := h
  release h _ _ hp := by
    refine ⟨h.1.setProto (by rw [hp]) (by rw [hp]), ?_⟩
    rw [World.setSess_sess, hp]
    exact h.2
  written hopen hclosing h := by
    have hopen' := h.elim (fun h => h.1.2) fun h => h.1.2
    exact absurd (hopen'.symm.trans hclosing) (by decide)

theorem write_wrote (content : Bytes) :
    wp (write (gwHost e rec s) content) (fun _ => Wrote s w) (fun _ _ => True) w := by
  cases hclosing : (w.sess s).proto.flags.closing with
  | true =>
    unfold write sendPost
    simp only [wp_bind, Host.wp_get, wp_ite, wp_pure]
    exact ⟨fun _ => .refl w, fun hopen => absurd hclosing hopen⟩
  | false => exact wp_post ((gwHost_writes_wrote e rec s w).calm.sendPost _ _ w ⟨.refl w, hclosing⟩) fun _ _ h => h.1

/-- a new key for a session whose handshake is done -/
theorem sendKeySyn_wrote (hdone : (w.sess s).proto.flags.handshakeDone = true) :
    wp (sendKeySyn (gwHost e rec s)) (fun _ => Wrote s w) (fun _ _ => True) w := by
  cases hclosing : (w.sess s).proto.flags.closing with
  | true =>
    unfold sendKeySyn
    simp only [wp_bind, Host.wp_get, wp_ite, wp_pure]
    exact ⟨fun _ => .refl w, fun hopen => absurd hclosing hopen⟩
  | false =>
    have hcalm := (gwHost_writes_wrote e rec s w).calm
    have hends : (gwHost e rec s).Ends (fun w' => Wrote s w w' ∧ (w'.sess s).proto.flags.closing = false) (fun _ _ => True)
        Host.Guard.free :=
      { hcalm with
        done := fun {w' p} h hopen => by
          obtain ⟨⟨q, b, n, rfl, -, hd⟩, -⟩ := h
          simp only [World.written_sess] at hopen
          exact absurd ((hd.trans hdone).symm.trans hopen) (by decide)
        updateFn := fun f hf status w' h => by
          cases hf
          exact h
        finishCalm := hcalm.free }
    exact wp_post (hends.sendKeySyn ⟨.refl w, hclosing⟩ fun _ _ => trivial) fun _ _ h => h.1

/-! ## Checks without limits -/

/-- no limit is set -/
def GwConf.Unlimited (c : GwConf) : Prop := c.total = {} ∧ c.hour = {} ∧ c.minute = {}

/-- a session that is open: it has a socket, a manager and a router, and its handshake is done, as it is before
anything is sent through a session -/
structure World.Serves (s : ℕ) (w : World) : Prop where
  live : (w.sess s).flags.closing = false
  fd : (w.sess s).flags.hasFd = true
  owner : (w.sess s).owner = true
  router : (w.sess s).router ≠ 0
  done : (w.sess s).proto.flags.handshakeDone = true

/-- the counters of a day are cleared when another one has begun -/
def Limit.rollHour (now : ℤ) (l : Limit) : Limit :=
  if now.tdiv daySeconds ≠ l.hourTimepoint then { l with hour := {}, hourTimepoint := now.tdiv daySeconds } else l

/-- the counters of a minute are cleared when another one has begun -/
def Limit.rollMinute (now : ℤ) (l : Limit) : Limit :=
  if now.tdiv minuteSeconds ≠ l.minuteTimepoint then { l with minute := {}, minuteTimepoint := now.tdiv minuteSeconds } else l

/-- the session is open and has the same id, and its counters are those of `l` -/
structure Counted (s : ℕ) (l : Limit) (w w' : World) : Prop where
  conf : w'.conf = w.conf
  now : w'.now = w.now
  id : (w'.sess s).id = (w.sess s).id
  serves : w'.Serves s
  limit : ∃ u, (w'.sess s).limit = { l with updateHandshakeTimepoint := u }

variable {E : Fault → World → Prop}

theorem exceeds_zero (counter : ℕ) : exceeds 0 counter = false := by
  simp only [exceeds, lt_irrefl, false_and, decide_false]

/-- a limit that is not exceeded -/
theorem limitCheck_pass {Q : Unit → World → Prop} {check : Bool} {exceeded : GwConf → Limit → Bool}
    (howner : (w.sess s).owner = true) (hpass : exceeded w.conf (w.sess s).limit = false) (hQ : Q ⟨⟩ w) :
    wp (limitCheck rec s check exceeded) Q E w := by
  unfold limitCheck
  simp only [wp_ite, wp_bind, wp_getSess, wp_get, wp_pure, wp_throw, howner, hpass]
  exact ⟨fun _ => ⟨fun _ => ⟨fun h => absurd h Bool.false_ne_true, fun _ => hQ⟩, fun h => absurd trivial h⟩, fun _ => hQ⟩

theorem hourExceeded_unlimited {c : GwConf} (h : c.Unlimited) (send second : Bool) (l : Limit) :
    hourExceeded send second c l = false := by
  cases send <;> cases second <;> simp only [hourExceeded, h.2.1, exceeds_zero]

theorem minuteExceeded_unlimited {c : GwConf} (h : c.Unlimited) (checkRecv checkSend : Bool) (l : Limit) :
    minuteExceeded checkRecv checkSend c l = false := by
  simp only [minuteExceeded, h.2.2, exceeds_zero, Bool.or_self, Bool.and_false]

theorem totalExceeded_unlimited {c : GwConf} (h : c.Unlimited) (send second : Bool) (l : Limit) :
    totalExceeded send second c l = false := by
  cases send <;> cases second <;> simp only [totalExceeded, h.1, exceeds_zero, lt_irrefl, false_and, decide_false]

theorem Counted.recorded (h : w.Serves s) (step : Step) : Counted s (w.sess s).limit w (w.recorded step) :=
  ⟨rfl, rfl, rfl, ⟨h.1, h.2, h.3, h.4, h.5⟩, _, rfl⟩

theorem Counted.trans {w₁ w₂ : World} {l l' : Limit} (h : Counted s l w w₁) (h' : Counted s l' w₁ w₂) : Counted s l' w w₂ :=
  ⟨h'.conf.trans h.conf, h'.now.trans h.now, h'.id.trans h.id, h'.serves, h'.limit⟩

/-- new counters for the session -/
theorem Counted.setLimit (h : w.Serves s) (l : Limit) : Counted s l w (w.modSess s fun x => x.setLimit l) := by
  refine ⟨rfl, rfl, ?_, ?_, l.updateHandshakeTimepoint, ?_⟩
  · rw [World.modSess_sess]; rfl
  · constructor <;> rw [World.modSess_sess]
    exacts [h.live, h.fd, h.owner, h.router, h.done]
  · rw [World.modSess_sess]; rfl

theorem Counted.noticed (h : w.Serves s) (body : SsBody) (len : ℕ) (ret : ℤ) :
    Counted s ((w.sess s).limit.addRecv len) w (w.noticed s body len ret) := by
  obtain ⟨hconf, hnow, hid, hserves, hlimit⟩ := Counted.setLimit h ((w.sess s).limit.addRecv len)
  exact ⟨hconf, hnow, hid, ⟨hserves.1, hserves.2, hserves.3, hserves.4, hserves.5⟩, hlimit⟩

theorem Counted.wrote (h : w.Serves s) {w' : World} (hw : Wrote s w w') : Counted s (w.sess s).limit w w' := by
  obtain ⟨p, b, n, rfl, -, hd⟩ := hw
  refine ⟨rfl, rfl, ?_, ?_, (w.sess s).limit.updateHandshakeTimepoint, ?_⟩
  · rw [World.written_sess]; rfl
  · constructor <;> rw [World.written_sess]
    exacts [h.live, h.fd, h.owner, h.router, hd.trans h.done]
  · rw [World.written_sess]; rfl

section checks

variable {checkRecv checkSend : Bool}

theorem checkHourLimit_counted (h : w.Serves s) (hconf : w.conf.Unlimited) :
    wp (checkHourLimit rec s checkRecv checkSend) (fun _ => Counted s ((w.sess s).limit.rollHour w.now) w) E w := by
  have hrec : Counted s (w.sess s).limit w (w.recorded (.check s .hour checkRecv checkSend)) := .recorded h _
  unfold checkHourLimit
  rw [wp_bind, wp_record]
  simp only [wp_bind, wp_get, wp_getSess, wp_ite, wp_modifySess, wp_pure]
  refine ⟨fun hnew => ?_, fun hold => ⟨fun hlost => absurd h.owner hlost, fun _ => ⟨fun hclosing => ?_, fun _ => ?_⟩⟩⟩
  · rw [Limit.rollHour, if_pos hnew]
    exact hrec.trans (.setLimit hrec.serves _)
  · exact absurd (h.live.symm.trans hclosing) Bool.false_ne_true
  · rw [Limit.rollHour, if_neg hold]
    have hpass : ∀ {check : Bool} {Q : Unit → World → Prop} (send second : Bool),
        Q ⟨⟩ (w.recorded (.check s .hour checkRecv checkSend)) →
          wp (limitCheck rec s check (hourExceeded send second)) Q E (w.recorded (.check s .hour checkRecv checkSend)) :=
      fun send second hQ => limitCheck_pass h.owner (hourExceeded_unlimited hconf send second _) hQ
    exact hpass _ _ (hpass _ _ (hpass _ _ (hpass _ _ hrec)))

theorem updateKey_counted (h : w.Serves s) :
    wp (updateKey e rec s) (fun _ => Counted s (w.sess s).limit w) (fun _ _ => True) w := by
  unfold updateKey
  simp only [wp_bind, wp_get, wp_getSess, wp_ite, wp_modifySess, wp_pure]
  refine ⟨fun _ => ?_, fun _ => ⟨rfl, rfl, rfl, h, _, rfl⟩⟩
  have hlimit := Counted.setLimit h
    { (w.sess s).limit with updateHandshakeTimepoint := w.now + w.conf.crypt.updateInterval }
  refine wp_post (sendKeySyn_wrote hlimit.serves.done) fun _ w' hw' => ?_
  obtain ⟨hconf, hnow, hid, hserves, u, hu⟩ := hlimit.trans (.wrote hlimit.serves hw')
  rw [World.modSess_sess] at hu
  exact ⟨hconf, hnow, hid, hserves, u, hu⟩

theorem checkMinuteLimit_counted (h : w.Serves s) (hconf : w.conf.Unlimited) :
    wp (checkMinuteLimit e rec s checkRecv checkSend) (fun _ => Counted s ((w.sess s).limit.rollMinute w.now) w)
      (fun _ _ => True) w := by
  have hrec : Counted s (w.sess s).limit w (w.recorded (.check s .minute checkRecv checkSend)) := .recorded h _
  unfold checkMinuteLimit
  rw [wp_bind, wp_record]
  simp only [wp_bind, wp_get, wp_getSess, wp_ite, wp_modifySess, wp_pure]
  refine ⟨fun hnew => ?_, fun hold => ⟨fun hlost => absurd h.owner hlost, fun _ => ⟨fun hclosing => ?_, fun _ =>
    ⟨fun hexc => ?_, fun _ => ?_⟩⟩⟩⟩
  · rw [Limit.rollMinute, if_pos hnew]
    exact hrec.trans (.setLimit hrec.serves _)
  · exact absurd (h.live.symm.trans hclosing) Bool.false_ne_true
  · exact absurd (hexc.symm.trans (minuteExceeded_unlimited hconf ..)) (by decide)
  · rw [Limit.rollMinute, if_neg hold]
    exact wp_post (updateKey_counted hrec.serves) fun _ _ hw' => hrec.trans hw'

theorem checkTotalLimit_counted (h : w.Serves s) (hconf : w.conf.Unlimited) :
    wp (checkTotalLimit rec s checkRecv checkSend) (fun _ => Counted s (w.sess s).limit w) E w := by
  have hrec : Counted s (w.sess s).limit w (w.recorded (.check s .total checkRecv checkSend)) := .recorded h _
  unfold checkTotalLimit
  rw [wp_bind, wp_record]
  simp only [wp_bind, wp_getSess, wp_ite, wp_pure]
  refine ⟨fun hlost => absurd h.owner hlost, fun _ => ⟨fun hclosing => ?_, fun _ => ?_⟩⟩
  · exact absurd (h.live.symm.trans hclosing) Bool.false_ne_true
  · have hpass : ∀ {check : Bool} {Q : Unit → World → Prop} (send second : Bool),
        Q ⟨⟩ (w.recorded (.check s .total checkRecv checkSend)) →
          wp (limitCheck rec s check (totalExceeded send second)) Q E (w.recorded (.check s .total checkRecv checkSend)) :=
      fun send second hQ => limitCheck_pass h.owner (totalExceeded_unlimited hconf send second _) hQ
    exact hpass _ _ (hpass _ _ (hpass _ _ (hpass _ _ hrec)))

/-- the three checks clear the counters of windows that are over -/
theorem checkLimits_counted (h : w.Serves s) (hconf : w.conf.Unlimited) : wp (checkLimits e rec s checkRecv checkSend)
    (fun _ => Counted s (((w.sess s).limit.rollHour w.now).rollMinute w.now) w) (fun _ _ => True) w := by
  unfold checkLimits
  simp only [wp_bind]
  refine wp_post (checkHourLimit_counted h hconf) fun _ w₁ h₁ => ?_
  refine wp_post (checkMinuteLimit_counted h₁.serves (h₁.conf ▸ hconf)) fun _ w₂ h₂ => ?_
  refine wp_post (checkTotalLimit_counted h₂.serves (h₂.conf ▸ h₁.conf ▸ hconf)) fun _ w₃ h₃ => ?_
  obtain ⟨u₁, hu₁⟩ := h₁.limit
  obtain ⟨u₂, hu₂⟩ := h₂.limit
  obtain ⟨u₃, hu₃⟩ := h₃.limit
  refine ⟨h₃.conf.trans (h₂.conf.trans h₁.conf), h₃.now.trans (h₂.now.trans h₁.now), h₃.id.trans (h₂.id.trans h₁.id),
    h₃.serves, u₃, ?_⟩
  rw [hu₃, hu₂, hu₁, h₁.now]
  simp only [Limit.rollMinute]
  split_ifs <;> rfl

end checks

/-! ## Calls -/

/-- a call of `send_to_client` or of `send_to_server(msg)` -/
inductive Call where
  | toClient (content : Bytes)
  | toServer (body : SsBody)

def Call.run (e : GwEnv) (rec : Reentry) (s : ℕ) : Call → Prog Fault World ℤ
  | .toClient content => sendToClient e rec s content
  | .toServer body => do
    let x ← getSess s
    sendToServer e rec s body x.owner

/-- the message of the call can be serialized for the session with this id -/
def Call.Packs (e : GwEnv) (id : UInt64) : Call → Prop
  | .toClient _ => True
  | .toServer body => (e.serialize id body).isSome

/-- what the call adds to the traffic of the session -/
def Call.traffic (e : GwEnv) (id : UInt64) : Call → Traffic
  | .toClient content => { sendBytes := content.length, sendTimes := 1 }
  | .toServer body => { recvBytes := (e.serialize id body).getD 0, recvTimes := 1 }

/-- the counters of the session behind the counting -/
def Call.count (e : GwEnv) (id : UInt64) (l : Limit) : Call → Limit
  | .toClient content => l.addSend content.length
  | .toServer body => l.addRecv ((e.serialize id body).getD 0)

/-- the call when it is `t` -/
def callAt (e : GwEnv) (rec : Reentry) (s : ℕ) (c : ℤ × Call) : Prog Fault World Unit := do
  modify fun w => { w with now := c.1 }
  let _ ← c.2.run e rec s
  return ()

def callRun (e : GwEnv) (s : ℕ) (calls : List (ℤ × Call)) : Prog Fault World Unit :=
  calls.forM (callAt e (reentry e e.depth) s)

/-- **A call without limits** counts, writes or sends, and clears the counters of windows that are over. -/
theorem Call.run_counted (c : Call) (h : w.Serves s) (hconf : w.conf.Unlimited) (hpacks : c.Packs e (w.sess s).id) :
    wp (c.run e rec s) (fun _ => Counted s
      (((c.count e (w.sess s).id (w.sess s).limit).rollHour w.now).rollMinute w.now) w) (fun _ _ => True) w := by
  have hroll : ∀ {l : Limit} {w₁ w₂ : World}, Counted s l w w₁ →
      Counted s (((w₁.sess s).limit.rollHour w₁.now).rollMinute w₁.now) w₁ w₂ →
        Counted s ((l.rollHour w.now).rollMinute w.now) w w₂ := by
    intro l w₁ w₂ h₁ h₂
    obtain ⟨u₁, hu₁⟩ := h₁.limit
    obtain ⟨u₂, hu₂⟩ := h₂.limit
    refine ⟨h₂.conf.trans h₁.conf, h₂.now.trans h₁.now, h₂.id.trans h₁.id, h₂.serves, u₂, ?_⟩
    rw [hu₂, hu₁, h₁.now]
    simp only [Limit.rollMinute, Limit.rollHour]
    split_ifs <;> rfl
  cases c with
  | toClient content =>
    unfold Call.run sendToClient
    simp only [wp_bind, wp_getSess, wp_ite, wp_pure, wp_modifySess, Bool.not_eq_true]
    refine ⟨fun hclosing => absurd (h.live.symm.trans hclosing) Bool.false_ne_true, fun _ => ⟨fun hlost => ?_, fun _ => ?_⟩⟩
    · exact absurd (h.fd.symm.trans hlost) (by decide)
    · have hcount := Counted.setLimit h ((w.sess s).limit.addSend content.length)
      refine wp_post (write_wrote content) fun _ w₁ hw₁ => ?_
      obtain ⟨hc, hn, hid, hserves, u, hu⟩ := hcount.trans (.wrote hcount.serves hw₁)
      rw [World.modSess_sess] at hu
      exact wp_post (checkLimits_counted hserves (hc ▸ hconf)) fun _ w₂ h₂ => hroll ⟨hc, hn, hid, hserves, u, hu⟩ h₂
  | toServer body =>
    unfold Call.run sendToServer
    simp only [wp_bind, wp_getSess, wp_ite, wp_pure]
    refine ⟨fun hrouter => absurd hrouter h.router, fun _ => ⟨fun hlost => absurd h.owner hlost.1, fun _ => ?_⟩⟩
    obtain ⟨len, hlen⟩ := Option.isSome_iff_exists.1 hpacks
    rw [hlen]
    unfold sendData
    simp only [wp_bind, wp_modifySess, wp_get, wp_modify, wp_pure]
    have hcount := Counted.noticed h body len (e.sendData w.sent.length)
    refine wp_post (checkLimits_counted hcount.serves hconf) fun _ w₂ h₂ => ?_
    rw [show Call.count e (w.sess s).id (w.sess s).limit (.toServer body) = (w.sess s).limit.addRecv len by
      simp only [Call.count, hlen, Option.getD_some]]
    exact hroll hcount h₂

theorem callAt_counted (c : ℤ × Call) (h : w.Serves s) (hconf : w.conf.Unlimited) (hpacks : c.2.Packs e (w.sess s).id) :
    wp (callAt e rec s c) (fun _ => Counted s (((c.2.count e (w.sess s).id (w.sess s).limit).rollHour c.1).rollMinute c.1)
      { w with now := c.1 }) (fun _ _ => True) w := by
  unfold callAt
  simp only [wp_bind, wp_modify, wp_pure]
  exact c.2.run_counted (w := { w with now := c.1 }) ⟨h.1, h.2, h.3, h.4, h.5⟩ hconf hpacks

/-! ## Sums -/

def Traffic.add (t u : Traffic) : Traffic where
  recvBytes := t.recvBytes + u.recvBytes
  sendBytes := t.sendBytes + u.sendBytes
  recvTimes := t.recvTimes + u.recvTimes
  sendTimes := t.sendTimes + u.sendTimes

/-- as `size_t` -/
def Traffic.wrap (t : Traffic) : Traffic where
  recvBytes := t.recvBytes % 2 ^ 64
  sendBytes := t.sendBytes % 2 ^ 64
  recvTimes := t.recvTimes % 2 ^ 64
  sendTimes := t.sendTimes % 2 ^ 64

/-- the numbers fit into `size_t` -/
def Traffic.Fits (t : Traffic) : Prop :=
  t.recvBytes < 2 ^ 64 ∧ t.sendBytes < 2 ^ 64 ∧ t.recvTimes < 2 ^ 64 ∧ t.sendTimes < 2 ^ 64

/-- the sums over the calls -/
def traffic (e : GwEnv) (id : UInt64) (calls : List (ℤ × Call)) : Traffic where
  recvBytes := (calls.map fun c => (c.2.traffic e id).recvBytes).sum
  sendBytes := (calls.map fun c => (c.2.traffic e id).sendBytes).sum
  recvTimes := (calls.map fun c => (c.2.traffic e id).recvTimes).sum
  sendTimes := (calls.map fun c => (c.2.traffic e id).sendTimes).sum

theorem traffic_append (e : GwEnv) (id : UInt64) (calls calls' : List (ℤ × Call)) :
    traffic e id (calls ++ calls') = (traffic e id calls).add (traffic e id calls') := by
  simp only [traffic, Traffic.add, List.map_append, List.sum_append]

theorem traffic_singleton (e : GwEnv) (id : UInt64) (c : ℤ × Call) : traffic e id [c] = c.2.traffic e id := by
  simp only [traffic, List.map_cons, List.map_nil, List.sum_cons, List.sum_nil, Nat.add_zero]

theorem wrap_eq_self_iff {t : Traffic} : t.wrap = t ↔ t.Fits := by
  obtain ⟨a, b, c, d⟩ := t
  simp only [Traffic.wrap, Traffic.Fits, Traffic.mk.injEq, Nat.mod_eq_iff_lt (by decide : 2 ^ 64 ≠ 0)]

/-- `size_t` counters that are increased by what the call adds -/
theorem count_wrap (e : GwEnv) (id : UInt64) (c : Call) (t : Traffic) {l : Limit} :
    (l.hour = t.wrap → (c.count e id l).hour = (t.add (c.traffic e id)).wrap) ∧
      (l.minute = t.wrap → (c.count e id l).minute = (t.add (c.traffic e id)).wrap) := by
  constructor <;> intro h <;> cases c <;>
    simp only [Call.count, Limit.addSend, Limit.addRecv, h, Traffic.addSend, Traffic.addRecv, Traffic.wrap, Traffic.add,
      Call.traffic, addSizeT, Nat.mod_add_mod, Nat.add_zero]

/-! ## Runs of calls -/

/-- the call is made in the minute and on the day of the session's time points -/
def Limit.Covers (l : Limit) (t : ℤ) : Prop := t.tdiv minuteSeconds = l.minuteTimepoint ∧ t.tdiv daySeconds = l.hourTimepoint

/-- the counters after calls that the time points of `w₀` cover -/
structure Windowed (e : GwEnv) (s : ℕ) (w₀ : World) (calls : List (ℤ × Call)) (w : World) : Prop where
  conf : w.conf.Unlimited
  id : (w.sess s).id = (w₀.sess s).id
  serves : w.Serves s
  hour : (w.sess s).limit.hour = (traffic e (w₀.sess s).id calls).wrap
  minute : (w.sess s).limit.minute = (traffic e (w₀.sess s).id calls).wrap
  hourTimepoint : (w.sess s).limit.hourTimepoint = (w₀.sess s).limit.hourTimepoint
  minuteTimepoint : (w.sess s).limit.minuteTimepoint = (w₀.sess s).limit.minuteTimepoint

/-- what a call leaves of the counters, when it is covered and when it is not -/
theorem Windowed.callAt (rec : Reentry) {calls : List (ℤ × Call)} {c : ℤ × Call} (h : Windowed e s w₀ calls w)
    (hpacks : c.2.Packs e (w₀.sess s).id) : wp (callAt e rec s c) (fun _ w' =>
      ((w₀.sess s).limit.Covers c.1 → Windowed e s w₀ (calls ++ [c]) w') ∧
        (c.1.tdiv minuteSeconds ≠ (w₀.sess s).limit.minuteTimepoint → (w'.sess s).limit.minute = {}) ∧
        (c.1.tdiv daySeconds ≠ (w₀.sess s).limit.hourTimepoint → (w'.sess s).limit.hour = {})) (fun _ _ => True) w := by
  refine wp_post (callAt_counted c h.serves h.conf (h.id ▸ hpacks)) fun _ w' h' => ?_
  obtain ⟨u, hu⟩ := h'.limit
  have hcount := count_wrap e (w₀.sess s).id c.2 (traffic e (w₀.sess s).id calls) (l := (w.sess s).limit)
  have hpoints : (c.2.count e (w.sess s).id (w.sess s).limit).hourTimepoint = (w₀.sess s).limit.hourTimepoint ∧
      (c.2.count e (w.sess s).id (w.sess s).limit).minuteTimepoint = (w₀.sess s).limit.minuteTimepoint := by
    rw [← h.hourTimepoint, ← h.minuteTimepoint]
    cases c.2 <;> exact ⟨rfl, rfl⟩
  rw [← traffic_singleton, ← traffic_append, ← h.id] at hcount
  refine ⟨fun hcover => ?_, fun hmin => ?_, fun hday => ?_⟩
  · have hsame : ((c.2.count e (w.sess s).id (w.sess s).limit).rollHour c.1).rollMinute c.1 =
        c.2.count e (w.sess s).id (w.sess s).limit := by
      rw [Limit.rollHour, if_neg (not_not.2 (hcover.2.trans hpoints.1.symm)), Limit.rollMinute,
        if_neg (not_not.2 (hcover.1.trans hpoints.2.symm))]
    rw [hsame] at hu
    refine ⟨h'.conf ▸ h.conf, h'.id.trans h.id, h'.serves, ?_, ?_, ?_, ?_⟩ <;> rw [hu]
    · exact h.id ▸ hcount.1 (h.id ▸ h.hour)
    · exact h.id ▸ hcount.2 (h.id ▸ h.minute)
    · exact hpoints.1
    · exact hpoints.2
  · rw [hu, Limit.rollMinute, if_pos]
    rw [Limit.rollHour]
    split_ifs <;> exact fun heq => hmin (heq.trans hpoints.2)
  · have hroll : (c.2.count e (w.sess s).id (w.sess s).limit).rollHour c.1 =
        { c.2.count e (w.sess s).id (w.sess s).limit with hour := {}, hourTimepoint := c.1.tdiv daySeconds } :=
      if_pos fun heq => hday (heq.trans hpoints.1)
    rw [hu, hroll, Limit.rollMinute]
    split_ifs <;> rfl

theorem wp_callRun_append {Q : Unit → World → Prop} {E : Fault → World → Prop} (calls : List (ℤ × Call)) (c : ℤ × Call) :
    wp (callRun e s (calls ++ [c])) Q E w ↔
      wp (callRun e s calls) (fun _ => wp (callAt e (reentry e e.depth) s c) Q E) E w := by
  unfold callRun
  rw [show (calls ++ [c]).forM _ = calls.forM _ >>= fun _ => [c].forM _ from List.forM_append, wp_bind]
  exact ⟨fun h => wp_post h fun _ _ h' => (wp_bind _ _).1 h', fun h => wp_post h fun _ _ h' => (wp_bind _ _).2 h'⟩

/-- calls that the time points cover are counted, as `size_t` -/
theorem callRun_windowed (hserves : w.Serves s) (hconf : w.conf.Unlimited)
    (hzero : (w.sess s).limit.hour = {} ∧ (w.sess s).limit.minute = {}) {calls : List (ℤ × Call)}
    (hpacks : ∀ c ∈ calls, c.2.Packs e (w.sess s).id) (hcover : ∀ c ∈ calls, (w.sess s).limit.Covers c.1) :
    wp (callRun e s calls) (fun _ => Windowed e s w calls) (fun _ _ => True) w := by
  induction calls using List.reverseRecOn with
  | nil => exact ⟨hconf, rfl, hserves, hzero.1, hzero.2, rfl, rfl⟩
  | append_singleton calls c ih =>
    have hlast : c ∈ calls ++ [c] := List.mem_append_right _ (List.mem_singleton_self c)
    have hbefore := ih (fun d hd => hpacks d (List.mem_append_left _ hd)) fun d hd => hcover d (List.mem_append_left _ hd)
    refine (wp_callRun_append calls c).2 (wp_post hbefore fun _ w₁ h₁ => ?_)
    exact wp_post (h₁.callAt _ (hpacks c hlast)) fun _ w₂ h₂ => h₂.1 (hcover c hlast)

theorem traffic_times (e : GwEnv) (id : UInt64) (calls : List (ℤ × Call)) :
    (traffic e id calls).recvTimes + (traffic e id calls).sendTimes = calls.length := by
  induction calls with
  | nil => rfl
  | cons c calls ih =>
    simp only [traffic, List.map_cons, List.sum_cons, List.length_cons] at ih ⊢
    have hone : (c.2.traffic e id).recvTimes + (c.2.traffic e id).sendTimes = 1 := by cases c.2 <;> rfl
    omega

theorem traffic_ne_zero {id : UInt64} {calls : List (ℤ × Call)} {c : ℤ × Call} (hc : c ∈ calls) :
    traffic e id calls ≠ {} := by
  intro h
  have htimes := traffic_times e id calls
  rw [h] at htimes
  exact absurd (List.length_pos_of_mem hc) (htimes ▸ lt_irrefl 0)

theorem fits_of_append {id : UInt64} {calls calls' : List (ℤ × Call)} (h : (traffic e id (calls ++ calls')).Fits) :
    (traffic e id calls).Fits := by
  rw [traffic_append] at h
  obtain ⟨h₁, h₂, h₃, h₄⟩ := h
  exact ⟨Nat.lt_of_le_of_lt (Nat.le_add_right ..) h₁, Nat.lt_of_le_of_lt (Nat.le_add_right ..) h₂,
    Nat.lt_of_le_of_lt (Nat.le_add_right ..) h₃, Nat.lt_of_le_of_lt (Nat.le_add_right ..) h₄⟩

theorem tdiv_natCast_mul (n : ℤ) (m k : ℕ) : n.tdiv (m * k : ℕ) = (n.tdiv m).tdiv k := by
  obtain ⟨n, rfl | rfl⟩ := n.eq_nat_or_neg
  · simp only [← Int.ofNat_tdiv, Nat.div_div_eq_div_mul]
  · simp only [Int.neg_tdiv, ← Int.ofNat_tdiv, Nat.div_div_eq_div_mul]

/-- a minute lies in one hour -/
theorem sameHour {t u : ℤ} (h : t.tdiv minuteSeconds = u.tdiv minuteSeconds) : t.tdiv 3600 = u.tdiv 3600 := by
  have hour : ∀ n : ℤ, n.tdiv 3600 = (n.tdiv minuteSeconds).tdiv 60 := fun n => tdiv_natCast_mul n 60 60
  rw [hour, hour, h]

/-- the counters of the minute and the hour of `t` are those of the calls -/
def Counts (e : GwEnv) (id : UInt64) (calls : List (ℤ × Call)) (t : ℤ) (l : Limit) : Prop :=
  l.minute = traffic e id (calls.filter fun c => c.1.tdiv 60 = t.tdiv 60) ∧
    l.hour = traffic e id (calls.filter fun c => c.1.tdiv 3600 = t.tdiv 3600)

/-- behind calls that the time points cover all calls are to be counted -/
theorem counts_covered_iff {id : UInt64} {l₀ l : Limit} {calls : List (ℤ × Call)} {t : ℤ} (ht : l₀.Covers t)
    (hcover : ∀ c ∈ calls, l₀.Covers c.1) :
    Counts e id calls t l ↔ l.minute = traffic e id calls ∧ l.hour = traffic e id calls := by
  have hmin : ∀ c ∈ calls, c.1.tdiv minuteSeconds = t.tdiv minuteSeconds := fun c hc => (hcover c hc).1.trans ht.1.symm
  have hminutes : (calls.filter fun c => c.1.tdiv 60 = t.tdiv 60) = calls :=
    List.filter_eq_self.2 fun c hc => decide_eq_true (hmin c hc)
  have hhours : (calls.filter fun c => c.1.tdiv 3600 = t.tdiv 3600) = calls :=
    List.filter_eq_self.2 fun c hc => decide_eq_true (sameHour (hmin c hc))
  rw [Counts, hminutes, hhours]

/-- **The windowed counters** are right behind every call of a sequence exactly if every call is made in the minute
and on the day of the time points that the session has at first, and no counter runs over. -/
theorem windows_count_iff (e : GwEnv) (s : ℕ) (w : World) (calls : List (ℤ × Call)) (hserves : w.Serves s)
    (hconf : w.conf.Unlimited) (hzero : (w.sess s).limit.hour = {} ∧ (w.sess s).limit.minute = {})
    (hpacks : ∀ c ∈ calls, c.2.Packs e (w.sess s).id) (hok : (exec (callRun e s calls) w).1 = .ok ()) :
    (∀ before c, before ++ [c] <+: calls → Counts e (w.sess s).id (before ++ [c]) c.1
      ((exec (callRun e s (before ++ [c])) w).2.sess s).limit) ↔
    (∀ c ∈ calls, (w.sess s).limit.Covers c.1) ∧ (traffic e (w.sess s).id calls).Fits := by
  have hrun : ∀ before, before <+: calls → exec (callRun e s before) w = (.ok (), (exec (callRun e s before) w).2) := by
    rintro before ⟨after, rfl⟩
    exact exec_of_fst (exec_forM_append hok)
  have hwindowed : ∀ before, before <+: calls → (∀ c ∈ before, (w.sess s).limit.Covers c.1) →
      wp (callRun e s before) (fun _ => Windowed e s w before) (fun _ _ => True) w := fun before hbefore hcover =>
    callRun_windowed hserves hconf hzero (fun c hc => hpacks c (hbefore.subset hc)) hcover
  constructor
  · intro hcounts
    have hcover : ∀ before, before <+: calls → ∀ c ∈ before, (w.sess s).limit.Covers c.1 := by
      intro before
      induction before using List.reverseRecOn with
      | nil => exact fun _ c hc => absurd hc List.not_mem_nil
      | append_singleton before c ih =>
        intro hbefore
        have hlast : c ∈ before ++ [c] := List.mem_append_right _ (List.mem_singleton_self c)
        have hinitial : before <+: calls := (List.prefix_append before [c]).trans hbefore
        obtain ⟨hminute, hhour⟩ := hcounts before c hbefore
        have hstep := wp_post (hwindowed before hinitial (ih hinitial)) fun _ _ h =>
          h.callAt (reentry e e.depth) (hpacks c (hbefore.subset hlast))
        obtain ⟨-, hmin, hday⟩ := wp_ok ((wp_callRun_append before c).2 hstep) (hrun _ hbefore)
        -- a call that is not covered clears a counter that should be at least 1
        have hcovered : (w.sess s).limit.Covers c.1 := by
          constructor
          · exact not_not.1 fun hne => traffic_ne_zero (List.mem_filter.2 ⟨hlast, decide_eq_true rfl⟩)
              (hminute.symm.trans (hmin hne))
          · exact not_not.1 fun hne => traffic_ne_zero (List.mem_filter.2 ⟨hlast, decide_eq_true rfl⟩)
              (hhour.symm.trans (hday hne))
        intro d hd
        rcases List.mem_append.1 hd with hd | hd
        · exact ih hinitial d hd
        · exact List.mem_singleton.1 hd ▸ hcovered
    refine ⟨hcover calls (List.prefix_refl calls), ?_⟩
    rcases List.eq_nil_or_concat calls with rfl | ⟨before, c, rfl⟩
    · exact ⟨Nat.two_pow_pos 64, Nat.two_pow_pos 64, Nat.two_pow_pos 64, Nat.two_pow_pos 64⟩
    · rw [List.concat_eq_append] at *
      have hall := hcover _ (List.prefix_refl _)
      have hlast : c ∈ before ++ [c] := List.mem_append_right _ (List.mem_singleton_self c)
      have hsum := ((counts_covered_iff (hall c hlast) hall).1 (hcounts before c (List.prefix_refl _))).1
      have h := wp_ok (hwindowed _ (List.prefix_refl _) hall) (hrun _ (List.prefix_refl _))
      exact wrap_eq_self_iff.1 (h.minute.symm.trans hsum)
  · rintro ⟨hcover, hfits⟩ before c hbefore
    have hlast : c ∈ before ++ [c] := List.mem_append_right _ (List.mem_singleton_self c)
    have hall : ∀ d ∈ before ++ [c], (w.sess s).limit.Covers d.1 := fun d hd => hcover d (hbefore.subset hd)
    have h := wp_ok (hwindowed _ hbefore hall) (hrun _ hbefore)
    obtain ⟨after, hafter⟩ := hbefore
    have hwrap := wrap_eq_self_iff.2 (fits_of_append (hafter ▸ hfits))
    exact (counts_covered_iff (hall c hlast) hall).2 ⟨h.minute.trans hwrap, h.hour.trans hwrap⟩

/-- a gateway with one session, at 1500000000 -/
def World.oneSession : World :=
  (exec (gwRun (scriptEnv [plainStartReq] 2) startOne) (World.start openConf 1500000000 none)).2

theorem serves_oneSession : World.oneSession.Serves 0 :=
  ⟨by decide +kernel, by decide +kernel, by decide +kernel, by decide +kernel, by decide +kernel⟩

theorem unlimited_oneSession : World.oneSession.conf.Unlimited :=
  ⟨by decide +kernel, by decide +kernel, by decide +kernel⟩

theorem windows_count_two : Counts (scriptEnv [plainStartReq] 2) (World.oneSession.sess 0).id
    ([(1500000001, .toClient [7, 8])] ++ [(1500000009, .toServer (.addSession {}))]) 1500000009
      ((exec (callRun (scriptEnv [plainStartReq] 2) 0
        ([(1500000001, .toClient [7, 8])] ++ [(1500000009, .toServer (.addSession {}))])) World.oneSession).2.sess 0).limit :=
  (windows_count_iff (scriptEnv [plainStartReq] 2) 0 World.oneSession
    ([(1500000001, .toClient [7, 8])] ++ [(1500000009, .toServer (.addSession {}))]) serves_oneSession unlimited_oneSession
    ⟨by decide +kernel, by decide +kernel⟩ (by
      intro c hc
      rcases List.mem_pair.1 hc with rfl | rfl
      · trivial
      · rfl) (by decide +kernel)).2 ⟨by
        intro c hc
        rcases List.mem_pair.1 hc with rfl | rfl <;> exact ⟨by decide +kernel, by decide +kernel⟩,
      ⟨by decide +kernel, by decide +kernel, by decide +kernel, by decide +kernel⟩⟩
    [(1500000001, .toClient [7, 8])] (1500000009, .toServer (.addSession {})) (List.prefix_refl _)

/-- the first message of a new minute is not counted in it -/
theorem windows_next_minute : World.oneSession.Serves 0 ∧ World.oneSession.conf.Unlimited ∧
    ((World.oneSession.sess 0).limit.hour = {} ∧ (World.oneSession.sess 0).limit.minute = {}) ∧
    ¬ Counts (scriptEnv [plainStartReq] 2) (World.oneSession.sess 0).id [(1500000060, .toClient [7])] 1500000060
      ((exec (callRun (scriptEnv [plainStartReq] 2) 0 [(1500000060, .toClient [7])]) World.oneSession).2.sess 0).limit :=
  ⟨serves_oneSession, unlimited_oneSession, ⟨by decide +kernel, by decide +kernel⟩, fun h =>
    absurd h.1 (by decide +kernel)⟩

end AtFrame.Gateway
