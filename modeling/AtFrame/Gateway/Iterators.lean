/-
What `session_manager::close` does to the maps.

It closes the session between finding the entry and erasing it through the iterator. `session::close` leaves the maps as they
are, whatever it calls back (`Spares`). The close for a reconnect only closes the socket and does not mark the session as
closing: if the object ends at once, its `close_fn` leads back into `session_manager::close`, and the entry is gone.

The results:

- `reentry_spares`: `session::close`, at every depth;
- `run_closeOnce`: a close behind any run erases the entry it found and nothing else, unless the object of a session that it lets
  wait may end at once (`EndsAtOnce`: it is open, nothing is under way, and the kickoff message or a write may be refused);
- `managerClose_twice`: the premise is needed. In every state in which that object does end at once (`EndsNow`), the close erases
  its entry twice and never returns;
- `run_closeOnce_failed`: the run of a gateway in which the second `uv_write` fails.
-/
import AtFrame.Gateway.Idle
import AtFrame.Inner.Kickoff

namespace AtFrame.Gateway

open AtFrame.Lib

/-- no iterator was used that had become invalid -/
def Sure (fault : Fault) (_ : World) : Prop := fault ≠ .badIterator

variable {e : GwEnv} {rec : Reentry} {s : ℕ} {w w₀ w₁ w' : World}

/-! ## Closing one session -/

/-- the maps and timers are as they were, and of the session what `session::close` relies on -/
structure Spares (s : ℕ) (w w' : World) : Prop where
  actived : w'.actived = w.actived
  cache : w'.reconnectCache = w.reconnectCache
  timers : w'.reconnectTimeout = w.reconnectTimeout
  done : (w'.sess s).proto.flags.handshakeDone = (w.sess s).proto.flags.handshakeDone
  registered : (w'.sess s).flags.registered = true → (w.sess s).flags.registered = true
  closing : (w.sess s).flags.closing = true → (w'.sess s).flags.closing = true

theorem Spares.refl (s : ℕ) (w : World) : Spares s w w := ⟨rfl, rfl, rfl, rfl, id, id⟩

theorem Spares.trans (h : Spares s w w₁) (h' : Spares s w₁ w') : Spares s w w' :=
  ⟨h'.actived.trans h.actived, h'.cache.trans h.cache, h'.timers.trans h.timers, h'.done.trans h.done,
    h.registered ∘ h'.registered, h'.closing ∘ h.closing⟩

/-- the session changes, but for what is listed -/
theorem Spares.setSess {x : Session} (h : Spares s w₀ w)
    (hdone : x.proto.flags.handshakeDone = (w.sess s).proto.flags.handshakeDone)
    (hregistered : x.flags.registered = true → (w.sess s).flags.registered = true)
    (hclosing : (w.sess s).flags.closing = true → x.flags.closing = true) : Spares s w₀ (w.setSess s x) := by
  have hx := World.setSess_sess s x w
  exact h.trans ⟨rfl, rfl, rfl, by rw [hx, hdone], fun hr => hregistered (hx ▸ hr), fun hc => by rw [hx, hclosing hc]⟩

theorem Spares.recorded (h : Spares s w₀ w) (step : Step) : Spares s w₀ (w.recorded step) :=
  ⟨h.actived, h.cache, h.timers, h.done, h.registered, h.closing⟩

theorem Spares.noticed (h : Spares s w₀ w) (body : SsBody) (len : ℕ) (ret : ℤ) : Spares s w₀ (w.noticed s body len ret) := by
  have hset := h.setSess (x := (w.sess s).setLimit ((w.sess s).limit.addRecv len)) rfl id id
  exact ⟨hset.actived, hset.cache, hset.timers, hset.done, hset.registered, hset.closing⟩

/-- a session that the servers know has ended its handshake -/
def Session.Known (x : Session) : Prop := x.flags.registered = true → x.proto.flags.handshakeDone = true

theorem Spares.known (h : Spares s w₀ w) (hknown : (w₀.sess s).Known) : (w.sess s).Known := fun hr =>
  h.done.trans (hknown (h.registered hr))

/-- what the functions that `session::close` leads back to do -/
structure Sparing (rec : Reentry) : Prop where
  close : ∀ {s : ℕ} {w : World} (reason : ℤ), (w.sess s).Known → wp (rec.close s reason) (fun _ w' => Spares s w w') Sure w
  onClose : ∀ {s : ℕ} {w : World} (reason : ℤ), (w.sess s).flags.closing = true →
    wp (rec.onClose s reason) (fun _ w' => Spares s w w') Sure w

/-- the same, where `close_fn` finds a session that is closing, or is not called -/
def Spared (s : ℕ) (w₀ w : World) : Prop :=
  Spares s w₀ w ∧ ((w.sess s).flags.closing = true ∨ (w.sess s).proto.flags.closing = false)

theorem Spared.setProto {p : Proto} (h : Spared s w₀ w) (hdone : p.flags.handshakeDone = (w.sess s).proto.flags.handshakeDone)
    (hclosing : p.flags.closing = (w.sess s).proto.flags.closing) : Spared s w₀ (w.setSess s { w.sess s with proto := p }) := by
  refine ⟨h.1.setSess hdone id id, ?_⟩
  rw [World.setSess_sess]
  exact h.2.imp id hclosing.trans

theorem onWrite_spared (h : Spared s w₀ w) (buf : Bytes) : wp (onWrite e s buf) (fun _ w' => Spared s w₀ w') Sure w := by
  unfold onWrite
  simp only [wp_ite, wp_throw, wp_bind, wp_get, wp_modify, wp_modifySess, wp_getSess, wp_pure]
  refine ⟨fun _ => by unfold Sure; decide, fun _ => ?_⟩
  have hcount : Spared s w₀ { w with writes := w.writes + 1 } :=
    ⟨⟨h.1.actived, h.1.cache, h.1.timers, h.1.done, h.1.registered, h.1.closing⟩, h.2⟩
  refine ⟨hcount.1.setSess rfl id id, ?_⟩
  rw [World.setSess_sess]
  exact hcount.2

theorem gwHost_spares (hrec : Sparing rec) : (gwHost e rec s).Writes (Spared s w₀) (Spared s w₀) Sure where
  quiet h hp := h.setProto hp.handshakeDone hp.closing
  overflow _ _ := by unfold Sure; decide
  assertFail _ := by unfold Sure; decide
  errorFn f hf errcode errmsg w h := by
    cases hf
    exact h
  writeFn f hf w p buf h hopen hwriting hp := by
    cases hf
    exact wp_post (onWrite_spared (h.setProto (by rw [hp]) (by rw [hp])) buf) fun _ _ hw' => ⟨fun _ => hw', fun _ => hw'⟩
  idle h _ := h
  release h _ _ hp := h.setProto (by rw [hp]) (by rw [hp])
  written {w} hopen hclosing h p hp := by
    have hw : Spared s w₀ w := h.elim And.left And.left
    have hset : Spared s w₀ (w.setSess s { w.sess s with proto := p }) :=
      hw.setProto (by rw [hp]) (by rw [hp]; exact hclosing.symm)
    refine ⟨fun hnone => (nomatch hnone), fun f hf reason => ?_⟩
    cases hf
    have hmarked : ((w.setSess s { w.sess s with proto := p }).sess s).flags.closing = true := by
      refine hset.2.resolve_right fun hproto => ?_
      rw [World.setSess_sess, hp] at hproto
      exact Bool.false_ne_true hproto.symm
    refine wp_post (hrec.onClose reason hmarked) fun _ w' h' => ⟨hset.1.trans h', .inl (h'.closing hmarked)⟩

/-- the object of a session that is closing is closed -/
theorem close_spares (hrec : Sparing rec) (hmarked : (w.sess s).flags.closing = true) (reason : ℤ) :
    wp (close (gwHost e rec s) reason true) (fun _ w' => Spares s w w') Sure w := by
  have hcalm : (gwHost e rec s).Calm (Spared s w) Sure := (gwHost_spares hrec).calm
  refine hcalm.close (fun _ h _ => h.1) (fun w₁ h₁ => ?_) reason true ⟨.refl s w, .inl hmarked⟩
  have hset : ∀ p : Proto, p.flags.handshakeDone = (w₁.sess s).proto.flags.handshakeDone →
      Spares s w (w₁.setSess s { w₁.sess s with proto := p }) := fun p hdone => h₁.1.setSess hdone id id
  refine Host.finishClose_wp (fun _ p hp => hset p (by rw [hp])) fun _ _ p hp =>
    ⟨fun hnone => (nomatch hnone), fun f hf reason => ?_⟩
  cases hf
  have hclosed := hset p (by rw [hp])
  exact wp_post (hrec.onClose reason (hclosed.closing hmarked)) fun _ _ h' => hclosed.trans h'

/-- a new key for a session whose handshake is done -/
theorem sendKeySyn_spares (hrec : Sparing rec) (hdone : (w.sess s).proto.flags.handshakeDone = true) :
    wp (sendKeySyn (gwHost e rec s)) (fun _ w' => Spares s w w') Sure w := by
  by_cases hclosing : (w.sess s).proto.flags.closing = true
  · unfold sendKeySyn
    simp only [wp_bind, Host.wp_get, wp_ite, wp_pure]
    exact ⟨fun _ => .refl s w, fun hopen => absurd hclosing hopen⟩
  · have hcalm : (gwHost e rec s).Calm (Spared s w) Sure := (gwHost_spares hrec).calm
    have hends : (gwHost e rec s).Ends (Spared s w) Sure Host.Guard.free :=
      { hcalm with
        done := fun h hopen => absurd ((h.1.done.trans hdone).symm.trans hopen) (by decide)
        updateFn := fun f hf status w' h => by
          cases hf
          exact h
        finishCalm := hcalm.free }
    exact wp_post (hends.sendKeySyn ⟨.refl s w, .inr (Bool.not_eq_true _ ▸ hclosing)⟩ fun _ _ => trivial) fun _ _ h => h.1

/-! ## Limits and notices -/

section limits

variable (hrec : Sparing rec) (hknown : (w₀.sess s).Known) (checkRecv checkSend : Bool)

include hrec hknown

theorem close_from (h : Spares s w₀ w) (reason : ℤ) : wp (rec.close s reason) (fun _ w' => Spares s w₀ w') Sure w :=
  wp_post (hrec.close reason (h.known hknown)) fun _ _ h' => h.trans h'

theorem limitCheck_spares (check : Bool) (exceeded : GwConf → Limit → Bool) :
    Keeps (Spares s w₀) Sure (limitCheck rec s check exceeded) := by
  intro w h
  unfold limitCheck
  simp only [wp_ite, wp_bind, wp_getSess, wp_get, wp_pure, wp_throw]
  refine ⟨fun _ => ⟨fun _ => ⟨fun _ => close_from hrec hknown h _, fun _ => h⟩, fun _ => ?_⟩, fun _ => h⟩
  unfold Sure
  decide

theorem checkHourLimit_spares : Keeps (Spares s w₀) Sure (checkHourLimit rec s checkRecv checkSend) := by
  intro w h
  have hcheck := limitCheck_spares hrec hknown
  unfold checkHourLimit
  rw [wp_bind, wp_record]
  simp only [wp_bind, wp_get, wp_getSess, wp_ite, wp_modifySess, wp_pure]
  refine ⟨fun _ => (h.recorded _).setSess rfl id id, fun _ => ⟨fun _ => h.recorded _, fun _ =>
    ⟨fun _ => h.recorded _, fun _ => ?_⟩⟩⟩
  refine wp_post (hcheck _ _ _ (h.recorded _)) fun _ _ h₁ => wp_post (hcheck _ _ _ h₁) fun _ _ h₂ => ?_
  exact wp_post (hcheck _ _ _ h₂) fun _ _ h₃ => hcheck _ _ _ h₃

theorem checkTotalLimit_spares : Keeps (Spares s w₀) Sure (checkTotalLimit rec s checkRecv checkSend) := by
  intro w h
  have hcheck := limitCheck_spares hrec hknown
  unfold checkTotalLimit
  rw [wp_bind, wp_record]
  simp only [wp_bind, wp_getSess, wp_ite, wp_pure]
  refine ⟨fun _ => h.recorded _, fun _ => ⟨fun _ => h.recorded _, fun _ => ?_⟩⟩
  refine wp_post (hcheck _ _ _ (h.recorded _)) fun _ _ h₁ => wp_post (hcheck _ _ _ h₁) fun _ _ h₂ => ?_
  exact wp_post (hcheck _ _ _ h₂) fun _ _ h₃ => hcheck _ _ _ h₃

variable (hdone : (w₀.sess s).proto.flags.handshakeDone = true)

include hdone

theorem checkMinuteLimit_spares : Keeps (Spares s w₀) Sure (checkMinuteLimit e rec s checkRecv checkSend) := by
  intro w h
  unfold checkMinuteLimit
  rw [wp_bind, wp_record]
  simp only [wp_bind, wp_get, wp_getSess, wp_ite, wp_modifySess, wp_pure]
  refine ⟨fun _ => (h.recorded _).setSess rfl id id, fun _ => ⟨fun _ => h.recorded _, fun _ => ⟨fun _ => h.recorded _, fun _ =>
    ⟨fun _ => close_from hrec hknown (h.recorded _) _, fun _ => ?_⟩⟩⟩⟩
  unfold updateKey
  simp only [wp_bind, wp_get, wp_getSess, wp_ite, wp_modifySess, wp_pure]
  refine ⟨fun _ => ?_, fun _ => h.recorded _⟩
  have hset : Spares s w₀ ((w.recorded (.check s .minute checkRecv checkSend)).setSess s ((w.sess s).setLimit
      { (w.sess s).limit with updateHandshakeTimepoint := w.now + w.conf.crypt.updateInterval })) :=
    (h.recorded _).setSess rfl id id
  exact wp_post (sendKeySyn_spares hrec (hset.done.trans hdone)) fun _ _ h' => hset.trans h'

theorem checkLimits_spares : Keeps (Spares s w₀) Sure (checkLimits e rec s checkRecv checkSend) :=
  keeps_bind (checkHourLimit_spares hrec hknown _ _) fun _ =>
    keeps_bind (checkMinuteLimit_spares hrec hknown _ _ hdone) fun _ => checkTotalLimit_spares hrec hknown _ _

end limits

theorem sendToServer_spares (hrec : Sparing rec) (hdone : (w.sess s).proto.flags.handshakeDone = true) (body : SsBody) (mgr : Bool) :
    wp (sendToServer e rec s body mgr) (fun _ w' => Spares s w w') Sure w := by
  unfold sendToServer
  simp only [wp_bind, wp_getSess, wp_ite, wp_pure]
  refine ⟨fun _ => .refl s w, fun _ => ⟨fun _ => .refl s w, fun _ => ?_⟩⟩
  cases e.serialize (w.sess s).id body with
  | none => exact .refl s w
  | some len =>
    unfold sendData
    simp only [wp_bind, wp_modifySess, wp_get, wp_modify, wp_pure]
    exact checkLimits_spares hrec (fun _ => hdone) _ _ hdone _ ((Spares.refl s w).noticed body len _)

theorem sendRemoveSession_spares (hrec : Sparing rec) (hknown : (w.sess s).Known) (mgr : Bool) :
    wp (sendRemoveSession e rec s mgr) (fun _ w' => Spares s w w') Sure w := by
  unfold sendRemoveSession
  simp only [wp_bind, wp_getSess, wp_ite, wp_pure, wp_modifySess, not_not]
  refine ⟨fun _ => .refl s w, fun hreg => wp_post (sendToServer_spares hrec (hknown hreg) _ mgr) fun ret w₁ h => ?_⟩
  exact ⟨fun _ => h.setSess rfl (fun hfalse => absurd hfalse Bool.false_ne_true) id, fun _ => h⟩

/-! ## `session::close` -/

/-- a session that is closing loses its socket -/
theorem closeFd_spares (hrec : Sparing rec) (h : Spares s w₀ w) (hmarked : (w.sess s).flags.closing = true) (reason : ℤ) :
    wp (closeFd e rec s reason) (fun _ w' => Spares s w₀ w') Sure w := by
  unfold closeFd
  simp only [wp_bind, wp_getSess, wp_ite, wp_pure, wp_modifySess]
  refine ⟨fun _ => h, fun _ => ⟨fun _ => ?_, fun _ => h⟩⟩
  have hlost : Spares s w₀ (w.setSess s (w.sess s).loseFd) := h.setSess rfl id id
  have hmarked' : ((w.setSess s (w.sess s).loseFd).sess s).flags.closing = true := by
    rw [World.setSess_sess]
    exact hmarked
  refine wp_post (close_spares hrec hmarked' reason) fun _ w₁ h₁ => ?_
  have hdrop : Spares s w₀ (w₁.setSess s (w₁.sess s).dropOwner) := (hlost.trans h₁).setSess rfl id id
  have hlight := Session.light_shutdownIfClosed ((w₁.setSess s (w₁.sess s).dropOwner).sess s)
  refine hdrop.setSess hlight.done ?_ ?_ <;> rw [hlight.flags] <;> exact id

theorem closeWithManager_spares (hrec : Sparing rec) (hknown : (w.sess s).Known) (reason : ℤ) (mgr : Bool) :
    wp (closeWithManager e rec s reason mgr) (fun _ w' => Spares s w w') Sure w := by
  have hrest : ∀ w₁, Spares s w w₁ → wp (do
      let x ← getSess s
      if x.flags.closing then return 0
      else
        modifySess s fun x => x.setFlags { x.flags with closing := true }
        closeFd e rec s reason) (fun _ w' => Spares s w w') Sure w₁ := by
    intro w₁ h₁
    simp only [wp_bind, wp_getSess, wp_ite, wp_pure, wp_modifySess]
    have hmark : Spares s w (w₁.setSess s (w₁.sess s).markClosing) := h₁.setSess rfl id fun _ => rfl
    refine ⟨fun _ => h₁, fun _ => closeFd_spares hrec hmark ?_ reason⟩
    rw [World.setSess_sess]
    rfl
  unfold closeWithManager
  simp only [wp_bind, wp_getSess, wp_ite, wp_pure]
  simp only [wp_bind, wp_getSess, wp_ite, wp_pure] at hrest
  refine ⟨fun _ => ?_, fun _ => hrest w (.refl s w)⟩
  exact wp_post (sendRemoveSession_spares hrec hknown mgr) fun _ w₁ h₁ => hrest w₁ h₁

theorem sessionClose_spares (hrec : Sparing rec) (hknown : (w.sess s).Known) (reason : ℤ) :
    wp (sessionClose e rec s reason) (fun _ w' => Spares s w w') Sure w := by
  unfold sessionClose
  simp only [wp_bind, wp_getSess]
  exact closeWithManager_spares hrec hknown reason _

/-- **`session::close`** leaves the maps as they are, at every depth. -/
theorem reentry_spares (e : GwEnv) (n : ℕ) : Sparing (reentry e n) := by
  induction n with
  | zero =>
    refine ⟨fun _ _ => ?_, fun _ _ => ?_⟩
    · exact (by decide : Fault.stackOverflow ≠ .badIterator)
    · exact (by decide : Fault.stackOverflow ≠ .badIterator)
  | succ n ih =>
    refine ⟨fun reason hknown => sessionClose_spares ih hknown reason, fun reason hmarked => ?_⟩
    change wp (onClose e (reentry e n) _ reason) _ _ _
    unfold onClose
    simp only [wp_bind, wp_getSess, wp_ite, wp_pure]
    exact ⟨fun _ => .refl _ _, fun hopen => absurd hmarked hopen⟩

/-! ## The close for a reconnect -/

/-- the kickoff message is written, and the write does not fail at once -/
structure Handed (e : GwEnv) (w : World) (s : ℕ) (reason : ℤ) : Prop where
  fits : Closing.KickoffFits e.ext (w.sess s).proto reason
  offset : (w.sess s).proto.writeHeaderOffset ≤ 2 ^ 63
  writes : ∀ n, w.writes ≤ n → e.uvWrite n = 0

/-- closing the socket of the session may end its object at once -/
def EndsAtOnce (e : GwEnv) (w : World) (s : ℕ) (reason : ℤ) : Prop :=
  (w.sess s).flags.hasFd = true ∧ (w.sess s).flags.closingFd = false ∧ (w.sess s).proto.flags.closing = false ∧
    (w.sess s).proto.flags.writing = false ∧ ¬ Handed e w s reason

/-- the session that `close` lets wait for a reconnect -/
def Core.parks (w : Core) (id : UInt64) (allow : Bool) : Option ℕ :=
  if 0 < w.conf.reconnectTimeout ∧ allow = true then w.actived.lookup id else none

theorem parks_some {id : UInt64} {allow : Bool} (h : w.parks id allow = some s) :
    (0 < w.conf.reconnectTimeout ∧ allow = true) ∧ w.actived.lookup id = some s := by
  unfold Core.parks at h
  split_ifs at h with hwait
  exact ⟨hwait, h⟩

/-- exactly the entry that was found is erased, and exactly a session that may reconnect gets a timer and a cache entry -/
structure Core.ClosedOnce (w : Core) (id : UInt64) (allow : Bool) (w' : Core) : Prop where
  actived : w'.actived = w.actived.erase id
  timers : w'.reconnectTimeout =
    w.reconnectTimeout ++ (w.parks id allow).toList.map fun s => (w.now + w.conf.reconnectTimeout, s)
  cache : w'.reconnectCache =
    match w.parks id allow with
    | some s => w.reconnectCache.insert (w.sess s).id s
    | none => if w.actived.lookup id = none ∧ allow = false then w.reconnectCache.erase id else w.reconnectCache

theorem tryMerge_room {off : ℕ} {q q' : BlockQueue UInt8} (h : ∃ b ∈ q.blocks, off < b.size) (hq : tryMerge off q = some q') :
    ∃ b ∈ q'.blocks, off < b.size := by
  unfold tryMerge at hq
  cases hfront : q.front? with
  | none =>
    simp only [hfront] at hq
    exact Option.some.inj hq ▸ h
  | some b =>
    simp only [hfront] at hq
    split_ifs at hq with hmerge hlen
    · obtain ⟨-, rfl⟩ := BlockQueue.pushFront_some hq
      exact ⟨_, List.mem_cons_self, Nat.lt_add_of_pos_right hlen.1⟩
    · exact Option.some.inj hq ▸ h

/-- a write that does not fail completes later -/
theorem onWrite_pending (hwrites : ∀ n, w₀.writes ≤ n → e.uvWrite n = 0) (h : Spares s w₀ w) (hcount : w₀.writes ≤ w.writes)
    (buf : Bytes) :
    wp (onWrite e s buf) (fun r w' => r.2 = false ∧ Spares s w₀ w' ∧ (w'.sess s).proto = (w.sess s).proto) Sure w := by
  unfold onWrite
  simp only [wp_bind, wp_ite, wp_throw, wp_get, wp_modify, wp_modifySess, wp_getSess, wp_pure, World.setSess_sess,
    hwrites w.writes hcount]
  refine ⟨fun _ => by unfold Sure; decide, fun _ => ⟨rfl, ?_, rfl⟩⟩
  have hwritten : Spares s w₀ { w with writes := w.writes + 1 } :=
    ⟨h.actived, h.cache, h.timers, h.done, h.registered, h.closing⟩
  exact hwritten.setSess rfl id id

/-- a queue with something to write is handed over, and the write is under way -/
theorem tryWrite_hands (hwrites : ∀ n, w₀.writes ≤ n → e.uvWrite n = 0) (n : ℕ) (h : Spares s w₀ w) (hcount : w₀.writes ≤ w.writes)
    (hopen : (w.sess s).proto.flags.closing = false) (hidle : (w.sess s).proto.flags.writing = false)
    (hroom : ∃ b ∈ (w.sess s).proto.writeBuffers.blocks, (w.sess s).proto.writeHeaderOffset < b.size) :
    wp (tryWrite (gwHost e rec s) n) (fun _ w' => Spares s w₀ w' ∧ (w'.sess s).proto.flags.writing = true) Sure w := by
  induction n generalizing w with
  | zero => exact (by decide : Fault.stackOverflow ≠ .badIterator)
  | succ n ih =>
    have hsome : (w.sess s).proto.writeBuffers.blocks ≠ [] := by
      obtain ⟨b, hb, -⟩ := hroom
      exact List.ne_nil_of_mem hb
    rw [tryWrite]
    simp only [wp_bind, Host.wp_get, Host.wp_modify, wp_ite, wp_pure, hopen, hidle, hsome, Bool.false_eq_true, false_implies,
      not_false_eq_true, true_and, true_implies]
    cases hmerge : tryMerge (w.sess s).proto.writeHeaderOffset (w.sess s).proto.writeBuffers with
    | none => exact (by decide : Fault.assertFail ≠ .badIterator)
    | some q =>
      have hqroom := tryMerge_room hroom hmerge
      simp only [wp_bind, Host.wp_modify]
      cases hfront : q.front? with
      | none => exact (by decide : Fault.assertFail ≠ .badIterator)
      | some b =>
        simp only [wp_ite, wp_bind, Host.wp_modify, World.setSess_sess, World.setSess_setSess]
        refine ⟨fun hsmall => ?_, fun _ => ?_⟩
        · -- an empty block is dropped, and the one with room is behind it
          refine ih (h.setSess rfl id id) hcount ?_ ?_ ?_ <;> rw [World.setSess_sess]
          · exact hopen
          · exact hidle
          · obtain ⟨c, hc, hroom⟩ := hqroom
            refine ⟨c, ?_, hroom⟩
            obtain ⟨bs, hbs⟩ : ∃ bs, q.blocks = b :: bs := List.head?_eq_some_iff.1 hfront
            rw [hbs] at hc
            rcases List.mem_cons.1 hc with rfl | hc
            · exact absurd hroom (Nat.not_lt.2 hsmall)
            · rw [BlockQueue.popFront, hbs]
              exact hc
        · have hset : Spares s w₀ (w.setSess s { w.sess s with proto := { (w.sess s).proto with
              writeBuffers := q, lastWritePtr := some b.addr, flags := { (w.sess s).proto.flags with writing := true } } }) :=
            h.setSess rfl id id
          refine wp_post (onWrite_pending hwrites hset hcount b.data) fun r w' hw' =>
            ⟨fun hdone => ?_, fun _ => ⟨hw'.2.1, ?_⟩⟩
          · exact absurd (hw'.1.symm.trans hdone) Bool.false_ne_true
          · rw [hw'.2.2, World.setSess_sess]

/-- while a write is under way nothing else is written -/
theorem gwHost_writing : (gwHost e rec s).Writes (fun w => Spares s w₀ w ∧ (w.sess s).proto.flags.writing = true)
    (fun _ => False) Sure where
  quiet h hp := by
    refine ⟨h.1.setSess hp.handshakeDone id id, ?_⟩
    rw [World.setSess_sess]
    exact hp.writing.trans h.2
  overflow _ _ := by unfold Sure; decide
  assertFail _ := by unfold Sure; decide
  errorFn f hf errcode errmsg w h := by
    cases hf
    exact h
  writeFn f hf w p buf h hopen hwriting hp := absurd (hwriting.symm.trans h.2) Bool.false_ne_true
  idle h _ := h.elim
  release h _ _ _ := h.elim
  written _ _ h := h.elim (fun h => h.1.elim) fun h => absurd (h.2.symm.trans h.1.2) Bool.false_ne_true

/-- `close_fn` is not called before the write is completed -/
theorem finishClose_writing (h : Spares s w₀ w) (hwriting : (w.sess s).proto.flags.writing = true) :
    wp (finishClose (gwHost e rec s)) (fun _ w' => Spares s w₀ w') Sure w :=
  Host.finishClose_wp (fun _ p hp => h.setSess (by rw [hp]) id id) fun _ hidle =>
    absurd (hidle.symm.trans hwriting) Bool.false_ne_true

/-- an object that does not end at once -/
theorem close_later {reason : ℤ} (h : (w.sess s).proto.flags.closing = true ∨ (w.sess s).proto.flags.writing = true ∨ Handed e w s reason) :
    wp (close (gwHost e rec s) reason true) (fun _ w' => Spares s w w') Sure w := by
  by_cases hclosing : (w.sess s).proto.flags.closing = true
  · unfold close
    simp only [wp_bind, Host.wp_get, wp_ite, wp_pure]
    exact ⟨fun _ => .refl s w, fun hopen => absurd hclosing hopen⟩
  by_cases hwriting : (w.sess s).proto.flags.writing = true
  · have hcalm : (gwHost e rec s).Calm (fun w₁ => Spares s w w₁ ∧ (w₁.sess s).proto.flags.writing = true) Sure :=
      gwHost_writing.calm
    exact hcalm.close (fun _ h _ => h.1) (fun _ h => finishClose_writing h.1 h.2) reason true ⟨.refl s w, hwriting⟩
  · obtain ⟨hfits, hoffset, hwrites⟩ := (h.resolve_left hclosing).resolve_left hwriting
    rw [Closing.wp_close_kick rfl (Bool.not_eq_true _ ▸ hclosing) hfits]
    have hsess : ∀ p : Proto, (w.setSess s { w.sess s with proto := p }).sess s = { w.sess s with proto := p } :=
      fun p => World.setSess_sess ..
    refine wp_post (tryWrite_hands hwrites _ ((Spares.refl s w).setSess rfl id id) le_rfl ?_ ?_ ?_) fun _ w₁ h₁ =>
      finishClose_writing h₁.1 h₁.2
    · rw [hsess]
      exact Bool.not_eq_true _ ▸ hclosing
    · rw [hsess]
      exact Bool.not_eq_true _ ▸ hwriting
    · rw [hsess]
      refine ⟨_, List.mem_append_right _ (List.mem_singleton_self _), ?_⟩
      have hlen := hfits.2.1
      have hpos := hfits.1
      simp only [Closing.Proto.kicked, Closing.kickoffBlock, Proto.totalBufferSize, msgHeaderLen]
      omega

theorem closeFd_later {reason : ℤ} (h : Spares s w₀ w) (hlater : ¬ EndsAtOnce e w s reason) :
    wp (closeFd e rec s reason) (fun _ w' => Spares s w₀ w') Sure w := by
  unfold closeFd
  simp only [wp_bind, wp_getSess, wp_ite, wp_pure, wp_modifySess]
  refine ⟨fun _ => h, fun hopen => ⟨fun hfd => ?_, fun _ => h⟩⟩
  have hsess : ((w.setSess s (w.sess s).loseFd).sess s).proto = (w.sess s).proto := by
    rw [World.setSess_sess]
    rfl
  have hlost : Spares s w₀ (w.setSess s (w.sess s).loseFd) := h.setSess rfl id id
  refine wp_post (close_later ?_) fun _ w₁ h₁ => ?_
  · rw [hsess]
    by_contra hnot
    rw [not_or, not_or, Bool.not_eq_true, Bool.not_eq_true] at hnot
    refine hlater ⟨hfd, Bool.not_eq_true _ ▸ hopen, hnot.1, hnot.2.1, fun hhanded =>
      hnot.2.2 ⟨?_, ?_, hhanded.writes⟩⟩ <;> rw [hsess]
    · exact hhanded.fits
    · exact hhanded.offset
  · have hdrop : Spares s w₀ (w₁.setSess s (w₁.sess s).dropOwner) := (hlost.trans h₁).setSess rfl id id
    have hlight := Session.light_shutdownIfClosed ((w₁.setSess s (w₁.sess s).dropOwner).sess s)
    refine hdrop.setSess hlight.done ?_ ?_ <;> rw [hlight.flags] <;> exact id

/-! ## The manager -/

theorem SessionMap.erase_of_lookup {m : SessionMap} {id : UInt64} (h : m.lookup id = none) : m.erase id = m :=
  AList.ext (List.kerase_of_notMem_keys (AList.lookup_eq_none.1 h))

/-- **`session_manager::close`** in any state. -/
theorem managerClose_once (hknown : w.Known) (n : ℕ) (id : UInt64) (reason : ℤ) (allow : Bool)
    (hlater : ∀ s, w.parks id allow = some s → ¬ EndsAtOnce e w s reason) :
    wp (managerClose e (reentry e n) id reason allow)
      (fun ret w' => w.ClosedOnce id allow w'.toCore ∧ (w.actived.lookup id ≠ none → ret = 0)) Sure w := by
  have hrec := reentry_spares e n
  have hclose : ∀ s, wp (sessionClose e (reentry e n) s reason)
      (fun _ w' => Spares s (w.recorded (.managerClose id reason allow)) w') Sure (w.recorded (.managerClose id reason allow)) :=
    fun s => sessionClose_spares (w := w.recorded (.managerClose id reason allow)) hrec (hknown s) reason
  unfold managerClose
  rw [wp_bind, wp_record]
  simp only [wp_bind, wp_get]
  cases hlook : w.actived.lookup id with
  | none =>
    have hparks : w.parks id allow = none := by
      unfold Core.parks
      rw [hlook, ite_self]
    have hsame : w.actived.erase id = w.actived := SessionMap.erase_of_lookup hlook
    simp only [wp_ite, wp_pure]
    refine ⟨fun hallow => ⟨⟨hsame.symm, ?_, ?_⟩, fun hfound => absurd rfl hfound⟩, fun hallow =>
      wp_post ?_ fun _ _ hclosed => ⟨hclosed, fun hfound => absurd rfl hfound⟩⟩
    · rw [hparks]
      exact (List.append_nil _).symm
    · rw [hparks]
      exact (if_neg fun h => Bool.false_ne_true (h.2.symm.trans hallow)).symm
    rw [Bool.not_eq_true] at hallow
    have hout : ∀ w' : World, w'.actived = w.actived → w'.reconnectTimeout = w.reconnectTimeout →
        w'.reconnectCache = w.reconnectCache.erase id → w.ClosedOnce id allow w'.toCore := fun w' ha ht hc => by
      refine ⟨ha.trans hsame.symm, ?_, ?_⟩ <;> rw [hparks]
      · exact ht.trans (List.append_nil _).symm
      · exact hc.trans (if_pos ⟨hlook, hallow⟩).symm
    unfold closeCached
    simp only [wp_bind, wp_get]
    cases hcache : w.reconnectCache.lookup id with
    | none => exact hout _ rfl rfl (SessionMap.erase_of_lookup hcache).symm
    | some s =>
      simp only [wp_bind, wp_modifySess, wp_pure]
      refine wp_post (hclose s) fun _ w₁ h₁ => ?_
      unfold eraseCache
      simp only [wp_bind, wp_get, wp_ite, wp_modify, wp_throw]
      have hcached : w₁.reconnectCache = w.reconnectCache := h₁.cache
      refine ⟨fun _ => ?_, fun hgone => absurd ?_ hgone⟩
      · exact hout ((w₁.modSess s (Session.setWaiting false)).dropCached id) h₁.actived h₁.timers (congrArg (AList.erase id) hcached)
      · exact (congrArg (AList.lookup id) hcached).trans hcache
  | some s =>
    simp only [wp_bind, wp_ite, wp_pure]
    unfold eraseActived
    simp only [wp_bind, wp_get, wp_ite, wp_modify, wp_throw]
    refine ⟨fun hwait => ?_, fun hno => ?_⟩
    · have hparks : w.parks id allow = some s := by
        unfold Core.parks
        rw [if_pos hwait, hlook]
      unfold waitReconnect
      simp only [wp_bind, wp_modify, wp_modifySess]
      have hsess : ((w.recorded (.managerClose id reason allow)).startWait s).sess s = (w.sess s).setWaiting true :=
        World.modSess_sess
      have hstart : ¬ EndsAtOnce e ((w.recorded (.managerClose id reason allow)).startWait s) s reason := by
        rintro ⟨hfd, hopen, hclosing, hidle, hhanded⟩
        rw [hsess] at hfd hopen hclosing hidle
        refine hlater s hparks ⟨hfd, hopen, hclosing, hidle, fun h => hhanded ⟨?_, ?_, h.writes⟩⟩ <;> rw [hsess]
        · exact h.fits
        · exact h.offset
      refine wp_post (closeFd_later (.refl s _) hstart) fun _ w₁ h₁ =>
        ⟨fun _ => ⟨⟨?_, ?_, ?_⟩, fun _ => trivial⟩, fun hgone => absurd ?_ hgone⟩
      · exact congrArg (AList.erase id) h₁.actived
      · rw [hparks]
        exact h₁.timers
      · rw [hparks]
        exact h₁.cache
      · exact (congrArg (AList.lookup id) h₁.actived).trans hlook
    · have hparks : w.parks id allow = none := if_neg hno
      refine wp_post (hclose s) fun _ w₁ h₁ =>
        ⟨fun _ => ⟨⟨congrArg (AList.erase id) h₁.actived, ?_, ?_⟩, fun _ => trivial⟩, fun hgone => absurd ?_ hgone⟩
      · rw [hparks]
        exact h₁.timers.trans (List.append_nil _).symm
      · rw [hparks, hlook]
        exact h₁.cache.trans (if_neg fun h => nomatch h.1).symm
      · exact (congrArg (AList.lookup id) h₁.actived).trans hlook

/-- the object is idle, and its kickoff message is not handed over: closing the socket ends it at once -/
structure EndsNow (e : GwEnv) (w : World) (s : ℕ) (reason : ℤ) : Prop where
  socket : (w.sess s).flags.hasFd = true
  connected : (w.sess s).flags.closingFd = false
  unclosing : (w.sess s).proto.flags.closing = false
  unclosed : (w.sess s).proto.flags.closed = false
  idle : Idle e (w.sess s).proto
  refused : ¬ Hands e (w.sess s).proto w.writes (e.ext.build (Closing.kickoffMsg reason))

theorem EndsNow.atOnce {reason : ℤ} (h : EndsNow e w s reason) : EndsAtOnce e w s reason :=
  ⟨h.socket, h.connected, h.unclosing, h.idle.writing, fun hhanded =>
    h.refused ⟨hhanded.fits.1, hhanded.fits.2.1, hhanded.fits.2.2, hhanded.writes _ le_rfl⟩⟩

/-- nothing is written, and `close_fn` is called before `close` returns -/
theorem close_now {Q : ℤ → World → Prop} {E : Fault → World → Prop} {reason : ℤ} (hstack : 3 ≤ e.stack)
    (h : Idle e (w.sess s).proto) (hopen : (w.sess s).proto.flags.closing = false) (hunclosed : (w.sess s).proto.flags.closed = false)
    (hrefused : ¬ Hands e (w.sess s).proto w.writes (e.ext.build (Closing.kickoffMsg reason)))
    (hQ : ∀ p b n, p.flags.handshakeDone = (w.sess s).proto.flags.handshakeDone →
      wp (rec.onClose s reason) Q E (w.written s p b n)) :
    wp (close (gwHost e rec s) reason true) Q E w := by
  obtain ⟨p, hp⟩ : ∃ p : Proto, p = { (w.sess s).proto with closeReason := reason } := ⟨_, rfl⟩
  have hstart : w.setSess s { w.sess s with proto := p } = w.written s p (w.sess s).flags.writingFd w.writes := rfl
  have hflags : p.flags = (w.sess s).proto.flags := hp ▸ rfl
  have hreason : p.closeReason = reason := hp ▸ rfl
  have hidle : Idle e p := hp ▸ ⟨h.writing, h.nothing, h.request, h.offset⟩
  have hrefused' : ¬ Hands e p w.writes (e.ext.build (Closing.kickoffMsg reason)) := hp ▸ hrefused
  unfold close sendKickoff
  simp only [wp_bind, Host.wp_get, wp_ite, wp_pure, Host.wp_modify, if_true]
  refine ⟨fun hclosing => absurd (hopen.symm.trans hclosing) Bool.false_ne_true, fun _ => ?_⟩
  rw [← hp, hstart, World.written_proto]
  have hopen' : p.flags.closing = false := hflags ▸ hopen
  refine ⟨fun hclosing => absurd (hopen'.symm.trans hclosing) Bool.false_ne_true, fun _ => ?_⟩
  have hwritten := @writeBytes_idle e rec s w hstack p (w.sess s).flags.writingFd w.writes hidle hopen'
    (e.ext.build (Closing.kickoffMsg reason))
  rw [decide_eq_false hrefused'] at hwritten
  refine wp_mono hwritten (fun _ w' ⟨q, b, n, hw', hdrain⟩ => ?_) fun _ _ => False.elim
  subst hw'
  unfold finishClose
  simp only [wp_bind, Host.wp_get, wp_ite, wp_pure, Host.wp_modify, World.written_proto, World.setSess_written, Proto.setFlags]
  rw [hdrain.flags, hdrain.reason, hreason, hflags]
  refine ⟨fun _ => hQ _ b n rfl, fun hno => absurd ⟨Bool.false_ne_true, fun hclosed => ?_⟩ hno⟩
  exact Bool.false_ne_true (hunclosed.symm.trans hclosed)

/-- a session without a socket is let wait, and nothing is called -/
theorem managerClose_lost {id : UInt64} {allow : Bool} (reason : ℤ) (hparks : w.parks id allow = some s)
    (hlost : (w.sess s).flags.hasFd = false) :
    wp (managerClose e rec id reason allow) (fun _ _ => True) (fun _ _ => False) w := by
  obtain ⟨hwait, hlook⟩ := parks_some hparks
  have hstart : ((w.recorded (.managerClose id reason allow)).startWait s).sess s = (w.sess s).setWaiting true := World.modSess_sess
  unfold managerClose
  rw [wp_bind, wp_record]
  simp only [wp_bind, wp_get, hlook, wp_ite]
  refine ⟨fun _ => ?_, fun hno => absurd hwait hno⟩
  unfold waitReconnect closeFd eraseActived
  simp only [wp_bind, wp_get, wp_getSess, wp_modify, wp_modifySess, wp_ite, wp_pure, wp_throw]
  refine ⟨fun _ => ⟨fun _ => trivial, fun hgone => hgone hlook⟩, fun _ => ⟨fun hfd => ?_, fun _ =>
    ⟨fun _ => trivial, fun hgone => hgone hlook⟩⟩⟩
  change (((w.recorded (.managerClose id reason allow)).startWait s).sess s).flags.hasFd = true at hfd
  rw [hstart] at hfd
  exact absurd (hlost.symm.trans hfd) Bool.false_ne_true

/-- `close_fn` finds the session active and erases its entry -/
theorem onClose_erases (n : ℕ) (reason : ℤ) (hopen : (w.sess s).flags.closing = false) (howner : (w.sess s).owner = true)
    (hlost : (w.sess s).flags.hasFd = false) (hwait : 0 < w.conf.reconnectTimeout)
    (hlook : w.actived.lookup (w.sess s).id = some s) (hknown : w.Known) :
    wp (onClose e (reentry e n) s reason) (fun _ w' => w'.actived.lookup (w.sess s).id = none)
      (fun _ _ => ¬ reason ≤ EN_CRT_RECONNECT_BOUND) w := by
  have hparks : ∀ {allow t}, w.parks (w.sess s).id allow = some t → t = s := fun ht =>
    Option.some.inj ((parks_some ht).2.symm.trans hlook)
  have hcalm : ∀ allow, wp (managerClose e (reentry e n) (w.sess s).id reason allow) (fun _ _ => True) (fun _ _ => allow = false) w := by
    intro allow
    cases allow with
    | false => exact wp_mono (wp_trivial _ _) (fun _ _ _ => trivial) fun _ _ _ => rfl
    | true =>
      exact wp_mono (managerClose_lost reason ((if_pos ⟨hwait, rfl⟩).trans hlook) hlost) (fun _ _ h => h) fun _ _ => False.elim
  unfold onClose
  simp only [wp_bind, wp_getSess, wp_ite, wp_pure, Bool.not_eq_true]
  refine ⟨fun hclosing => absurd (hopen.symm.trans hclosing) Bool.false_ne_true, fun _ => ⟨fun _ => ?_, fun hno =>
    absurd (howner.symm.trans hno).symm Bool.false_ne_true⟩⟩
  have honce := managerClose_once (e := e) hknown n (w.sess s).id reason (decide (reason ≤ EN_CRT_RECONNECT_BOUND)) fun t ht hends =>
    Bool.false_ne_true (hlost.symm.trans (hparks ht ▸ hends.1))
  refine wp_mono (wp_and honce (hcalm _)) (fun ret w' ⟨⟨hclosed, hret⟩, _⟩ => ?_) fun _ _ ⟨_, hfault⟩ => of_decide_eq_false hfault
  have h0 : ret = 0 := hret (hlook ▸ Option.some_ne_none s)
  refine ⟨fun hneg => absurd h0 hneg.ne, fun _ => ?_⟩
  rw [hclosed.actived]
  exact AList.lookup_erase _ _

/-- **The entry is erased twice**, if the object of the session that `session_manager::close` lets wait for a reconnect ends at
once: it never returns, and with a reason for which `close_fn` lets a session wait too, the iterator is all that goes wrong. -/
theorem managerClose_twice {id : UInt64} {reason : ℤ} {allow : Bool} (hstack : 3 ≤ e.stack) (hknown : w.Known)
    (hparks : w.parks id allow = some s) (hid : (w.sess s).id = id) (hopen : (w.sess s).flags.closing = false)
    (howner : (w.sess s).owner = true) (hends : EndsNow e w s reason) (n : ℕ) :
    wp (managerClose e (reentry e (n + 1)) id reason allow) (fun _ _ => False)
      (fun fault _ => reason ≤ EN_CRT_RECONNECT_BOUND → fault = .badIterator) w := by
  obtain ⟨hwait, hlook⟩ := parks_some hparks
  obtain ⟨u, hu⟩ : ∃ u, u = ((w.recorded (.managerClose id reason allow)).startWait s).modSess s Session.loseFd := ⟨_, rfl⟩
  have hsess : u.sess s = ((w.sess s).setWaiting true).loseFd := by
    rw [hu, World.modSess_sess]
    exact congrArg Session.loseFd World.modSess_sess
  have hother : ∀ t, t ≠ s → u.sess t = w.sess t := fun t hts => by
    rw [hu, World.modSess_sess_ne hts]
    exact World.modSess_sess_ne hts
  unfold managerClose
  rw [wp_bind, wp_record]
  simp only [wp_bind, wp_get, hlook, wp_ite]
  refine ⟨fun _ => ?_, fun hno => absurd hwait hno⟩
  unfold waitReconnect closeFd eraseActived
  simp only [wp_bind, wp_get, wp_getSess, wp_modify, wp_modifySess, wp_ite, wp_pure, wp_throw]
  have hstart : ((w.recorded (.managerClose id reason allow)).startWait s).sess s = (w.sess s).setWaiting true := World.modSess_sess
  refine ⟨fun hclosing => ?_, fun _ => ⟨fun _ => ?_, fun hlost => ?_⟩⟩
  · change (((w.recorded (.managerClose id reason allow)).startWait s).sess s).flags.closingFd = true at hclosing
    rw [hstart] at hclosing
    exact absurd (hends.connected.symm.trans hclosing) Bool.false_ne_true
  · change wp (close (gwHost e (reentry e (n + 1)) s) reason true) _ _
      (((w.recorded (.managerClose id reason allow)).startWait s).modSess s Session.loseFd)
    rw [← hu]
    refine close_now hstack ?_ ?_ ?_ ?_ fun p b m hdone => ?_
    · exact hsess ▸ hends.idle
    · exact hsess ▸ hends.unclosing
    · exact hsess ▸ hends.unclosed
    · rw [hsess, show u.writes = w.writes from hu ▸ rfl]
      exact hends.refused
    · have hv : ((u.written s p b m).sess s) = (((w.sess s).setWaiting true).loseFd).written p b := by rw [World.written_sess, hsess]
      have hid' : ((u.written s p b m).sess s).id = id := hv ▸ hid
      have hactived : (u.written s p b m).actived = w.actived := hu ▸ rfl
      refine wp_mono (onClose_erases n reason ?_ ?_ ?_ ?_ ?_ ?_) (fun _ w' hgone => ⟨fun hfound => ?_, fun _ _ => trivial⟩)
        fun _ _ hfault hle => absurd hle hfault
      · exact hv ▸ hopen
      · exact hv ▸ howner
      · exact hv ▸ rfl
      · rw [show (u.written s p b m).conf = w.conf from hu ▸ rfl]
        exact hwait.1
      · rw [hid', hactived]
        exact hlook
      · intro t hreg
        by_cases hts : t = s
        · subst hts
          rw [hv] at hreg
          rw [World.written_proto, hdone, hsess]
          exact hknown t hreg
        · have hsame : (u.written s p b m).sess t = w.sess t := (World.modSess_sess_ne hts).trans (hother t hts)
          rw [hsame] at hreg ⊢
          exact hknown t hreg
      · rw [hid'] at hgone
        exact Option.some_ne_none s (hfound.symm.trans hgone)
  · change ¬ (((w.recorded (.managerClose id reason allow)).startWait s).sess s).flags.hasFd = true at hlost
    rw [hstart] at hlost
    exact absurd hends.socket hlost

/-- a client starts a session, and everything is written -/
def startAndWrite : List GwEvent := startOne ++ [.uvWritten 0 0]

/-- the world behind that run -/
def startedWorld (e : GwEnv) : World := (exec (gwRun e startAndWrite) (World.start openConf 1500000000 none)).2

/-- every `uv_write` but the first fails -/
def failEnv : GwEnv := { scriptEnv [plainStartReq] 2 with uvWrite := fun n => if n = 0 then 0 else -1 }

theorem startedWorld_run (e : GwEnv) (h : (exec (gwRun e startAndWrite) (World.start openConf 1500000000 none)).1 = .ok ()) :
    exec (gwRun e startAndWrite) (World.start openConf 1500000000 none) = (.ok (), startedWorld e) := exec_of_fst h

section sample

-- the worlds of these runs are too large to be compared by unfolding
attribute [local irreducible] wp startedWorld

/-- the object of session 0 is idle, and `uv_write` fails -/
theorem endsNow_failed : EndsNow failEnv (startedWorld failEnv) 0 EN_CRT_RESET :=
  ⟨by decide +kernel, by decide +kernel, by decide +kernel, by decide +kernel,
    ⟨by decide +kernel, by decide +kernel, by decide +kernel, by decide +kernel⟩, by decide +kernel⟩

/-- the kickoff message can not be written: the entry is erased twice -/
theorem run_closeOnce_failed : ¬ ∀ (e : GwEnv) (conf : GwConf) (now : ℤ) (current : Option CryptGlobal) (events : List GwEvent)
    (w : World), exec (gwRun e events) (World.start conf now current) = (.ok (), w) → ∀ (id : UInt64) (reason : ℤ) (allow : Bool),
      wp (managerClose e (reentry e e.depth) id reason allow) (fun _ _ => True) Sure w := by
  intro h
  have hrun := startedWorld_run failEnv (by decide +kernel)
  have hknown := (wp_ok (run_went failEnv openConf 1500000000 none startAndWrite) hrun).known
  have honce := h failEnv openConf 1500000000 none startAndWrite _ hrun 1 EN_CRT_RESET true
  have htwice : wp (managerClose failEnv (reentry failEnv failEnv.depth) 1 EN_CRT_RESET true) (fun _ _ => False)
      (fun fault _ => EN_CRT_RESET ≤ EN_CRT_RECONNECT_BOUND → fault = .badIterator) (startedWorld failEnv) :=
    managerClose_twice (by decide) hknown (by decide +kernel) (by decide +kernel) (by decide +kernel) (by decide +kernel) endsNow_failed 7
  obtain ⟨_, _, -, hreturned⟩ := wp_total (wp_mono (wp_and honce htwice) (fun _ _ h => h.2) fun _ _ hfault => hfault.1 (hfault.2 (by decide)))
  exact hreturned

end sample

end AtFrame.Gateway
