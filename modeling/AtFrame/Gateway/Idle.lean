/-
Writing on an object on which nothing waits.

What is written is the only block of its queue. `try_write` hands it to `uv_write`; when that fails at once, `write_done` pops the
block and the object is idle again, else the write is under way until `on_write_done`.

- `tryWrite_only`: `try_write` with one block, for every result of `uv_write`;
- `writeBytes_idle`: `write_msg` on an idle object, for every message, where the stack has three levels left.
-/
import AtFrame.Inner.SendQueue
import AtFrame.Gateway.Windows

namespace AtFrame.Gateway

open AtFrame.Lib

/-- nothing waits on the object, and its headspace has room for the write request of the transport -/
structure Idle (e : GwEnv) (p : Proto) : Prop where
  writing : p.flags.writing = false
  nothing : p.writeBuffers.blocks = []
  request : e.offset ≤ p.writeHeaderOffset
  offset : p.writeHeaderOffset ≤ 2 ^ 20

/-- a write is under way behind it, or nothing waits -/
structure Drains (writing : Bool) (p q : Proto) : Prop where
  flags : q.flags = { p.flags with writing := writing }
  offset : q.writeHeaderOffset = p.writeHeaderOffset
  reason : q.closeReason = p.closeReason
  nothing : writing = false → q.writeBuffers.blocks = []

variable {e : GwEnv} {rec : Reentry} {s : ℕ} {w : World}

theorem Idle.drains {p q : Proto} {writing : Bool} (h : Idle e p) (hq : Drains writing p q) :
    q.flags.writing = true ∨ Idle e q := by
  have hwriting : q.flags.writing = writing := by rw [hq.flags]
  cases writing with
  | true => exact .inl hwriting
  | false =>
    refine .inr ⟨hwriting, hq.nothing rfl, ?_, ?_⟩ <;> rw [hq.offset]
    · exact h.request
    · exact h.offset

theorem World.written_written (p q : Proto) (b c : Bool) (m n : ℕ) (w : World) :
    (w.written s p b m).written s q c n = w.written s q c n := by
  simp only [World.written, World.modSess, World.setSess, Function.update_self, Function.update_idem, Session.written]

theorem World.setSess_written (p q : Proto) (b : Bool) (n : ℕ) (w : World) :
    (w.written s p b n).setSess s { (w.written s p b n).sess s with proto := q } = w.written s q b n := by
  simp only [World.written, World.modSess, World.setSess, Function.update_self, Function.update_idem, Session.written]

theorem World.written_self (w : World) : w.written s (w.sess s).proto (w.sess s).flags.writingFd w.writes = w :=
  congrArg (fun u : World => { u with writes := w.writes }) (w.setSess_self s)

theorem onWrite_comes {buf : Bytes} (hdata : e.offset ≤ buf.length) :
    wp (onWrite e s buf) (fun r w' => r.2 = !decide (e.uvWrite w.writes = 0) ∧
      w' = w.written s (w.sess s).proto (decide (e.uvWrite w.writes = 0)) (w.writes + 1)) (fun _ _ => False) w := by
  unfold onWrite
  simp only [wp_ite, wp_throw, wp_bind, wp_get, wp_modify, wp_modifySess, wp_getSess, wp_pure, World.setSess_sess]
  exact ⟨fun hshort => absurd hshort (Nat.not_lt.2 hdata), fun _ => ⟨rfl, rfl⟩⟩

@[simp] theorem World.written_proto (p : Proto) (b : Bool) (n : ℕ) (w : World) : ((w.written s p b n).sess s).proto = p := by
  rw [World.written_sess]
  rfl

@[simp] theorem World.written_writes (p : Proto) (b : Bool) (n : ℕ) (w : World) : (w.written s p b n).writes = n := rfl

/-- the write of the only block is done -/
theorem writeDone_only {n : ℕ} {p : Proto} {block : Block UInt8} {b : Bool} {m : ℕ} (hwriting : p.flags.writing = true)
    (hopen : p.flags.closing = false) (hblocks : p.writeBuffers.blocks = [block]) (hused : block.used = 0)
    (hlast : p.lastWritePtr = some block.addr) (status : ℤ) :
    wp (writeDone (gwHost e rec s) (n + 2) status) (fun _ w' => ∃ q, w' = w.written s q b m ∧ Drains false p q) (fun _ _ => False)
      (w.written s p b m) := by
  have hpop : popWritten p.lastWritePtr p.writeBuffers.blocks = some [] := by
    rw [hlast, hblocks, SendQueue.popWritten_front hused]
  rw [writeDone]
  simp only [wp_bind, Host.wp_get, wp_ite, wp_pure, World.written_proto, hpop, Host.wp_modify, World.setSess_written]
  refine ⟨fun hno => absurd hwriting hno, fun _ => ?_⟩
  rw [tryWrite]
  simp only [wp_bind, Host.wp_get, wp_ite, wp_pure, World.written_proto]
  exact ⟨fun hno => absurd hno Bool.false_ne_true, fun _ => ⟨fun _ => ⟨fun hno => absurd (hopen.symm.trans hno.1) Bool.false_ne_true,
    fun _ => ⟨_, rfl, rfl, rfl, rfl, fun _ => rfl⟩⟩, fun hno => absurd trivial hno⟩⟩

/-- **The only block** is handed over, for every result of `uv_write`. -/
theorem tryWrite_only {n : ℕ} {p : Proto} {block : Block UInt8} {b : Bool} {m : ℕ} (hidle : p.flags.writing = false)
    (hopen : p.flags.closing = false) (hblocks : p.writeBuffers.blocks = [block]) (hused : block.used = 0)
    (hroom : p.writeHeaderOffset < block.size) (hdata : e.offset ≤ block.data.length) :
    wp (tryWrite (gwHost e rec s) (n + 3))
      (fun _ w' => ∃ q b, w' = w.written s q b (m + 1) ∧ Drains (decide (e.uvWrite m = 0)) p q) (fun _ _ => False)
      (w.written s p b m) := by
  have hmerge : tryMerge p.writeHeaderOffset p.writeBuffers = some p.writeBuffers := by
    simp only [tryMerge, BlockQueue.front?, BlockQueue.costNumber, hblocks, List.head?_cons, List.length_singleton, lt_irrefl, false_and,
      if_false]
  have hfront : p.writeBuffers.front? = some block := by rw [BlockQueue.front?, hblocks, List.head?_cons]
  rw [tryWrite]
  simp only [wp_bind, Host.wp_get, wp_ite, wp_pure, World.written_proto, hmerge, Host.wp_modify, hfront, World.setSess_written]
  refine ⟨fun hno => absurd (hidle.symm.trans hno) Bool.false_ne_true, fun _ =>
    ⟨fun hno => absurd (hblocks.symm.trans hno) (List.cons_ne_nil _ _), fun _ =>
    ⟨fun hno => absurd (hopen.symm.trans hno) Bool.false_ne_true, fun _ => ⟨fun hno => absurd hno (Nat.not_le.2 hroom), fun _ => ?_⟩⟩⟩⟩
  refine wp_post (onWrite_comes hdata) fun r w' hcomes => ?_
  obtain ⟨hdone, hw'⟩ := hcomes
  rw [World.written_proto, World.written_writes, World.written_written] at hw'
  rw [World.written_writes] at hdone
  subst hw'
  cases hret : decide (e.uvWrite m = 0) with
  | false =>
    rw [hret] at hdone
    refine ⟨fun _ => ?_, fun hno => absurd hdone hno⟩
    have hdone := @writeDone_only e rec s w n { p with flags := { p.flags with writing := true }, lastWritePtr := some block.addr } block
      false (m + 1) rfl hopen hblocks hused rfl r.1
    refine wp_post hdone fun _ _ hpopped => ?_
    obtain ⟨q, hq, hdrain⟩ := hpopped
    exact ⟨q, _, hq, hdrain.flags, hdrain.offset, hdrain.reason, hdrain.nothing⟩
  | true =>
    rw [hret] at hdone
    exact ⟨fun hno => absurd (hdone.symm.trans hno) Bool.false_ne_true, fun _ => ⟨_, _, rfl, rfl, rfl, rfl, fun hno =>
      absurd hno.symm Bool.false_ne_true⟩⟩

/-- `write_msg` takes these bytes, and `uv_write` the frame -/
def Hands (e : GwEnv) (p : Proto) (m : ℕ) (buf : Bytes) : Prop :=
  0 < buf.length ∧ buf.length < 2 ^ 32 - 1 ∧ p.writeBuffers.Fits (p.totalBufferSize buf.length) ∧ e.uvWrite m = 0

instance (e : GwEnv) (p : Proto) (m : ℕ) (buf : Bytes) : Decidable (Hands e p m buf) := inferInstanceAs (Decidable (_ ∧ _ ∧ _ ∧ _))

/-- **`write_msg` on an idle object**: behind it a write is under way exactly if the bytes were handed over, else it is idle. -/
theorem writeBytes_idle (hstack : 3 ≤ e.stack) {p : Proto} {b : Bool} {m : ℕ} (h : Idle e p) (hopen : p.flags.closing = false)
    (buf : Bytes) :
    wp (writeBytes (gwHost e rec s) buf)
      (fun _ w' => ∃ q b n, w' = w.written s q b n ∧ Drains (decide (Hands e p m buf)) p q) (fun _ _ => False) (w.written s p b m) := by
  obtain ⟨n, hn⟩ : ∃ n, e.stack = n + 3 := ⟨e.stack - 3, by omega⟩
  have hnone : ¬ Hands e p m buf → ∃ q b' n, w.written s p b m = w.written s q b' n ∧ Drains (decide (Hands e p m buf)) p q := by
    intro hno
    refine ⟨p, b, m, rfl, ?_⟩
    rw [decide_eq_false hno]
    exact ⟨congrArg (fun x => { p.flags with writing := x }) h.writing, rfl, rfl, fun _ => h.nothing⟩
  unfold writeBytes
  simp only [wp_ite, wp_pure, wp_bind, Host.wp_get]
  refine ⟨fun hpos => ⟨fun hlarge => hnone fun hhands => absurd hlarge (Nat.not_le.2 hhands.2.1), fun hsmall => ?_⟩, fun hempty => ?_⟩
  · rw [World.written_proto]
    cases hpush : p.writeBuffers.pushBack _ _ with
    | none =>
      refine hnone fun hhands => ?_
      rw [BlockQueue.pushBack, if_pos hhands.2.2.1] at hpush
      exact absurd hpush (Option.some_ne_none _)
    | some q =>
      obtain ⟨hfits, rfl⟩ := BlockQueue.pushBack_some hpush
      have hheader := h.offset
      have htotal : p.totalBufferSize buf.length = p.writeHeaderOffset + msgHeaderLen + buf.length :=
        Nat.mod_eq_of_lt (by unfold msgHeaderLen; omega)
      simp only [wp_bind, Host.wp_modify, World.setSess_written, World.written_proto]
      rw [hn]
      have hhands : decide (e.uvWrite m = 0) = decide (Hands e p m buf) :=
        decide_eq_decide.2 ⟨fun hok => ⟨hpos, Nat.not_le.1 hsmall, hfits, hok⟩, fun h => h.2.2.2⟩
      refine wp_post (tryWrite_only h.writing hopen (congrArg (· ++ _) h.nothing) rfl ?_ ?_) fun _ _ htried => ?_
      · change p.writeHeaderOffset < p.totalBufferSize buf.length
        rw [htotal, Nat.add_assoc]
        exact Nat.lt_add_of_pos_right (Nat.add_pos_right _ hpos)
      · rw [List.length_append, List.length_replicate]
        exact h.request.trans (Nat.le_add_right _ _)
      · obtain ⟨q, b, hq, hdrain⟩ := htried
        refine ⟨q, b, _, hq, ?_⟩
        rw [← hhands]
        exact ⟨hdrain.flags, hdrain.offset, hdrain.reason, hdrain.nothing⟩
  · rw [hn, tryWrite]
    simp only [wp_bind, Host.wp_get, wp_ite, wp_pure, World.written_proto]
    have hsame := hnone fun hhands => absurd hhands.1 hempty
    exact ⟨fun _ => hsame, fun _ => ⟨fun _ => hsame, fun hne => absurd h.nothing hne⟩⟩

end AtFrame.Gateway
