/-
The send queue of the inner protocol: `write_msg`, `try_write` with its merging of small blocks, `write_done`.

The abstract queue is a list of frames. A block holds a group of whole frames behind its headspace; merging concatenates
groups and keeps the list of frames.

- `tryMerge_holding`: the merge keeps the frames, and its `push_front` fits;
- `tryWrite_step`, `tryWrite_writeDone`: the two functions that call each other keep `Inv` and end with a write outstanding or
  an empty queue;
- `sendQueue_run`: whole runs of sends and completions, for every pattern of completions.

Premises: the stack has room for two calls for each operation that was made, as `write_done` and `try_write` call each other; the
headspace asked for is at most 2^20. `write_fn` may report a write as done at once, with any status, or leave it to a later
completion. Witness `sendQueue_run_merge`: small blocks that were queued behind an outstanding write are sent as one.
-/
import AtFrame.Inner.Solo

namespace AtFrame.SendQueue

open AtFrame.Lib

/-! ## Blocks and the frames they hold -/

/-- the block holds the frames `g` behind a headspace of `off` bytes, and nothing of it was taken yet -/
structure Holding (off : ℕ) (b : Block UInt8) (g : List Bytes) : Prop where
  used : b.used = 0
  size : b.data.length = b.size
  room : off + msgHeaderLen < b.size
  frames : b.data.drop off = g.flatten

theorem holding_length {off : ℕ} {b : Block UInt8} {g : List Bytes} (h : Holding off b g) :
    g.flatten.length = b.size - off := by
  rw [← h.frames, List.length_drop, h.size]

/-- a frame pushed by `write_msg` -/
theorem holding_frame (hash : Bytes → ℕ) (addr : ℕ) {p : Proto} {buf : Bytes} (hoff : p.writeHeaderOffset ≤ 2 ^ 20)
    (h1 : 0 < buf.length) (h2 : buf.length < 2 ^ 32 - 1) :
    Holding p.writeHeaderOffset
      ⟨addr, p.totalBufferSize buf.length, 0, List.replicate p.writeHeaderOffset 0 ++ frameBytes hash buf⟩
      [frameBytes hash buf] := by
  have htotal : p.totalBufferSize buf.length = p.writeHeaderOffset + msgHeaderLen + buf.length :=
    Nat.mod_eq_of_lt (by unfold msgHeaderLen; omega)
  rw [htotal]
  refine ⟨rfl, ?_, Nat.lt_add_of_pos_right h1, by simp⟩
  simp only [frameBytes, List.length_append, List.length_replicate, toLe32_length, msgHeaderLen]
  omega

theorem subSizeT_eq {a b : ℕ} (h : b ≤ a) (ha : a < 2 ^ 64) : subSizeT a b = a - b := by
  unfold subSizeT; omega

/-! ## Merging -/

/-- the merge loop takes a number of whole blocks from the front, as many as the merge buffer has room for -/
theorem mergeLoop_take {off : ℕ} {bs : List (Block UInt8)} {gs : List (List Bytes)}
    (h : List.Forall₂ (Holding off) bs gs) {available : ℕ} (ha : available ≤ msgLimit) :
    ∃ k, (mergeLoop off available bs).2 = bs.drop k ∧ (mergeLoop off available bs).1 = (gs.take k).flatten.flatten ∧
      (mergeLoop off available bs).1.length ≤ available ∧
      (mergeLoop off available bs).1.length + k * off = ((bs.take k).map Block.size).sum ∧
      ((∃ b ∈ bs.head?, b.size ≤ available) → 0 < k) := by
  have hm : msgLimit < 2 ^ 64 := by decide
  induction h generalizing available with
  | nil => exact ⟨0, by simp [mergeLoop]⟩
  | @cons b g bs gs hb hbs ih =>
    have hroom := hb.room
    by_cases hstop : available = 0 ∨ available < b.size
    · refine ⟨0, ?_⟩
      simp only [mergeLoop, if_pos hstop]
      refine ⟨rfl, rfl, Nat.zero_le _, by simp, ?_⟩
      rintro ⟨b', hb', hle⟩
      rw [List.head?_cons, Option.mem_some_iff] at hb'
      subst hb'
      omega
    · have e1 : subSizeT b.size off = b.size - off := subSizeT_eq (by omega) (by omega)
      have e2 : subSizeT available (b.size - off) = available - (b.size - off) := subSizeT_eq (by omega) (by omega)
      obtain ⟨k, i1, i2, i3, i4, -⟩ := ih (show available - (b.size - off) ≤ msgLimit by omega)
      have hg := holding_length hb
      have htake : (b.data.drop off).take (b.size - off) = g.flatten := by
        rw [hb.frames, ← hg, List.take_length]
      refine ⟨k + 1, ?_⟩
      simp only [mergeLoop, if_neg hstop, e1, e2, htake, i1, i2, List.drop_succ_cons, List.take_succ_cons,
        List.flatten_cons, List.flatten_append, List.map_cons, List.sum_cons, List.length_append, true_and]
      rw [i2] at i3 i4
      refine ⟨?_, ?_, fun _ => Nat.succ_pos k⟩
      · omega
      · rw [← i4, hg, Nat.add_mul]
        omega

/-- **Merging keeps the frames.** On a queue within its limits `tryMerge` never fails: the `push_front` of the merged block
fits, and the queue still holds the same frames in the same order. -/
theorem tryMerge_holding {off : ℕ} {q : BlockQueue UInt8} {gs : List (List Bytes)}
    (h : List.Forall₂ (Holding off) q.blocks gs) (hne : q.blocks ≠ []) (hw : q.Within) (ha : q.AddrOk) :
    ∃ q' gs', tryMerge off q = some q' ∧ List.Forall₂ (Holding off) q'.blocks gs' ∧ gs'.flatten = gs.flatten ∧
      q'.blocks ≠ [] ∧ q'.blocks.length ≤ q.blocks.length ∧ q'.Within ∧ q'.AddrOk := by
  obtain ⟨b, bs, hq⟩ := List.exists_cons_of_ne_nil hne
  rw [hq] at h
  cases h with
  | @cons _ g _ gs hb hbs =>
    have hfront : q.front? = some b := by rw [BlockQueue.front?, hq]; rfl
    simp only [tryMerge, hfront]
    by_cases hmerge : 1 < q.costNumber ∧ b.size ≤ smallSize
    · have hroom := hb.room
      have hsmall : b.size ≤ 3072 := hmerge.2
      have e : subSizeT msgLimit off = msgLimit - off := subSizeT_eq (by unfold msgLimit; omega) (by decide)
      obtain ⟨k, k1, k2, k3, k4, k5⟩ :=
        mergeLoop_take (.cons hb hbs) (show msgLimit - off ≤ msgLimit from Nat.sub_le _ _)
      have hk : 0 < k := k5 ⟨b, rfl, by unfold msgLimit; omega⟩
      set r := mergeLoop off (msgLimit - off) (b :: bs) with hr
      have hpos : msgHeaderLen < r.1.length := by
        obtain ⟨k', rfl⟩ := Nat.exists_eq_succ_of_ne_zero hk.ne'
        have := holding_length hb
        simp only [k2, List.take_succ_cons, List.flatten_cons, List.flatten_append, List.length_append]
        omega
      have hsum : off + r.1.length ≤ (((b :: bs).take k).map Block.size).sum := by
        have : off ≤ k * off := Nat.le_mul_of_pos_left _ hk
        omega
      have hsplit : q.blocks = (b :: bs).take k ++ r.2 := by rw [hq, k1, List.take_append_drop]
      have hfits := BlockQueue.repack_fits hw hsplit (by simp [hk.ne']) hsum
      obtain ⟨q', hq'⟩ := Option.isSome_iff_exists.1 ((BlockQueue.pushFront_isSome _ _ (List.replicate off 0 ++ r.1)).2 hfits)
      obtain ⟨-, heq⟩ := BlockQueue.pushFront_some hq'
      have haddr : ({ q with blocks := r.2 } : BlockQueue UInt8).AddrOk :=
        BlockQueue.addrOk_of_suffix ha (by rw [hq, k1]; exact List.drop_suffix k _)
      refine ⟨q', ((g :: gs).take k).flatten :: (g :: gs).drop k, ?_, ?_, ?_, ?_, ?_, ?_, ?_⟩
      · rw [if_pos hmerge, hq, e, ← hr, if_pos ⟨Nat.zero_lt_of_lt hpos, k3⟩, hq']
      · rw [heq]
        refine .cons ⟨rfl, by simp, Nat.add_lt_add_left hpos off, ?_⟩ ?_
        · rw [List.drop_left' (by simp), k2]
        · rw [k1]
          exact List.forall₂_drop k (.cons hb hbs)
      · rw [List.flatten_cons, ← List.flatten_append, List.take_append_drop]
      · rw [heq]
        exact List.cons_ne_nil _ _
      · rw [heq]
        simp only [k1, hq, List.length_cons, List.length_drop]
        omega
      · exact BlockQueue.within_pushFront hq'
      · exact BlockQueue.addrOk_pushFront haddr hq'
    · exact ⟨q, g :: gs, if_neg hmerge, hq ▸ .cons hb hbs, rfl, hne, le_rfl, hw, ha⟩

/-! ## The invariant -/

/-- what `write_fn` was handed while no other write was outstanding: the frames `g` behind the headspace -/
def Passed (off : ℕ) (call : ℕ × Bytes) (g : List Bytes) : Prop :=
  call.1 = 0 ∧ off ≤ call.2.length ∧ call.2.drop off = g.flatten

/-- the blocks that still have to be handed to `write_fn`: while a write is outstanding its block stays in front -/
def waiting (p : Proto) : List (Block UInt8) :=
  if p.flags.writing then p.writeBuffers.blocks.tail else p.writeBuffers.blocks

/-- `sent` are the groups of frames handed to `write_fn`, `queued` those in the queue -/
structure Inv (off : ℕ) (sent queued : List (List Bytes)) (w : Solo) : Prop where
  offset : w.proto.writeHeaderOffset = off
  offset_le : off ≤ 2 ^ 20
  closing : w.proto.flags.closing = false
  within : w.proto.writeBuffers.Within
  addrOk : w.proto.writeBuffers.AddrOk
  passed : List.Forall₂ (Passed off) w.writes sent
  holding : List.Forall₂ (Holding off) (waiting w.proto) queued
  front : w.proto.flags.writing = true →
    ∃ b ∈ w.proto.writeBuffers.front?, w.proto.lastWritePtr = some b.addr ∧ b.used = 0

/-- between two calls: the frames accepted so far are sent or queued, in order, and nothing waits for a write that is not
there -/
def Settled (off : ℕ) (frames : List Bytes) (w : Solo) : Prop :=
  ∃ sent queued, Inv off sent queued w ∧ sent.flatten ++ queued.flatten = frames ∧
    (w.proto.flags.writing = true ∧ w.outstanding = 1 ∨
      w.proto.flags.writing = false ∧ w.outstanding = 0 ∧ queued = [])

section spec

variable (e : SoloEnv) (off : ℕ) (frames : List Bytes)

/-- what holds when `try_write` or `write_done` returns; the queue has not grown beyond `n` blocks -/
def Returned (n : ℕ) (w : Solo) : Prop := Settled off frames w ∧ w.proto.writeBuffers.blocks.length ≤ n

/-- `try_write` on an object that is not writing, with enough stack for the blocks in its queue -/
def TryWriteOk (n : ℕ) : Prop :=
  ∀ w sent queued, Inv off sent queued w → w.proto.flags.writing = false → w.outstanding = 0 →
    sent.flatten ++ queued.flatten = frames → 2 * w.proto.writeBuffers.blocks.length + 1 ≤ n →
    wp (tryWrite (Solo.host e) n) (fun _ => Returned off frames w.proto.writeBuffers.blocks.length)
      (fun _ _ => False) w

/-- `write_done` for a write that was just completed -/
def WriteDoneOk (n : ℕ) : Prop :=
  ∀ w sent queued, Inv off sent queued w → w.proto.flags.writing = true → w.outstanding = 0 →
    sent.flatten ++ queued.flatten = frames → 2 * w.proto.writeBuffers.blocks.length ≤ n → ∀ status,
    wp (writeDone (Solo.host e) n status) (fun _ => Returned off frames w.proto.writeBuffers.blocks.length)
      (fun _ _ => False) w

end spec

variable {e : SoloEnv} {off : ℕ} {frames : List Bytes}

/-- the world when `write_fn` was handed the front block of the queue `q` and left `m` writes outstanding -/
def handOver (w : Solo) (q : BlockQueue UInt8) (b : Block UInt8) (m : ℕ) : Solo :=
  { w with
    proto := { w.proto with writeBuffers := q, lastWritePtr := some b.addr,
                            flags := { w.proto.flags with writing := true } },
    writes := w.writes ++ [(w.outstanding, b.data)], outstanding := m }

theorem inv_handOver {w : Solo} {sent queued gs : List (List Bytes)} {g : List Bytes} {b : Block UInt8}
    {bs : List (Block UInt8)} {q : BlockQueue UInt8} (h : Inv off sent queued w) (hout : w.outstanding = 0)
    (hq : q.blocks = b :: bs) (hwithin : q.Within) (haddr : q.AddrOk) (hb : Holding off b g)
    (hbs : List.Forall₂ (Holding off) bs gs) (m : ℕ) : Inv off (sent ++ [g]) gs (handOver w q b m) where
  offset := h.offset
  offset_le := h.offset_le
  closing := h.closing
  within := hwithin
  addrOk := haddr
  passed := by
    refine List.rel_append h.passed (.cons ⟨hout, ?_, hb.frames⟩ .nil)
    rw [hb.size]
    exact (Nat.lt_of_add_right_lt hb.room).le
  holding := by
    simp only [waiting, handOver, if_true, hq, List.tail_cons]
    exact hbs
  front _ := ⟨b, by simp [handOver, BlockQueue.front?, hq], rfl, hb.used⟩

theorem tryWrite_step {n : ℕ} (ih : WriteDoneOk e off frames n) : TryWriteOk e off frames (n + 1) := by
  intro w sent queued h hw hout hf hn
  obtain rfl := h.offset
  have hwait : waiting w.proto = w.proto.writeBuffers.blocks := by simp [waiting, hw]
  rw [tryWrite]
  simp only [wp_bind, Host.wp_get, hw, wp_ite, wp_pure, h.closing]
  refine ⟨fun h => absurd h (by simp), fun _ => ⟨fun hnil => ?_, fun hne => ⟨fun h => absurd h (by simp), fun _ => ?_⟩⟩⟩
  · have hold := h.holding
    rw [hwait, hnil] at hold
    exact ⟨⟨sent, queued, h, hf, .inr ⟨hw, hout, List.forall₂_nil_left_iff.1 hold⟩⟩, le_rfl⟩
  · obtain ⟨q, gs, hq, hold, hgs, hqne, hlen, hwithin, haddr⟩ :=
      tryMerge_holding (hwait ▸ h.holding) hne h.within h.addrOk
    obtain ⟨b, bs, hqb⟩ := List.exists_cons_of_ne_nil hqne
    have hfront : q.front? = some b := by rw [BlockQueue.front?, hqb]; rfl
    rw [hqb] at hold
    cases hold with
    | @cons _ g _ gs hb hbs =>
      have hroom : ¬ b.size ≤ w.proto.writeHeaderOffset := Nat.not_le.2 (Nat.lt_of_add_right_lt hb.room)
      have hinv := inv_handOver h hout hqb hwithin haddr hb hbs
      have hframes : (sent ++ [g]).flatten ++ gs.flatten = frames := by
        rw [← hf, ← hgs]
        simp
      rw [hq]
      simp only [wp_bind, Host.wp_modify, hfront, wp_ite, Solo.writeFn, wp_get, wp_set, wp_pure]
      refine ⟨fun hsize => absurd hsize hroom, fun _ => ⟨fun hdone => ?_, fun hdone => ?_⟩⟩
      · rw [if_pos hdone]
        have hn' : 2 * q.blocks.length ≤ n := by omega
        exact wp_post (ih _ _ _ (hinv w.outstanding) rfl hout hframes hn' _) fun _ _ hret => hret.imp_right hlen.trans'
      · rw [if_neg hdone]
        exact ⟨⟨sent ++ [g], gs, hinv _, hframes, .inl ⟨rfl, by simp [hout]⟩⟩, hlen⟩

theorem popWritten_front {b : Block UInt8} {bs : List (Block UInt8)} (hused : b.used = 0) :
    popWritten (some b.addr) (b :: bs) = some bs := by
  unfold popWritten
  rw [if_neg (not_not_intro hused)]
  split_ifs with h1 h2
  · rfl
  · rfl
  · exact absurd rfl h2

/-- the world when `write_done` popped the front block and left `bs` -/
def release (w : Solo) (bs : List (Block UInt8)) : Solo :=
  { w with
    proto := { w.proto with writeBuffers := { w.proto.writeBuffers with blocks := bs }, lastWritePtr := none,
                            flags := { w.proto.flags with writing := false } } }

theorem inv_release {w : Solo} {sent queued : List (List Bytes)} {b : Block UInt8} {bs : List (Block UInt8)}
    (h : Inv off sent queued w) (hw : w.proto.flags.writing = true) (hb : w.proto.writeBuffers.blocks = b :: bs) :
    Inv off sent queued (release w bs) where
  offset := h.offset
  offset_le := h.offset_le
  closing := h.closing
  within := by
    have hpop := BlockQueue.within_popFront h.within
    rwa [BlockQueue.popFront, hb] at hpop
  addrOk := BlockQueue.addrOk_of_suffix h.addrOk (by rw [hb]; exact List.suffix_cons b bs)
  passed := h.passed
  holding := by
    have hold := h.holding
    rw [waiting, if_pos hw, hb] at hold
    exact hold
  front hwr := absurd hwr Bool.false_ne_true

theorem writeDone_step {n : ℕ} (ih : TryWriteOk e off frames n) : WriteDoneOk e off frames (n + 1) := by
  intro w sent queued h hw hout hf hn status
  obtain ⟨b, hfront, hlast, hused⟩ := h.front hw
  obtain ⟨bs, hbs⟩ := List.head?_eq_some_iff.1 (Option.mem_def.1 hfront)
  have hpop : popWritten w.proto.lastWritePtr w.proto.writeBuffers.blocks = some bs := by
    rw [hlast, hbs, popWritten_front hused]
  have hlen : bs.length + 1 = w.proto.writeBuffers.blocks.length := by rw [hbs]; rfl
  rw [writeDone]
  simp only [wp_bind, Host.wp_get, hw, wp_ite, wp_pure, hpop, Host.wp_modify]
  refine ⟨fun h => absurd trivial h, fun _ => ?_⟩
  refine wp_post (ih (release w bs) sent queued (inv_release h hw hbs) rfl hout hf ?_) ?_
  · change 2 * bs.length + 1 ≤ n
    omega
  · intro _ w' ⟨hset, hle⟩
    obtain ⟨sent', queued', hinv, hrest⟩ := hset
    have hret : Returned off frames w.proto.writeBuffers.blocks.length w' :=
      ⟨⟨sent', queued', hinv, hrest⟩, hle.trans (by change bs.length ≤ _; omega)⟩
    simp only [hinv.closing]
    exact ⟨fun hc => absurd hc.1 Bool.false_ne_true, fun _ => hret⟩

/-- **The two functions of the send queue.** With enough stack for the queued blocks they do not fault, keep the frames,
and return with one write outstanding or an empty queue. -/
theorem tryWrite_writeDone (n : ℕ) : TryWriteOk e off frames n ∧ WriteDoneOk e off frames n := by
  induction n with
  | zero =>
    refine ⟨fun w _ _ _ _ _ _ hn => absurd hn (by omega), fun w _ _ h hw _ _ hn => ?_⟩
    obtain ⟨b, hb, -⟩ := h.front hw
    obtain ⟨bs, hbs⟩ := List.head?_eq_some_iff.1 (Option.mem_def.1 hb)
    rw [hbs, List.length_cons] at hn
    omega
  | succ n ih => exact ⟨tryWrite_step ih.2, writeDone_step ih.1⟩

/-! ## Runs -/

/-- what the application and the event loop do -/
inductive Op where
  /-- `write_msg` with a finished builder that holds these bytes -/
  | writeMsg (buf : Bytes)
  /-- `write_done` with this status; the write that was outstanding is completed by it -/
  | writeDone (status : ℤ)

/-- the frames that an operation adds to the queue: those whose `push_back` succeeds -/
def accepted (hash : Bytes → ℕ) (p : Proto) : Op → List Bytes
  | .writeMsg buf =>
    if 0 < buf.length ∧ buf.length < 2 ^ 32 - 1 ∧ p.writeBuffers.Fits (p.totalBufferSize buf.length) then
      [frameBytes hash buf]
    else []
  | .writeDone _ => []

/-- one operation; the frames accepted so far are carried along -/
def step (e : SoloEnv) (frames : List Bytes) (op : Op) : Prog Fault Solo (List Bytes) := do
  let w ← get
  let frames' := frames ++ accepted e.ext.hash w.proto op
  match op with
  | .writeMsg buf =>
    let _ ← writeBytes (Solo.host e) buf
    return frames'
  | .writeDone status =>
    set { w with outstanding := w.outstanding - 1 }
    let _ ← writeDone (Solo.host e) e.stack status
    return frames'

def run (e : SoloEnv) (ops : List Op) : Prog Fault Solo (List Bytes) := ops.foldlM (step e) []

/-- a message that is accepted stands behind all others -/
theorem inv_push {w : Solo} {sent queued : List (List Bytes)} {q : BlockQueue UInt8} {buf : Bytes} {hash : Bytes → ℕ}
    (h : Inv off sent queued w) (h1 : 0 < buf.length) (h2 : buf.length < 2 ^ 32 - 1)
    (hq : w.proto.writeBuffers.pushBack (w.proto.totalBufferSize buf.length)
      (List.replicate w.proto.writeHeaderOffset 0 ++ frameBytes hash buf) = some q) :
    Inv off sent (queued ++ [[frameBytes hash buf]]) { w with proto := { w.proto with writeBuffers := q } } := by
  obtain ⟨-, heq⟩ := BlockQueue.pushBack_some hq
  have hold := holding_frame hash w.proto.writeBuffers.next (h.offset ▸ h.offset_le) h1 h2
  rw [h.offset] at hold
  refine ⟨h.offset, h.offset_le, h.closing, BlockQueue.within_pushBack hq, BlockQueue.addrOk_pushBack h.addrOk hq,
    h.passed, ?_, ?_⟩
  · have hprev := h.holding
    simp only [waiting, heq] at hprev ⊢
    split_ifs at hprev ⊢ with hwr
    · obtain ⟨b, hb, -⟩ := h.front hwr
      have hne : w.proto.writeBuffers.blocks ≠ [] := by
        rintro hnil
        simp [BlockQueue.front?, hnil] at hb
      rw [List.tail_append_of_ne_nil hne]
      exact List.rel_append hprev (.cons (h.offset ▸ hold) .nil)
    · exact List.rel_append hprev (.cons (h.offset ▸ hold) .nil)
  · intro hwr
    obtain ⟨b, hb, hlast⟩ := h.front hwr
    refine ⟨b, ?_, hlast⟩
    simp only [heq, BlockQueue.front?, List.head?_append] at hb ⊢
    rw [Option.mem_def] at hb ⊢
    rw [hb, Option.some_or]

/-- `try_write` between two calls: it returns at once while a write is outstanding -/
theorem tryWrite_any {n : ℕ} {w : Solo} {sent queued : List (List Bytes)} (h : Inv off sent queued w)
    (hf : sent.flatten ++ queued.flatten = frames)
    (hs : w.proto.flags.writing = true ∧ w.outstanding = 1 ∨ w.proto.flags.writing = false ∧ w.outstanding = 0)
    (hn : 2 * w.proto.writeBuffers.blocks.length + 1 ≤ n) :
    wp (tryWrite (Solo.host e) n) (fun _ => Returned off frames w.proto.writeBuffers.blocks.length)
      (fun _ _ => False) w := by
  rcases hs with ⟨hw, hout⟩ | ⟨hw, hout⟩
  · obtain ⟨n, rfl⟩ : ∃ m, n = m + 1 := ⟨n - 1, by omega⟩
    rw [tryWrite]
    simp only [wp_bind, Host.wp_get, hw, wp_ite, wp_pure]
    exact ⟨fun _ => ⟨⟨sent, queued, h, hf, .inl ⟨hw, hout⟩⟩, le_rfl⟩, fun hc => absurd trivial hc⟩
  · exact (tryWrite_writeDone n).1 w sent queued h hw hout hf hn

theorem writeMsg_spec {w : Solo} {k : ℕ} (h : Returned off frames k w) (hstack : 2 * (k + 1) + 1 ≤ e.stack)
    (buf : Bytes) :
    wp (writeBytes (Solo.host e) buf)
      (fun _ => Returned off (frames ++ accepted e.ext.hash w.proto (.writeMsg buf)) (k + 1)) (fun _ _ => False) w := by
  obtain ⟨⟨sent, queued, hinv, hf, hs⟩, hk⟩ := h
  have hs' : w.proto.flags.writing = true ∧ w.outstanding = 1 ∨ w.proto.flags.writing = false ∧ w.outstanding = 0 :=
    hs.imp_right fun h => ⟨h.1, h.2.1⟩
  have hidle : ∀ {acc}, acc = [] → Returned off (frames ++ acc) (k + 1) w := fun hacc =>
    ⟨⟨sent, queued, hinv, by rw [hacc, List.append_nil, hf], hs⟩, Nat.le_succ_of_le hk⟩
  unfold writeBytes
  simp only [wp_ite, wp_pure, wp_bind, Host.wp_get, accepted]
  refine ⟨fun h1 => ⟨fun h2 => hidle ?_, fun h2 => ?_⟩, fun h1 => ?_⟩
  · exact if_neg fun hc => absurd hc.2.1 (Nat.not_lt.2 h2)
  · cases hq : w.proto.writeBuffers.pushBack (w.proto.totalBufferSize buf.length)
      (List.replicate w.proto.writeHeaderOffset 0 ++ frameBytes e.ext.hash buf) with
    | none =>
      refine hidle (if_neg fun hc => ?_)
      have := (BlockQueue.pushBack_isSome _ _ (List.replicate w.proto.writeHeaderOffset 0 ++
        frameBytes e.ext.hash buf)).2 hc.2.2
      rw [hq] at this
      exact Bool.false_ne_true this
    | some q =>
      have h2 : buf.length < 2 ^ 32 - 1 := Nat.not_le.1 h2
      obtain ⟨hfits, heq⟩ := BlockQueue.pushBack_some hq
      rw [if_pos ⟨h1, h2, hfits⟩]
      simp only [wp_bind, Host.wp_modify]
      have hlen : q.blocks.length = w.proto.writeBuffers.blocks.length + 1 := by rw [heq]; simp
      refine wp_post (tryWrite_any (inv_push hinv h1 h2 hq) ?_ hs' ?_) fun _ _ hret => hret.imp_right fun hle => ?_
      · rw [List.flatten_append, ← List.append_assoc, hf]
        simp
      · change 2 * q.blocks.length + 1 ≤ e.stack
        omega
      · exact hle.trans (by change q.blocks.length ≤ _; omega)
  · rw [if_neg fun hc => h1 hc.1, List.append_nil]
    exact wp_post (tryWrite_any hinv hf hs' (by omega)) fun _ _ hret => hret.imp_right fun hle => by omega

theorem writeDone_spec {w : Solo} {k : ℕ} (h : Returned off frames k w) (hstack : 2 * k + 1 ≤ e.stack) (status : ℤ) :
    wp (writeDone (Solo.host e) e.stack status) (fun _ => Returned off frames k) (fun _ _ => False)
      { w with outstanding := w.outstanding - 1 } := by
  obtain ⟨⟨sent, queued, hinv, hf, hs⟩, hk⟩ := h
  have hinv' : Inv off sent queued { w with outstanding := w.outstanding - 1 } := { hinv with }
  rcases hs with ⟨hw, hout⟩ | ⟨hw, hout, hnil⟩
  · have hzero : w.outstanding - 1 = 0 := by rw [hout]
    refine wp_post ((tryWrite_writeDone e.stack).2 _ sent queued hinv' hw hzero hf ?_ status) ?_
    · exact le_trans (Nat.mul_le_mul_left 2 hk) (Nat.le_of_succ_le hstack)
    · exact fun _ _ hret => hret.imp_right hk.trans'
  · obtain ⟨n, hn⟩ : ∃ n, e.stack = n + 1 := ⟨e.stack - 1, by omega⟩
    rw [hn, writeDone]
    simp only [wp_bind, Host.wp_get, hw, wp_ite, wp_pure]
    exact ⟨fun _ => ⟨⟨sent, queued, hinv', hf, .inr ⟨hw, by rw [hout], hnil⟩⟩, hk⟩,
      fun hc => absurd Bool.false_ne_true hc⟩

theorem step_spec {w : Solo} {k : ℕ} (h : Returned off frames k w) (hstack : 2 * (k + 1) + 1 ≤ e.stack) (op : Op) :
    wp (step e frames op) (fun frames' => Returned off frames' (k + 1)) (fun _ _ => False) w := by
  cases op with
  | writeMsg buf =>
    simp only [step, wp_bind, wp_get, wp_pure]
    exact writeMsg_spec h hstack buf
  | writeDone status =>
    simp only [step, wp_bind, wp_get, wp_set, wp_pure, accepted, List.append_nil]
    exact wp_post (writeDone_spec h (by omega) status) fun _ _ hret => hret.imp_right Nat.le_succ_of_le

theorem run_spec (ops : List Op) {w : Solo} {k : ℕ} (h : Returned off frames k w)
    (hstack : 2 * (k + ops.length) + 1 ≤ e.stack) :
    wp (ops.foldlM (step e) frames) (fun frames' => Settled off frames') (fun _ _ => False) w := by
  induction ops generalizing frames w k with
  | nil => exact h.1
  | cons op ops ih =>
    rw [List.length_cons] at hstack
    rw [List.foldlM_cons, wp_bind]
    exact wp_post (step_spec h (by omega) op) fun _ _ h' => ih h' (by omega)

theorem settled_fresh (hoff : off ≤ 2 ^ 20) (recvLimit recvNumber sendLimit sendNumber seed : ℕ)
    (current : Option CryptGlobal) :
    Settled off [] (Solo.start (Proto.fresh off recvLimit recvNumber sendLimit sendNumber seed) current) := by
  have hwithin : (BlockQueue.empty sendLimit sendNumber : BlockQueue UInt8).Within :=
    ⟨.inr (Nat.zero_le _), .inr (Nat.zero_le _)⟩
  exact ⟨[], [], ⟨rfl, hoff, rfl, hwithin, BlockQueue.addrOk_empty _ _, .nil, .nil, fun h => absurd h Bool.false_ne_true⟩,
    rfl, .inr ⟨rfl, rfl, rfl⟩⟩

theorem passed_frames {calls : List (ℕ × Bytes)} {sent : List (List Bytes)} (h : List.Forall₂ (Passed off) calls sent) :
    (calls.map fun c => c.2.drop off) = sent.map List.flatten ∧ ∀ c ∈ calls, c.1 = 0 ∧ off ≤ c.2.length := by
  induction h with
  | nil => exact ⟨rfl, fun c hc => absurd hc List.not_mem_nil⟩
  | cons hc _ ih =>
    refine ⟨by rw [List.map_cons, List.map_cons, hc.2.2, ih.1], ?_⟩
    intro c hmem
    rcases List.mem_cons.1 hmem with rfl | hmem
    · exact ⟨hc.1, hc.2.1⟩
    · exact ih.2 c hmem

/-- **The send queue.** Every run of sends and completions, whatever the completions report and whichever writes are done
at once, ends without a failed assertion (so the `push_front` of a merged block always fits); what `write_fn` was handed is
a sequence of groups of whole frames that is a prefix of the accepted frames; no two writes are ever outstanding together;
and without an outstanding write the queue is empty and every accepted frame was handed over. -/
theorem sendQueue_run (e : SoloEnv) (sz : BitVec 64) (hsz : sz.toNat ≤ 2 ^ 20)
    (recvLimit recvNumber sendLimit sendNumber seed : ℕ) (current : Option CryptGlobal) (ops : List Op)
    (hstack : 2 * ops.length + 1 ≤ e.stack) :
    let off := (setWriteHeaderOffset sz).toNat
    ∃ frames w,
      exec (run e ops) (Solo.start (Proto.fresh off recvLimit recvNumber sendLimit sendNumber seed) current) =
        (.ok frames, w) ∧
      (∃ groups : List (List Bytes),
        (w.writes.map fun c => c.2.drop off) = groups.map List.flatten ∧ groups.flatten <+: frames) ∧
      (∀ c ∈ w.writes, c.1 = 0 ∧ off ≤ c.2.length) ∧
      w.outstanding ≤ 1 ∧
      (w.outstanding = 0 →
        w.proto.writeBuffers.blocks = [] ∧ (w.writes.map fun c => c.2.drop off).flatten = frames.flatten) := by
  intro off
  have hfresh := settled_fresh (setWriteHeaderOffset_le sz hsz) recvLimit recvNumber sendLimit sendNumber seed current
  have hrun := run_spec (e := e) ops (k := 0) ⟨hfresh, le_rfl⟩ (by rwa [Nat.zero_add])
  unfold wp at hrun
  rcases hexec : exec (run e ops) _ with ⟨fault | frames, w⟩
  · rw [run] at hexec
    rw [hexec] at hrun
    exact absurd hrun id
  · rw [run] at hexec
    rw [hexec] at hrun
    obtain ⟨sent, queued, hinv, hf, hs⟩ := hrun
    obtain ⟨hgroups, hcalls⟩ := passed_frames hinv.passed
    refine ⟨frames, w, rfl, ⟨sent, hgroups, ⟨queued.flatten, hf⟩⟩, hcalls, ?_, ?_⟩
    · rcases hs with ⟨-, hout⟩ | ⟨-, hout, -⟩ <;> omega
    · intro hzero
      rcases hs with ⟨-, hout⟩ | ⟨hw, -, hnil⟩
      · omega
      · have hold := hinv.holding
        rw [hnil, List.forall₂_nil_right_iff, waiting, if_neg (by rw [hw]; exact Bool.false_ne_true)] at hold
        refine ⟨hold, ?_⟩
        rw [hgroups, ← hf, hnil, List.flatten_nil, List.append_nil, List.flatten_flatten]

/-- the first write completes later, the second at once -/
def mergeEnv : SoloEnv where
  ext := Ext.idle
  stack := 16
  now := 0
  writeAnswer n := if n = 0 then (0, false) else (-1, true)
  newId := 1
  reconnectAnswer := 0

/-- two messages wait behind an outstanding write and go out as one buffer -/
def mergeOps : List Op := [.writeMsg [1], .writeMsg [2], .writeMsg [3, 4], .writeDone 0]

theorem sendQueue_run_merge :
    ∃ frames w,
      exec (run mergeEnv mergeOps) (Solo.start (Proto.fresh (setWriteHeaderOffset 5).toNat 4096 2 4096 8 0) none) =
        (.ok frames, w) ∧
      (w.outstanding = 0 → w.proto.writeBuffers.blocks = [] ∧
        (w.writes.map fun c => c.2.drop (setWriteHeaderOffset 5).toNat).flatten = frames.flatten) := by
  obtain ⟨frames, w, hrun, -, -, -, hidle⟩ := sendQueue_run mergeEnv 5 (by decide) 4096 2 4096 8 0 none mergeOps (by decide)
  exact ⟨frames, w, hrun, hidle⟩

example : (exec (run mergeEnv mergeOps) (Solo.start (Proto.fresh 8 4096 2 4096 8 0) none)).2.writes.map (·.2.length) =
    [17, 27] := by decide +kernel

end AtFrame.SendQueue
