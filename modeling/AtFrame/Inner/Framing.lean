/-
Receive framing of the inner protocol: `alloc_recv_buffer` and `read`. The stream is a sequence of frames
`uint32 hash | uint32 length | length bytes`. Small frames are cut out of the 3072-byte head buffer; a frame that does not
end there moves to a heap block of its own size, which the next reads fill directly.

`read` decides which `dispatch_data` calls are made and with which error code; the dispatched messages do not touch the
receive buffers, so the calls are returned in order and whoever owns the protocol object makes them.

Reference parser: `frames` cuts a byte stream from its start, `rest` is what remains. A frame is cut when it is complete
and more than 8 bytes are there, so a frame of length 0 is cut when one further byte has arrived.

Results:
- `frames_append`: cutting what remained plus the new bytes continues the cut of the whole stream;
- `read_sound`: one read from a reader that holds the remainder `p` cuts `p ++ chunk`;
- `reads_refines`: along any division of any stream into reads, the payloads dispatched without an error are the payloads
  of the reference frames before the first bad hash, and the error code is a function of the received bytes;
- `alloc_offers`: after an error-free read there is always room to read into.

Premises: the heap block has at least the 3072 bytes of the head buffer, so that what moves there fits. Nothing is assumed of the
hash or of the bytes. Witness `reads_refines_oneFrame`: one frame in two reads. A length that no block can hold is reported even
where a bad hash came before it in the same read (`badThenLong_reports_size`); the error code is a function of the bytes, but not
of the first fault among them.
-/
import AtFrame.Lib.Blocks
import AtFrame.Inner.Base

namespace AtFrame.Framing

open AtFrame.Lib

/-! ## Model -/

/-- `read_head_` (its filled part) and `read_buffers_` -/
structure Reader where
  head : Bytes
  buffers : BlockQueue UInt8
deriving DecidableEq, Repr

/-- a fresh object whose receive buffer is limited to `limit` bytes and `number` blocks -/
def Reader.fresh (limit number : ℕ) : Reader := ⟨[], BlockQueue.empty limit number⟩

/-- the last block, when it still has room: `NULL != data && 0 != swrite` -/
def Reader.roomy (r : Reader) : Option (Block UInt8) :=
  match r.buffers.back? with
  | none => none
  | some b => if b.size - b.used = 0 then none else some b

/-- `alloc_recv_buffer`: the length offered, `none` where it asserts; closing offers no buffer and length 0 -/
def allocRecvBuffer (closing : Bool) (r : Reader) : Option ℕ :=
  if closing then some 0
  else
    match r.roomy with
    | none => if smallSize - r.head.length = 0 then none else some (smallSize - r.head.length)
    | some b => some (b.size - b.used)

/-- what the unpack loop of `read` leaves behind -/
structure Unpacked where
  /-- `dispatch_data(payload, errcode)` calls in order -/
  calls : List (Bytes × ℤ)
  errcode : ℤ
  left : Bytes
  buffers : BlockQueue UInt8
  isFree : Bool
deriving DecidableEq, Repr

/-- the error code after the hash of one frame was compared: an error of an earlier frame stays -/
def checkHash (hash : Bytes → ℕ) (expect : ℕ) (payload : Bytes) (errcode : ℤ) : ℤ :=
  if hash payload = expect then errcode else EN_ECT_BAD_DATA

/-- the `while (buff_left_len > 8)` loop over the head buffer; every round takes at least 8 bytes off `left` -/
def unpack (hash : Bytes → ℕ) : ℕ → Bytes → ℤ → BlockQueue UInt8 → Unpacked
  | 0, left, errcode, q => ⟨[], errcode, left, q, false⟩
  | n + 1, left, errcode, q =>
    if left.length ≤ msgHeaderLen then ⟨[], errcode, left, q, false⟩
    else
      let msgLen := le32 (left.drop 4)
      if msgHeaderLen + msgLen ≤ left.length then
        let payload := (left.drop msgHeaderLen).take msgLen
        let errcode' := checkHash hash (le32 left) payload errcode
        let u := unpack hash n (left.drop (msgHeaderLen + msgLen)) errcode' q
        { u with calls := (payload, errcode') :: u.calls }
      else
        -- the rest must be the start of a big message, which gets a block of its own
        match q.pushBack (msgHeaderLen + msgLen) [] with
        | some q' => ⟨[], errcode, [], q'.fillBack left, false⟩
        | none => ⟨[], errcode, left.drop msgHeaderLen, q, true⟩

structure ReadResult where
  calls : List (Bytes × ℤ)
  errcode : ℤ
  reader : Reader
deriving DecidableEq, Repr

/-- the block at the front is complete: dispatch and free it -/
def takeBig (hash : Bytes → ℕ) (u : Unpacked) : Unpacked :=
  match u.buffers.front? with
  | none => u
  | some b =>
    if b.size - b.used = 0 then
      let payload := (b.data.take b.used).drop msgHeaderLen
      let errcode := checkHash hash (le32 b.data) payload u.errcode
      { u with calls := u.calls ++ [(payload, errcode)], errcode := errcode, buffers := u.buffers.popFront }
    else u

/-- a message that got no block: report it, after the other frames of this read -/
def reportFree (u : Unpacked) : Unpacked :=
  if u.isFree then
    { u with errcode := EN_ECT_INVALID_SIZE,
             calls := if 0 < u.left.length then u.calls ++ [(u.left, EN_ECT_INVALID_SIZE)] else u.calls }
  else u

/-- the part of `read` before the check for a complete block: unpack the head buffer, or count the bytes of the block -/
def readInto (hash : Bytes → ℕ) (r : Reader) (chunk : Bytes) : Unpacked :=
  match r.roomy with
  | none => unpack hash (r.head ++ chunk).length (r.head ++ chunk) EN_ECT_SUCCESS r.buffers
  | some _ => ⟨[], EN_ECT_SUCCESS, r.head, r.buffers.fillBack chunk, false⟩

/-- `read(ssz, buff, nread_s, errcode)`, the bytes of `chunk` having been stored where `alloc_recv_buffer` said -/
def read (hash : Bytes → ℕ) (closing : Bool) (r : Reader) (chunk : Bytes) : ReadResult :=
  if closing then ⟨[], EN_ECT_CLOSING, r⟩
  else
    let u := reportFree (takeBig hash (readInto hash r chunk))
    ⟨u.calls, u.errcode, ⟨u.left, u.buffers⟩⟩

/-! ## Reference parser -/

structure Frame where
  hash : ℕ
  payload : Bytes
deriving DecidableEq, Repr

/-- a whole frame stands at the start of `b`, and more than 8 bytes are there -/
def Complete (b : Bytes) : Prop := msgHeaderLen < b.length ∧ msgHeaderLen + le32 (b.drop 4) ≤ b.length

instance (b : Bytes) : Decidable (Complete b) := by unfold Complete; infer_instance

/-- the frame at the start of `b` -/
def firstFrame (b : Bytes) : Frame := ⟨le32 b, (b.drop msgHeaderLen).take (le32 (b.drop 4))⟩

/-- what follows the frame at the start of `b` -/
def afterFirst (b : Bytes) : Bytes := b.drop (msgHeaderLen + le32 (b.drop 4))

theorem afterFirst_lt {b : Bytes} (h : Complete b) : (afterFirst b).length < b.length := by
  have := h.1
  simp only [afterFirst, List.length_drop, msgHeaderLen] at *
  omega

/-- the complete frames of a stream, in order -/
def frames (b : Bytes) : List Frame := if _ : Complete b then firstFrame b :: frames (afterFirst b) else []
termination_by b.length
decreasing_by exact afterFirst_lt ‹_›

/-- the bytes behind the last complete frame -/
def rest (b : Bytes) : Bytes := if _ : Complete b then rest (afterFirst b) else b
termination_by b.length
decreasing_by exact afterFirst_lt ‹_›

/-- the frame's hash is the hash of its payload -/
def Frame.Good (hash : Bytes → ℕ) (f : Frame) : Prop := hash f.payload = f.hash

instance (hash : Bytes → ℕ) (f : Frame) : Decidable (f.Good hash) := by unfold Frame.Good; infer_instance

/-- the remainder announces a frame that no block can hold -/
def TooLong (limit : ℕ) (r : Bytes) : Prop := msgHeaderLen < r.length ∧ limit < msgHeaderLen + le32 (r.drop 4)

instance (limit : ℕ) (r : Bytes) : Decidable (TooLong limit r) := by unfold TooLong; infer_instance

/-- the error code that the bytes received so far call for -/
def verdict (hash : Bytes → ℕ) (limit : ℕ) (b : Bytes) : ℤ :=
  if TooLong limit (rest b) then EN_ECT_INVALID_SIZE
  else if ∀ f ∈ frames b, f.Good hash then EN_ECT_SUCCESS else EN_ECT_BAD_DATA

theorem frames_complete {b : Bytes} (h : Complete b) : frames b = firstFrame b :: frames (afterFirst b) := by
  rw [frames, dif_pos h]

theorem frames_incomplete {b : Bytes} (h : ¬ Complete b) : frames b = [] := by rw [frames, dif_neg h]

theorem rest_complete {b : Bytes} (h : Complete b) : rest b = rest (afterFirst b) := by rw [rest, dif_pos h]

theorem rest_incomplete {b : Bytes} (h : ¬ Complete b) : rest b = b := by rw [rest, dif_neg h]

theorem le32_drop_append {b : Bytes} (h : msgHeaderLen ≤ b.length) (c : Bytes) :
    le32 ((b ++ c).drop 4) = le32 (b.drop 4) := by
  simp only [msgHeaderLen] at h
  rw [List.drop_append_of_le_length (by omega)]
  exact le32_append (by rw [List.length_drop]; omega) c

theorem complete_append {b : Bytes} (h : Complete b) (c : Bytes) : Complete (b ++ c) := by
  obtain ⟨h1, h2⟩ := h
  refine ⟨by rw [List.length_append]; omega, ?_⟩
  rw [le32_drop_append (le_of_lt h1), List.length_append]
  omega

theorem firstFrame_append {b : Bytes} (h : Complete b) (c : Bytes) : firstFrame (b ++ c) = firstFrame b := by
  obtain ⟨h1, h2⟩ := h
  simp only [msgHeaderLen] at h1 h2
  simp only [firstFrame, le32_drop_append (le_of_lt h1), msgHeaderLen]
  rw [le32_append (by omega), List.drop_append_of_le_length (by omega), List.take_append_of_le_length]
  rw [List.length_drop]; omega

theorem afterFirst_append {b : Bytes} (h : Complete b) (c : Bytes) : afterFirst (b ++ c) = afterFirst b ++ c := by
  obtain ⟨h1, h2⟩ := h
  simp only [afterFirst, le32_drop_append (le_of_lt h1)]
  exact List.drop_append_of_le_length h2

/-- **Cutting continues.** The frames of a stream are those of its first part, then those of what the first part left
together with the second. -/
theorem frames_append (b c : Bytes) :
    frames (b ++ c) = frames b ++ frames (rest b ++ c) ∧ rest (b ++ c) = rest (rest b ++ c) := by
  induction hn : b.length using Nat.strong_induction_on generalizing b with
  | _ n ih =>
    by_cases h : Complete b
    · obtain ⟨i1, i2⟩ := ih _ (hn ▸ afterFirst_lt h) (afterFirst b) rfl
      rw [frames_complete (complete_append h c), rest_complete (complete_append h c), frames_complete h,
        rest_complete h, firstFrame_append h, afterFirst_append h, i1, i2]
      exact ⟨rfl, rfl⟩
    · rw [frames_incomplete h, rest_incomplete h]
      exact ⟨rfl, rfl⟩

/-- the remainder holds no complete frame -/
theorem rest_not_complete (b : Bytes) : ¬ Complete (rest b) := by
  induction hn : b.length using Nat.strong_induction_on generalizing b with
  | _ n ih =>
    by_cases h : Complete b
    · rw [rest_complete h]; exact ih _ (hn ▸ afterFirst_lt h) _ rfl
    · rwa [rest_incomplete h]

/-! ## One read -/

/-- the `dispatch_data` calls for a list of frames, the error code of a bad hash staying on -/
def scan (hash : Bytes → ℕ) : ℤ → List Frame → List (Bytes × ℤ)
  | _, [] => []
  | errcode, f :: fs =>
    let errcode' := checkHash hash f.hash f.payload errcode
    (f.payload, errcode') :: scan hash errcode' fs

/-- the error code after all of them -/
def scanErr (hash : Bytes → ℕ) (errcode : ℤ) (fs : List Frame) : ℤ :=
  if ∀ f ∈ fs, f.Good hash then errcode else EN_ECT_BAD_DATA

/-- the payloads dispatched with a non-negative error code -/
def delivered (calls : List (Bytes × ℤ)) : List Bytes := (calls.filter (fun c => 0 ≤ c.2)).map Prod.fst

/-- the frames in front of the first bad hash -/
def goodPrefix (hash : Bytes → ℕ) (fs : List Frame) : List Frame := fs.takeWhile (fun f => f.Good hash)

theorem scanErr_cons (hash : Bytes → ℕ) (errcode : ℤ) (f : Frame) (fs : List Frame) :
    scanErr hash errcode (f :: fs) = scanErr hash (checkHash hash f.hash f.payload errcode) fs := by
  unfold scanErr checkHash
  by_cases hf : f.Good hash
  · have : hash f.payload = f.hash := hf
    simp [this, hf]
  · have : ¬ hash f.payload = f.hash := hf
    simp [this, hf]

theorem delivered_scan_neg (hash : Bytes → ℕ) {errcode : ℤ} (he : errcode < 0) (fs : List Frame) :
    delivered (scan hash errcode fs) = [] := by
  induction fs generalizing errcode with
  | nil => rfl
  | cons f fs ih =>
    have hneg : checkHash hash f.hash f.payload errcode < 0 := by
      unfold checkHash; split_ifs
      · exact he
      · decide
    have := ih hneg
    simp only [scan, delivered, List.filter_cons] at this ⊢
    rw [if_neg (by simpa using hneg)]
    exact this

theorem delivered_scan (hash : Bytes → ℕ) (fs : List Frame) :
    delivered (scan hash EN_ECT_SUCCESS fs) = (goodPrefix hash fs).map Frame.payload := by
  induction fs with
  | nil => rfl
  | cons f fs ih =>
    by_cases hf : f.Good hash
    · have hc : checkHash hash f.hash f.payload EN_ECT_SUCCESS = EN_ECT_SUCCESS := if_pos hf
      simp only [scan, hc, goodPrefix, List.takeWhile_cons, hf, decide_true, if_true, List.map_cons]
      rw [← goodPrefix, ← ih]
      rfl
    · have hc : checkHash hash f.hash f.payload EN_ECT_SUCCESS = EN_ECT_BAD_DATA := if_neg hf
      simp only [scan, hc, goodPrefix, List.takeWhile_cons, hf, decide_false, Bool.false_eq_true, if_false,
        List.map_nil]
      have : delivered (scan hash EN_ECT_BAD_DATA fs) = [] := delivered_scan_neg hash (by decide) fs
      simp only [delivered, List.filter_cons] at this ⊢
      rw [if_neg (by simp [EN_ECT_BAD_DATA])]
      exact this

theorem goodPrefix_append {hash : Bytes → ℕ} {fs : List Frame} (h : ∀ f ∈ fs, f.Good hash) (gs : List Frame) :
    goodPrefix hash (fs ++ gs) = fs ++ goodPrefix hash gs := by
  unfold goodPrefix
  rw [List.takeWhile_append_of_pos]
  simpa using h

/-- the block for a big message whose first bytes are `p` -/
def bigBlock (addr : ℕ) (p : Bytes) : Block UInt8 := ⟨addr, msgHeaderLen + le32 (p.drop 4), p.length, p⟩

/-- what the unpack loop leaves for the remainder `p` of its input -/
def Leaves (limit : ℕ) (q : BlockQueue UInt8) (p : Bytes) (u : Unpacked) : Prop :=
  if p.length ≤ msgHeaderLen then u.left = p ∧ u.buffers = q ∧ u.isFree = false
  else if msgHeaderLen + le32 (p.drop 4) ≤ limit then
    u.left = [] ∧ u.buffers = { q with blocks := [bigBlock q.next p], next := q.next + 1 } ∧ u.isFree = false
  else u.left = p.drop msgHeaderLen ∧ u.buffers = q ∧ u.isFree = true

theorem fits_of_empty {q : BlockQueue UInt8} {limit : ℕ} (hq : q.blocks = []) (hl : q.limitSize = limit)
    (h0 : limit ≠ 0) (s : ℕ) : q.Fits s ↔ s ≤ limit := by
  simp only [BlockQueue.Fits, BlockQueue.costNumber, BlockQueue.costSize, hq, hl, List.length_nil, List.map_nil,
    List.sum_nil, zero_add, h0, false_or, and_iff_right_iff_imp]
  intro _
  omega

/-- the loop cuts exactly the reference frames, in order, and keeps the remainder; induction on the loop's rounds -/
theorem unpack_spec (hash : Bytes → ℕ) {limit : ℕ} (h0 : limit ≠ 0) (q : BlockQueue UInt8) (hq : q.blocks = [])
    (hl : q.limitSize = limit) (n : ℕ) (left : Bytes) (errcode : ℤ) (hn : left.length ≤ n) :
    (unpack hash n left errcode q).calls = scan hash errcode (frames left) ∧
      (unpack hash n left errcode q).errcode = scanErr hash errcode (frames left) ∧
      Leaves limit q (rest left) (unpack hash n left errcode q) := by
  induction n generalizing left errcode with
  | zero =>
    have hnil : left = [] := List.length_eq_zero_iff.1 (by omega)
    subst hnil
    have hc : ¬ Complete [] := by decide
    rw [frames_incomplete hc, rest_incomplete hc]
    exact ⟨rfl, rfl, rfl, rfl, rfl⟩
  | succ n ih =>
    unfold unpack
    by_cases hsmall : left.length ≤ msgHeaderLen
    · have hc : ¬ Complete left := fun h => absurd h.1 (by omega)
      rw [frames_incomplete hc, rest_incomplete hc, if_pos hsmall]
      refine ⟨rfl, rfl, ?_⟩
      simp only [Leaves, if_pos hsmall, and_self]
    · rw [if_neg hsmall]
      by_cases hfit : msgHeaderLen + le32 (left.drop 4) ≤ left.length
      · have hc : Complete left := ⟨by omega, hfit⟩
        simp only [if_pos hfit]
        rw [frames_complete hc, rest_complete hc, scanErr_cons]
        obtain ⟨i1, i2, i3⟩ := ih (afterFirst left) (checkHash hash (le32 left) (firstFrame left).payload errcode)
          (by have := afterFirst_lt hc; omega)
        refine ⟨?_, i2, i3⟩
        simp only [scan]
        exact congrArg₂ List.cons rfl i1
      · have hc : ¬ Complete left := fun h => hfit h.2
        simp only [if_neg hfit]
        rw [frames_incomplete hc, rest_incomplete hc]
        unfold Leaves
        rw [if_neg hsmall]
        by_cases hlim : msgHeaderLen + le32 (left.drop 4) ≤ limit
        · have hf := (fits_of_empty hq hl h0 _).2 hlim
          rw [if_pos hlim, BlockQueue.pushBack, if_pos hf]
          refine ⟨rfl, by simp [scanErr], rfl, ?_, rfl⟩
          simp [BlockQueue.fillBack, BlockQueue.back?, hq, bigBlock]
        · have hf : ¬ q.Fits (msgHeaderLen + le32 (left.drop 4)) := fun h => hlim ((fits_of_empty hq hl h0 _).1 h)
          rw [if_neg hlim, BlockQueue.pushBack, if_neg hf]
          exact ⟨rfl, by simp [scanErr], rfl, rfl, rfl⟩

/-- `r` holds the unfinished bytes `p`: at most 8 bytes in the head buffer, or one partial block and an empty head -/
inductive Holds (limit : ℕ) : Reader → Bytes → Prop where
  | head (q : BlockQueue UInt8) (p : Bytes) (hq : q.blocks = []) (hl : q.limitSize = limit)
      (hp : p.length ≤ msgHeaderLen) : Holds limit ⟨p, q⟩ p
  | block (q : BlockQueue UInt8) (p : Bytes) (a : ℕ) (hq : q.blocks = [bigBlock a p]) (hl : q.limitSize = limit)
      (h1 : msgHeaderLen < p.length) (h2 : p.length < msgHeaderLen + le32 (p.drop 4))
      (h3 : msgHeaderLen + le32 (p.drop 4) ≤ limit) : Holds limit ⟨[], q⟩ p

theorem holds_fresh (limit number : ℕ) : Holds limit (Reader.fresh limit number) [] :=
  .head _ _ rfl rfl (by simp)

theorem alloc_head {q : BlockQueue UInt8} {p : Bytes} (hq : q.blocks = []) (hp : p.length ≤ msgHeaderLen) :
    allocRecvBuffer false ⟨p, q⟩ = some (smallSize - p.length) := by
  simp only [allocRecvBuffer, Reader.roomy, BlockQueue.back?, hq, List.getLast?_nil, Bool.false_eq_true, if_false]
  rw [if_neg]
  simp only [smallSize, msgHeaderLen] at *
  omega

theorem alloc_block {q : BlockQueue UInt8} {p : Bytes} {a : ℕ} (hq : q.blocks = [bigBlock a p])
    (h2 : p.length < msgHeaderLen + le32 (p.drop 4)) :
    allocRecvBuffer false ⟨[], q⟩ = some (msgHeaderLen + le32 (p.drop 4) - p.length) := by
  have : ¬ (msgHeaderLen + le32 (p.drop 4) - p.length = 0) := by omega
  simp [allocRecvBuffer, Reader.roomy, BlockQueue.back?, hq, bigBlock, this]

/-- after an error-free read the next one has room: the assertion in `alloc_recv_buffer` never fails -/
theorem alloc_offers {limit : ℕ} {r : Reader} {p : Bytes} (h : Holds limit r p) :
    ∃ n, allocRecvBuffer false r = some n ∧ 0 < n := by
  cases h with
  | head q p hq hl hp =>
    refine ⟨_, alloc_head hq hp, ?_⟩
    simp only [smallSize, msgHeaderLen] at *
    omega
  | block q p a hq hl h1 h2 h3 => exact ⟨_, alloc_block hq h2, by omega⟩

theorem delivered_append (a b : List (Bytes × ℤ)) : delivered (a ++ b) = delivered a ++ delivered b := by
  simp [delivered]

/-- a partial block at the front is left alone -/
theorem takeBig_partial (hash : Bytes → ℕ) (u : Unpacked) (h : ∀ b, u.buffers.front? = some b → b.used < b.size) :
    takeBig hash u = u := by
  unfold takeBig
  split
  · rfl
  · rename_i b hb
    have := h b hb
    rw [if_neg (by omega)]

/-- what a read returns after the loop over the head buffer left the remainder `p` -/
theorem report_leaves (hash : Bytes → ℕ) {limit : ℕ} {q : BlockQueue UInt8} (hq : q.blocks = [])
    (hl : q.limitSize = limit) {b : Bytes} {u : Unpacked} (hcalls : u.calls = scan hash EN_ECT_SUCCESS (frames b))
    (herr : u.errcode = scanErr hash EN_ECT_SUCCESS (frames b)) (hu : Leaves limit q (rest b) u) :
    delivered (reportFree (takeBig hash u)).calls = (goodPrefix hash (frames b)).map Frame.payload ∧
      (reportFree (takeBig hash u)).errcode = verdict hash limit b ∧
      ((reportFree (takeBig hash u)).errcode = EN_ECT_SUCCESS →
        Holds limit ⟨(reportFree (takeBig hash u)).left, (reportFree (takeBig hash u)).buffers⟩ (rest b)) := by
  unfold Leaves at hu
  split_ifs at hu with hsmall hfit
  · obtain ⟨e1, e2, e3⟩ := hu
    have ht : takeBig hash u = u := takeBig_partial hash u (by simp [e2, BlockQueue.front?, hq])
    have hr : reportFree u = u := by simp [reportFree, e3]
    rw [ht, hr, hcalls, herr, e1, e2]
    have hlong : ¬ TooLong limit (rest b) := fun h => absurd h.1 (by omega)
    exact ⟨delivered_scan hash _, by simp [verdict, hlong, scanErr], fun _ => .head _ _ hq hl hsmall⟩
  · obtain ⟨e1, e2, e3⟩ := hu
    have hlt : (rest b).length < msgHeaderLen + le32 ((rest b).drop 4) := by
      have := rest_not_complete b
      unfold Complete at this
      omega
    have ht : takeBig hash u = u := by
      refine takeBig_partial hash u fun c hc => ?_
      simp only [e2, BlockQueue.front?, List.head?_cons, Option.some.injEq] at hc
      rw [← hc]
      exact hlt
    have hr : reportFree u = u := by simp [reportFree, e3]
    rw [ht, hr, hcalls, herr, e1, e2]
    have hlong : ¬ TooLong limit (rest b) := fun h => absurd h.2 (by omega)
    exact ⟨delivered_scan hash _, by simp [verdict, hlong, scanErr],
      fun _ => .block _ _ q.next rfl hl (by omega) hlt hfit⟩
  · obtain ⟨e1, e2, e3⟩ := hu
    have ht : takeBig hash u = u := takeBig_partial hash u (by simp [e2, BlockQueue.front?, hq])
    have hlong : TooLong limit (rest b) := ⟨by omega, by omega⟩
    rw [ht]
    refine ⟨?_, by simp [reportFree, e3, verdict, hlong], fun h => ?_⟩
    · have hd : delivered [(u.left, EN_ECT_INVALID_SIZE)] = [] := by simp [delivered, EN_ECT_INVALID_SIZE]
      simp only [reportFree, e3, if_true]
      split_ifs
      · rw [delivered_append, hd, List.append_nil, hcalls, delivered_scan]
      · rw [hcalls, delivered_scan]
    · simp [reportFree, e3, EN_ECT_INVALID_SIZE, EN_ECT_SUCCESS] at h

/-- the bytes of a block that is now complete are one frame with nothing behind it -/
theorem frames_exact {b : Bytes} (h1 : msgHeaderLen < b.length) (h2 : b.length = msgHeaderLen + le32 (b.drop 4)) :
    frames b = [⟨le32 b, b.drop msgHeaderLen⟩] ∧ rest b = [] := by
  have hc : Complete b := ⟨h1, by omega⟩
  have hafter : afterFirst b = [] := List.drop_eq_nil_of_le (by omega)
  have hnil : ¬ Complete [] := by decide
  rw [frames_complete hc, rest_complete hc, hafter, frames_incomplete hnil, rest_incomplete hnil]
  refine ⟨?_, rfl⟩
  rw [firstFrame, List.take_of_length_le (by rw [List.length_drop]; omega)]

/-- **One read.** From a reader that holds `p`, a read of at most the offered length dispatches the good frames at the
start of `p ++ chunk`, reports the verdict on them, and after success holds what they leave. -/
theorem read_sound (hash : Bytes → ℕ) {limit : ℕ} (h0 : limit ≠ 0) {r : Reader} {p : Bytes} (h : Holds limit r p)
    (chunk : Bytes) {n : ℕ} (hn : allocRecvBuffer false r = some n) (hlen : chunk.length ≤ n) :
    delivered (read hash false r chunk).calls = (goodPrefix hash (frames (p ++ chunk))).map Frame.payload ∧
      (read hash false r chunk).errcode = verdict hash limit (p ++ chunk) ∧
      ((read hash false r chunk).errcode = EN_ECT_SUCCESS →
        Holds limit (read hash false r chunk).reader (rest (p ++ chunk))) := by
  cases h with
  | head q p hq hl hp =>
    have hroom : Reader.roomy ⟨p, q⟩ = none := by simp [Reader.roomy, BlockQueue.back?, hq]
    obtain ⟨u1, u2, u3⟩ := unpack_spec hash h0 q hq hl _ (p ++ chunk) EN_ECT_SUCCESS le_rfl
    have hread : read hash false ⟨p, q⟩ chunk =
        let u := reportFree (takeBig hash (unpack hash (p ++ chunk).length (p ++ chunk) EN_ECT_SUCCESS q))
        ⟨u.calls, u.errcode, ⟨u.left, u.buffers⟩⟩ := by
      simp only [read, readInto, hroom, Bool.false_eq_true, if_false]
    rw [hread]
    exact report_leaves hash hq hl u1 u2 u3
  | block q p a hq hl h1 h2 h3 =>
    rw [alloc_block hq h2, Option.some.injEq] at hn
    have hroom : Reader.roomy ⟨[], q⟩ = some (bigBlock a p) := by
      simp only [Reader.roomy, BlockQueue.back?, hq, List.getLast?_singleton]
      rw [if_neg]
      simp only [bigBlock]
      omega
    have hsize : le32 ((p ++ chunk).drop 4) = le32 (p.drop 4) := le32_drop_append (le_of_lt h1) chunk
    have hfill : q.fillBack chunk = { q with blocks := [bigBlock a (p ++ chunk)] } := by
      simp [BlockQueue.fillBack, BlockQueue.back?, hq, bigBlock, hsize]
    have hread : read hash false ⟨[], q⟩ chunk =
        let u := reportFree (takeBig hash ⟨[], EN_ECT_SUCCESS, [], { q with blocks := [bigBlock a (p ++ chunk)] }, false⟩)
        ⟨u.calls, u.errcode, ⟨u.left, u.buffers⟩⟩ := by
      simp only [read, readInto, hroom, hfill, Bool.false_eq_true, if_false]
    rw [hread]
    have hb1 : msgHeaderLen < (p ++ chunk).length := by rw [List.length_append]; omega
    have hblen : (p ++ chunk).length ≤ msgHeaderLen + le32 ((p ++ chunk).drop 4) := by
      rw [hsize, List.length_append]; omega
    have hb3 : msgHeaderLen + le32 ((p ++ chunk).drop 4) ≤ limit := by rw [hsize]; exact h3
    generalize p ++ chunk = b at hb1 hblen hb3
    by_cases hdone : b.length = msgHeaderLen + le32 (b.drop 4)
    · obtain ⟨f1, f2⟩ := frames_exact hb1 hdone
      have htake : b.take b.length = b := List.take_length
      have hlong : ¬ TooLong limit (rest b) := by rw [f2]; exact fun h => absurd h.1 (by decide)
      have hver : verdict hash limit b = checkHash hash (le32 b) (b.drop msgHeaderLen) EN_ECT_SUCCESS := by
        rw [verdict, if_neg hlong, f1]
        simp [Frame.Good, checkHash]
      have hzero : msgHeaderLen + le32 (b.drop 4) - b.length = 0 := by omega
      simp only [takeBig, BlockQueue.front?, List.head?_cons, bigBlock, htake, hzero, if_true, reportFree,
        Bool.false_eq_true, if_false, List.nil_append, hver, true_and, f1, f2]
      refine ⟨?_, fun _ => .head _ _ rfl hl (by simp)⟩
      exact delivered_scan hash [⟨le32 b, b.drop msgHeaderLen⟩]
    · have hc : ¬ Complete b := fun h => hdone (le_antisymm hblen h.2)
      have ht : takeBig hash ⟨[], EN_ECT_SUCCESS, [], { q with blocks := [bigBlock a b] }, false⟩ =
          ⟨[], EN_ECT_SUCCESS, [], { q with blocks := [bigBlock a b] }, false⟩ := by
        refine takeBig_partial hash _ fun c hcb => ?_
        simp only [BlockQueue.front?, List.head?_cons, Option.some.injEq] at hcb
        rw [← hcb]
        simp only [bigBlock]
        omega
      have hlong : ¬ TooLong limit b := fun h => absurd h.2 (by omega)
      rw [ht, frames_incomplete hc, rest_incomplete hc]
      refine ⟨rfl, by simp [reportFree, verdict, frames_incomplete hc, rest_incomplete hc, hlong], fun _ => ?_⟩
      exact .block _ _ a rfl hl hb1 (by omega) hb3

/-! ## Whole runs -/

/-- consecutive `alloc_recv_buffer`/`read` pairs on a fresh object, each read between 1 byte and the length offered, up to
and including the first read that reports an error: the chunks, the `dispatch_data` calls, the last error code -/
inductive Reads (hash : Bytes → ℕ) (limit number : ℕ) : List Bytes → List (Bytes × ℤ) → ℤ → Reader → Prop where
  | start : Reads hash limit number [] [] EN_ECT_SUCCESS (Reader.fresh limit number)
  | read {chunks calls r} (h : Reads hash limit number chunks calls EN_ECT_SUCCESS r) (chunk : Bytes) (n : ℕ)
      (hn : allocRecvBuffer false r = some n) (h1 : 1 ≤ chunk.length) (h2 : chunk.length ≤ n) :
      Reads hash limit number (chunks ++ [chunk]) (calls ++ (read hash false r chunk).calls)
        (read hash false r chunk).errcode (read hash false r chunk).reader

theorem verdict_success {hash : Bytes → ℕ} {limit : ℕ} {b : Bytes} (h : verdict hash limit b = EN_ECT_SUCCESS) :
    ∀ f ∈ frames b, f.Good hash := by
  unfold verdict at h
  split_ifs at h with h1 h2
  · exact absurd h (by decide)
  · exact h2
  · exact absurd h (by decide)

/-- the verdict on a stream whose first part was in order is the verdict on what that part left and the new bytes -/
theorem verdict_append {hash : Bytes → ℕ} {limit : ℕ} {b : Bytes} (h : ∀ f ∈ frames b, f.Good hash) (c : Bytes) :
    verdict hash limit (b ++ c) = verdict hash limit (rest b ++ c) := by
  obtain ⟨e1, e2⟩ := frames_append b c
  have : (∀ f ∈ frames b ++ frames (rest b ++ c), f.Good hash) ↔ ∀ f ∈ frames (rest b ++ c), f.Good hash := by
    constructor
    · exact fun hall f hf => hall f (List.mem_append_right _ hf)
    · intro hall f hf
      rcases List.mem_append.1 hf with hf | hf
      · exact h f hf
      · exact hall f hf
  unfold verdict
  rw [e1, e2]
  simp only [this]

theorem reads_inv (hash : Bytes → ℕ) {limit number : ℕ} (h0 : limit ≠ 0) {chunks : List Bytes}
    {calls : List (Bytes × ℤ)} {errcode : ℤ} {r : Reader} (h : Reads hash limit number chunks calls errcode r) :
    delivered calls = (goodPrefix hash (frames chunks.flatten)).map Frame.payload ∧
      errcode = verdict hash limit chunks.flatten ∧
      (errcode = EN_ECT_SUCCESS → Holds limit r (rest chunks.flatten)) := by
  induction h with
  | start =>
    have hnil : ¬ Complete [] := by decide
    have hlong : ¬ TooLong limit [] := fun h => absurd h.1 (by decide)
    simp only [List.flatten_nil, frames_incomplete hnil, rest_incomplete hnil]
    exact ⟨rfl, by simp [verdict, frames_incomplete hnil, rest_incomplete hnil, hlong], fun _ => holds_fresh _ _⟩
  | @read chunks calls r h chunk n hn h1 h2 ih =>
    obtain ⟨i1, i2, i3⟩ := ih
    have hgood : ∀ f ∈ frames chunks.flatten, f.Good hash := verdict_success i2.symm
    have hself : goodPrefix hash (frames chunks.flatten) = frames chunks.flatten := by
      have := goodPrefix_append hgood []
      simpa [goodPrefix] using this
    obtain ⟨s1, s2, s3⟩ := read_sound hash h0 (i3 rfl) chunk hn h2
    obtain ⟨e1, e2⟩ := frames_append chunks.flatten chunk
    simp only [List.flatten_append, List.flatten_cons, List.flatten_nil, List.append_nil]
    refine ⟨?_, ?_, ?_⟩
    · rw [delivered_append, i1, s1, e1, goodPrefix_append hgood, List.map_append, hself]
    · rw [s2, verdict_append hgood]
    · rw [e2]; exact s3

/-- **Receive framing refines the reference parser.** For every stream and every division of it into reads, up to and
including the first read that reports an error: the payloads dispatched without an error are exactly, once each and in
order, the payloads of the complete frames in front of the first bad hash; a bad hash makes the read report
`EN_ECT_BAD_DATA`, or `EN_ECT_INVALID_SIZE` when the remainder of that read announces a frame longer than the limit; and
without either the read reports success. -/
theorem reads_refines (hash : Bytes → ℕ) (limit number : ℕ) (hlimit : 3072 ≤ limit) (chunks : List Bytes)
    (calls : List (Bytes × ℤ)) (errcode : ℤ) (r : Reader) (h : Reads hash limit number chunks calls errcode r) :
    delivered calls = (goodPrefix hash (frames chunks.flatten)).map Frame.payload ∧
      ((∃ f ∈ frames chunks.flatten, ¬ f.Good hash) → ¬ TooLong limit (rest chunks.flatten) →
        errcode = EN_ECT_BAD_DATA) ∧
      (TooLong limit (rest chunks.flatten) → errcode = EN_ECT_INVALID_SIZE) ∧
      ((∀ f ∈ frames chunks.flatten, f.Good hash) → ¬ TooLong limit (rest chunks.flatten) →
        errcode = EN_ECT_SUCCESS) := by
  obtain ⟨h1, h2, -⟩ := reads_inv hash (by omega) h
  refine ⟨h1, ?_, ?_, ?_⟩
  · intro ⟨f, hf, hbad⟩ hlong
    rw [h2, verdict, if_neg hlong, if_neg fun hall => hbad (hall f hf)]
  · intro hlong
    rw [h2, verdict, if_pos hlong]
  · intro hall hlong
    rw [h2, verdict, if_neg hlong, if_pos hall]

/-- a frame of one byte whose hash is 0 -/
def oneFrame : Bytes := [0, 0, 0, 0, 1, 0, 0, 0, 7]

theorem reads_refines_oneFrame :
    ∃ calls errcode r, Reads (fun _ => 0) 3072 2 [oneFrame] calls errcode r ∧
      delivered calls = (goodPrefix (fun _ => 0) (frames [oneFrame].flatten)).map Frame.payload := by
  have h : Reads (fun _ => 0) 3072 2 [oneFrame] _ _ _ := .read .start oneFrame 3072 (by decide) (by decide) (by decide)
  exact ⟨_, _, _, h, (reads_refines _ 3072 2 le_rfl _ _ _ _ h).1⟩

/-- an empty frame with a wrong hash, then the first 9 bytes of a frame of 2^32 - 1 bytes -/
def badThenLong : Bytes := [1, 0, 0, 0, 0, 0, 0, 0, 0, 0, 0, 0, 255, 255, 255, 255, 7]

/-- a wrong hash does not always make the read report `EN_ECT_BAD_DATA`: the too long frame behind it, in the same read,
overwrites the error code -/
theorem badThenLong_reports_size :
    ¬ ∀ (hash : Bytes → ℕ) (limit number : ℕ), 3072 ≤ limit → ∀ (chunks : List Bytes) (calls : List (Bytes × ℤ))
      (errcode : ℤ) (r : Reader), Reads hash limit number chunks calls errcode r →
      (∃ f ∈ frames chunks.flatten, ¬ f.Good hash) → errcode = EN_ECT_BAD_DATA := by
  intro h
  have hr : Reads (fun _ => 0) 3072 2 [badThenLong] _ _ _ :=
    .read .start badThenLong 3072 (by decide) (by decide) (by decide)
  have hmem : (⟨1, []⟩ : Frame) ∈ frames [badThenLong].flatten := by
    rw [frames_complete (by decide)]
    exact List.mem_cons_self
  have := h _ 3072 2 le_rfl _ _ _ _ hr ⟨⟨1, []⟩, hmem, by decide⟩
  exact absurd this (by decide)

end AtFrame.Framing
