/-
A server and a client object of `libatgw_proto_inner_v1`, connected by two channels.

Each side hands its bytes to a channel; a write is done at once or later, and meanwhile the object queues and merges its
frames. The other side gets one frame after the other. The callbacks of both sides only record what they are told.

- `Side.Line`: the payloads of the frames that a side has sent and the other one has not got, in the channel or in the queue;
- `writeMsg_line`: a message is added to them, whatever is outstanding;
- `writeDone_line`: a write that is done lets the queue go on;
- `Side.Line.next`: the frame that the other side gets is the first of them.

Premises (environment):
- the channels are lossless and FIFO, and no write fails;
- the send buffers have no limit (`Side.fresh`), so that no frame is refused because many are waiting;
- a frame comes in whole: how `read` puts it together from pieces is in `Framing`, and its receive limits are left out;
- the owner of a side takes every buffer and every notice, gives each new session the id `newId`, and knows at most one old
  session, whose object it asks with `check_reconnect`.
-/
import AtFrame.Inner.Client
import AtFrame.Inner.SendQueue

namespace AtFrame

open AtFrame.Lib

/-! ## Two sides -/

inductive Role where
  | server
  | client
deriving DecidableEq, Repr

def Role.peer : Role → Role
  | .server => .client
  | .client => .server

theorem Role.peer_ne (r : Role) : r.peer ≠ r := by cases r <;> decide

@[simp] theorem Role.peer_peer (r : Role) : r.peer.peer = r := by cases r <;> rfl

structure PeersEnv where
  ext : Ext
  stack : ℕ
  now : ℤ
  /-- is the write of a side done at once -/
  atOnce : Role → ℕ → Bool
  /-- the id that `new_session_fn` gives -/
  newId : UInt64
  /-- the object of the session that may be resumed -/
  old : Option Proto

structure Side where
  proto : Proto
  /-- `crypt_global_configure_t::current()` of the side's process -/
  current : Option CryptGlobal
  /-- the number of `write_fn` calls -/
  writes : ℕ
  /-- writes that are not done yet -/
  outstanding : ℕ
  /-- the bytes that the other side has not got -/
  wire : Bytes
  /-- the buffers that `write` took -/
  posted : List Bytes
  /-- the `message_fn` calls: buffer and length -/
  received : List (Bytes × ℕ)
  /-- the `on_handshake_done_fn` and `on_handshake_update_fn` calls -/
  statuses : List ℤ

abbrev Peers := Role → Side

/-- `write_fn`: the headspace is for the transport -/
def Peers.writeFn (e : PeersEnv) (r : Role) (buf : Bytes) : Prog Fault Peers (ℤ × Bool) := do
  let w ← get
  let s := w r
  let atOnce := e.atOnce r s.writes
  set (Function.update w r { s with wire := s.wire ++ buf.drop s.proto.writeHeaderOffset, writes := s.writes + 1,
                                    outstanding := if atOnce then s.outstanding else s.outstanding + 1 })
  return (0, atOnce)

def Peers.messageFn (r : Role) (out : Bytes) (len : ℕ) : Prog Fault Peers ℤ := do
  modify fun w => Function.update w r { w r with received := (w r).received ++ [(out, len)] }
  return 0

def Peers.handshakeFn (r : Role) (status : ℤ) : Prog Fault Peers ℤ := do
  modify fun w => Function.update w r { w r with statuses := (w r).statuses ++ [status] }
  return 0

@[reducible] def Peers.hostWith (e : PeersEnv) (r : Role) (reconnectFn : Option (UInt64 → Prog Fault Peers ℤ)) : Host Peers where
  proto w := (w r).proto
  setProto p w := Function.update w r { w r with proto := p }
  proto_setProto p w := by rw [Function.update_self]
  setProto_setProto p q w := by rw [Function.update_self, Function.update_idem]
  setProto_proto w := Function.update_eq_self r w
  current w := (w r).current
  setCurrent g w := Function.update w r { w r with current := some g }
  proto_setCurrent g w := by rw [Function.update_self]
  current_setProto p w := by rw [Function.update_self]
  current_setCurrent g w := by rw [Function.update_self]
  ext := e.ext
  stack := e.stack
  now _ := e.now
  writeFn := some (Peers.writeFn e r)
  messageFn := some (Peers.messageFn r)
  newSessionFn := some fun _ => return (0, e.newId)
  reconnectFn := reconnectFn
  closeFn := some fun _ => return 0
  onHandshakeDoneFn := some (Peers.handshakeFn r)
  onHandshakeUpdateFn := some (Peers.handshakeFn r)
  onErrorFn := none

/-- `reconnect_fn` of an owner that knows the object of the old session -/
def Peers.reconnectFn (e : PeersEnv) (r : Role) (old : Proto) (id : UInt64) : Prog Fault Peers ℤ :=
  if id = old.sessionId then do
    let ok ← checkReconnect (Peers.hostWith e r none) old
    return if ok then 0 else EN_ECT_REFUSE_RECONNECT
  else return EN_ECT_SESSION_NOT_FOUND

@[reducible] def Peers.host (e : PeersEnv) (r : Role) : Host Peers := Peers.hostWith e r (e.old.map (Peers.reconnectFn e r))

/-- what happens to one of the two objects -/
inductive PeersEvent where
  /-- the next frame arrives -/
  | deliver (r : Role)
  /-- an outstanding write is done -/
  | written (r : Role)
  /-- `write` of a side whose handshake is done -/
  | post (r : Role) (buffer : Bytes)
  | ping (r : Role)
  /-- `handshake_update` of the server -/
  | update

/-- the first frame of the channel to a side arrives: `read` compares its hash and calls `dispatch_data` -/
def Peers.deliver (e : PeersEnv) (r : Role) : Prog Fault Peers Unit := do
  let w ← get
  let s := w r.peer
  if Framing.Complete s.wire then
    let f := Framing.firstFrame s.wire
    set (Function.update w r.peer { s with wire := Framing.afterFirst s.wire })
    dispatchData (Peers.host e r) f.payload (Framing.checkHash e.ext.hash f.hash f.payload EN_ECT_SUCCESS)
  else return ()

def Peers.post (e : PeersEnv) (r : Role) (buffer : Bytes) : Prog Fault Peers Unit := do
  let w ← get
  if 0 ∈ (w r).statuses then
    let ret ← write (Peers.host e r) buffer
    if ret = 0 then
      modify fun w => Function.update w r { w r with posted := (w r).posted ++ [buffer] }
    else return ()
  else return ()

def Peers.event (e : PeersEnv) : PeersEvent → Prog Fault Peers Unit
  | .deliver r => Peers.deliver e r
  | .written r => do
    let w ← get
    if 0 < (w r).outstanding then
      set (Function.update w r { w r with outstanding := (w r).outstanding - 1 })
      let _ ← writeDone (Peers.host e r) e.stack 0
      return ()
    else return ()
  | .post r buffer => Peers.post e r buffer
  | .ping r => do
    let _ ← sendPing (Peers.host e r)
    return ()
  | .update => do
    let _ ← sendKeySyn (Peers.host e .server)
    return ()

/-- the client starts a session, then anything may happen -/
def Peers.run (e : PeersEnv) (cryptTypes : Bytes) (events : List PeersEvent) : Prog Fault Peers Unit := do
  let _ ← startSession (Peers.host e .client) cryptTypes
  events.forM (Peers.event e)

/-- the client resumes a session, then anything may happen -/
def Peers.resume (e : PeersEnv) (id : UInt64) (cryptType secret : Bytes) (events : List PeersEvent) : Prog Fault Peers Unit := do
  let _ ← reconnectSession (Peers.host e .client) id cryptType secret
  events.forM (Peers.event e)

/-- a new object whose send buffer has no limit -/
def Side.fresh (offset recvLimit recvNumber seed : ℕ) (current : Option CryptGlobal) : Side where
  proto := Proto.fresh offset recvLimit recvNumber 0 0 seed
  current := current
  writes := 0
  outstanding := 0
  wire := []
  posted := []
  received := []
  statuses := []

/-! ## What a handshake is about -/

/-- the object without its buffers, its clock and its place on the random tape -/
structure Voice where
  closing : Bool
  handshakeDone : Bool
  handshakeUpdate : Bool
  sessionId : UInt64
  crypts : ℕ → CryptSession
  cryptCount : ℕ
  cryptRead : Option ℕ
  cryptWrite : Option ℕ
  cryptHandshake : ℕ
  handshake : Handshake

def Proto.voice (p : Proto) : Voice where
  closing := p.flags.closing
  handshakeDone := p.flags.handshakeDone
  handshakeUpdate := p.flags.handshakeUpdate
  sessionId := p.sessionId
  crypts := p.crypts
  cryptCount := p.cryptCount
  cryptRead := p.cryptRead
  cryptWrite := p.cryptWrite
  cryptHandshake := p.cryptHandshake
  handshake := p.handshake

/-- nothing but the write queue and the channel changed -/
structure Side.Quiet (s s' : Side) : Prop where
  voice : s'.proto.voice = s.proto.voice
  current : s'.current = s.current
  posted : s'.posted = s.posted
  received : s'.received = s.received
  statuses : s'.statuses = s.statuses

theorem Side.Quiet.refl (s : Side) : s.Quiet s := ⟨rfl, rfl, rfl, rfl, rfl⟩

theorem Side.Quiet.trans {s s' s'' : Side} (h : s.Quiet s') (h' : s'.Quiet s'') : s.Quiet s'' :=
  ⟨h'.1.trans h.1, h'.2.trans h.2, h'.3.trans h.3, h'.4.trans h.4, h'.5.trans h.5⟩

/-! ## The frames under way -/

/-- the queue of a side that is open: `queued` are the groups of frames that wait for `write_fn` -/
structure Side.Queue (s : Side) (queued : List (List Bytes)) : Prop where
  offset : s.proto.writeHeaderOffset ≤ 2 ^ 20
  closing : s.proto.flags.closing = false
  unlimited : s.proto.writeBuffers.limitSize = 0 ∧ s.proto.writeBuffers.limitNumber = 0
  addrOk : s.proto.writeBuffers.AddrOk
  holding : List.Forall₂ (SendQueue.Holding s.proto.writeHeaderOffset) (SendQueue.waiting s.proto) queued
  front : s.proto.flags.writing = true →
    ∃ b ∈ s.proto.writeBuffers.front?, s.proto.lastWritePtr = some b.addr ∧ b.used = 0

/-- the bytes in the channel and the groups in the queue are the frames of `payloads` -/
def Side.Holds (hash : Bytes → ℕ) (s : Side) (queued : List (List Bytes)) (payloads : List Bytes) : Prop :=
  s.wire ++ queued.flatten.flatten = (payloads.map (frameBytes hash)).flatten

/-- between two calls: what the other side has not got, and nothing waits for a write that is not there -/
structure Side.Line (hash : Bytes → ℕ) (s : Side) (payloads : List Bytes) : Prop where
  sizes : ∀ p ∈ payloads, 0 < p.length ∧ p.length < 2 ^ 32 - 1
  queued : ∃ queued, s.Queue queued ∧ s.Holds hash queued payloads ∧
    (s.proto.flags.writing = true ∧ s.outstanding = 1 ∨ s.proto.flags.writing = false ∧ s.outstanding = 0 ∧ queued = [])

/-- the program stops where its calls are nested too deep -/
def Deep (f : Fault) (_ : Peers) : Prop := f = .stackOverflow

/-- what a write of the side `r` leaves: nothing else changed, and `payloads` are under way -/
structure Peers.Leaves (hash : Bytes → ℕ) (r : Role) (payloads : List Bytes) (w w' : Peers) : Prop where
  peer : w' r.peer = w r.peer
  quiet : (w r).Quiet (w' r)
  line : (w' r).Line hash payloads

variable {e : PeersEnv} {r : Role} {w w' : Peers} {payloads : List Bytes} {queued : List (List Bytes)} {hash : Bytes → ℕ}

theorem Peers.Leaves.update {s : Side} (hquiet : (w r).Quiet s) (hline : s.Line hash payloads) :
    w.Leaves hash r payloads (Function.update w r s) := by
  refine ⟨Function.update_of_ne r.peer_ne _ _, ?_, ?_⟩
  · rwa [Function.update_self]
  · rwa [Function.update_self]

theorem Peers.Leaves.after {s : Side} (hquiet : (w r).Quiet s) (h : Peers.Leaves hash r payloads (Function.update w r s) w') :
    w.Leaves hash r payloads w' := by
  obtain ⟨hpeer, hleft, hline⟩ := h
  rw [Function.update_of_ne r.peer_ne] at hpeer
  rw [Function.update_self] at hleft
  exact ⟨hpeer, hquiet.trans hleft, hline⟩

section writing

variable (e r payloads)

/-- `try_write` on an object that is not writing -/
def TryWriteOk (n : ℕ) : Prop :=
  ∀ w queued, (w r).Queue queued → (w r).proto.flags.writing = false → (w r).outstanding = 0 → (w r).Holds e.ext.hash queued payloads →
    wp (tryWrite (Peers.host e r) n) (fun ret w' => ret = 0 ∧ w.Leaves e.ext.hash r payloads w') Deep w

/-- `write_done` for a write that was just completed -/
def WriteDoneOk (n : ℕ) : Prop :=
  ∀ w queued, (w r).Queue queued → (w r).proto.flags.writing = true → (w r).outstanding = 0 → (w r).Holds e.ext.hash queued payloads →
    wp (writeDone (Peers.host e r) n 0) (fun ret w' => ret = 0 ∧ w.Leaves e.ext.hash r payloads w') Deep w

end writing

theorem Side.Queue.within {s : Side} (h : s.Queue queued) : s.proto.writeBuffers.Within := ⟨.inl h.unlimited.2, .inl h.unlimited.1⟩

/-- the side when `write_fn` was handed the front block of the queue `q` -/
def Side.handOver (s : Side) (q : BlockQueue UInt8) (b : Block UInt8) (outstanding : ℕ) : Side :=
  { s with
    proto := { s.proto with writeBuffers := q, lastWritePtr := some b.addr, flags := { s.proto.flags with writing := true } },
    wire := s.wire ++ b.data.drop s.proto.writeHeaderOffset, writes := s.writes + 1, outstanding := outstanding }

theorem Side.quiet_handOver (s : Side) (q : BlockQueue UInt8) (b : Block UInt8) (m : ℕ) : s.Quiet (s.handOver q b m) :=
  ⟨rfl, rfl, rfl, rfl, rfl⟩

theorem Side.Queue.handOver {s : Side} {gs : List (List Bytes)} {b : Block UInt8} {bs : List (Block UInt8)} {q : BlockQueue UInt8}
    {g : List Bytes} (h : s.Queue queued) (hq : q.blocks = b :: bs) (hlimit : q.limitSize = 0 ∧ q.limitNumber = 0) (haddr : q.AddrOk)
    (hb : SendQueue.Holding s.proto.writeHeaderOffset b g) (hbs : List.Forall₂ (SendQueue.Holding s.proto.writeHeaderOffset) bs gs)
    (m : ℕ) : (s.handOver q b m).Queue gs where
  offset := h.offset
  closing := h.closing
  unlimited := hlimit
  addrOk := haddr
  holding := by
    simp only [SendQueue.waiting, Side.handOver, if_true, hq, List.tail_cons]
    exact hbs
  front _ := ⟨b, by simp [Side.handOver, BlockQueue.front?, hq], rfl, hb.used⟩

/-- the side when `write_done` popped the front block and left `bs` -/
def Side.release (s : Side) (bs : List (Block UInt8)) : Side :=
  { s with proto := { s.proto with writeBuffers := { s.proto.writeBuffers with blocks := bs }, lastWritePtr := none,
                                   flags := { s.proto.flags with writing := false } } }

theorem Side.Queue.release {s : Side} {b : Block UInt8} {bs : List (Block UInt8)} (h : s.Queue queued)
    (hw : s.proto.flags.writing = true) (hb : s.proto.writeBuffers.blocks = b :: bs) : (s.release bs).Queue queued where
  offset := h.offset
  closing := h.closing
  unlimited := h.unlimited
  addrOk := BlockQueue.addrOk_of_suffix h.addrOk (by rw [hb]; exact List.suffix_cons b bs)
  holding := by
    have hold := h.holding
    rw [SendQueue.waiting, if_pos hw, hb] at hold
    exact hold
  front hwr := absurd hwr Bool.false_ne_true

theorem tryMerge_limits {off : ℕ} {q q' : BlockQueue UInt8} (h : tryMerge off q = some q') :
    q'.limitSize = q.limitSize ∧ q'.limitNumber = q.limitNumber := by
  unfold tryMerge at h
  split at h
  · obtain rfl := Option.some.inj h
    exact ⟨rfl, rfl⟩
  · dsimp only at h
    split_ifs at h
    · obtain ⟨-, rfl⟩ := BlockQueue.pushFront_some h
      exact ⟨rfl, rfl⟩
    · obtain rfl := Option.some.inj h
      exact ⟨rfl, rfl⟩

theorem tryWrite_step {n : ℕ} (hsizes : ∀ p ∈ payloads, 0 < p.length ∧ p.length < 2 ^ 32 - 1) (ih : WriteDoneOk e r payloads n) :
    TryWriteOk e r payloads (n + 1) := by
  intro w queued h hw hout hf
  have hwait : SendQueue.waiting (w r).proto = (w r).proto.writeBuffers.blocks := by simp [SendQueue.waiting, hw]
  rw [tryWrite]
  simp only [wp_bind, Host.wp_get, hw, wp_ite, wp_pure, h.closing]
  refine ⟨fun h => absurd h Bool.false_ne_true, fun _ => ⟨fun hnil => ?_, fun hne => ⟨fun h => absurd h Bool.false_ne_true, fun _ => ?_⟩⟩⟩
  · have hold := h.holding
    rw [hwait, hnil] at hold
    exact ⟨trivial, rfl, .refl _, hsizes, queued, h, hf, .inr ⟨hw, hout, List.forall₂_nil_left_iff.1 hold⟩⟩
  · obtain ⟨q, gs, hq, hold, hgs, hqne, -, -, haddr⟩ := SendQueue.tryMerge_holding (hwait ▸ h.holding) hne h.within h.addrOk
    obtain ⟨b, bs, hqb⟩ := List.exists_cons_of_ne_nil hqne
    have hfront : q.front? = some b := by rw [BlockQueue.front?, hqb]; rfl
    have hlimits := tryMerge_limits hq
    rw [hqb] at hold
    cases hold with
    | @cons _ g _ gs hb hbs =>
      have hroom : ¬ b.size ≤ (w r).proto.writeHeaderOffset := Nat.not_le.2 (Nat.lt_of_add_right_lt hb.room)
      have hqueue := fun m => h.handOver hqb ⟨hlimits.1.trans h.unlimited.1, hlimits.2.trans h.unlimited.2⟩ haddr hb hbs m
      have hheld : ∀ m, ((w r).handOver q b m).Holds e.ext.hash gs payloads := fun m => by
        rw [Side.Holds, ← hf, ← hgs]
        simp [Side.handOver, hb.frames]
      rw [hq]
      simp only [wp_bind, Host.wp_modify, hfront, wp_ite, Peers.writeFn, wp_get, wp_set, wp_pure, Function.update_self,
        Function.update_idem]
      refine ⟨fun hsize => absurd hsize hroom, fun _ => ⟨fun hdone => ?_, fun hdone => ?_⟩⟩
      · rw [if_pos hdone]
        have hat : ∀ s : Side, Function.update w r s r = s := fun s => Function.update_self r s w
        have hih := ih (Function.update w r ((w r).handOver q b (w r).outstanding)) gs
        rw [hat] at hih
        refine wp_post (hih (hqueue _) rfl hout (hheld _)) ?_
        rintro ret w' ⟨hret, hleft⟩
        exact ⟨hret, hleft.after ((w r).quiet_handOver q b _)⟩
      · rw [if_neg hdone]
        have hout' : (w r).outstanding + 1 = 1 := by rw [hout]
        exact ⟨trivial, .update ((w r).quiet_handOver q b _) ⟨hsizes, gs, hqueue ((w r).outstanding + 1), hheld _, .inl ⟨rfl, hout'⟩⟩⟩

theorem writeDone_step {n : ℕ} (ih : TryWriteOk e r payloads n) : WriteDoneOk e r payloads (n + 1) := by
  intro w queued h hw hout hf
  obtain ⟨b, hfront, hlast, hused⟩ := h.front hw
  obtain ⟨bs, hbs⟩ := List.head?_eq_some_iff.1 (Option.mem_def.1 hfront)
  have hpop : popWritten (w r).proto.lastWritePtr (w r).proto.writeBuffers.blocks = some bs := by
    rw [hlast, hbs, SendQueue.popWritten_front hused]
  rw [writeDone]
  simp only [wp_bind, Host.wp_get, hw, wp_ite, wp_pure, hpop, Host.wp_modify]
  refine ⟨fun h => absurd trivial h, fun _ => ?_⟩
  have hih := ih (Function.update w r ((w r).release bs)) queued
  rw [Function.update_self] at hih
  refine wp_post (hih (h.release hw hbs) rfl hout hf) ?_
  rintro ret w' ⟨hret, hleft⟩
  have hquiet : (w r).Quiet ((w r).release bs) := ⟨rfl, rfl, rfl, rfl, rfl⟩
  have hleft' : w.Leaves e.ext.hash r payloads w' := hleft.after hquiet
  obtain ⟨queued', hqueue, -⟩ := hleft'.line.queued
  simp only [hqueue.closing]
  exact ⟨fun hc => absurd hc.1 Bool.false_ne_true, fun _ => ⟨hret, hleft'⟩⟩

/-- **The write queue** loses no frame, whichever writes are done at once. -/
theorem tryWrite_writeDone (hsizes : ∀ p ∈ payloads, 0 < p.length ∧ p.length < 2 ^ 32 - 1) (n : ℕ) :
    TryWriteOk e r payloads n ∧ WriteDoneOk e r payloads n := by
  induction n with
  | zero => exact ⟨fun w _ _ _ _ _ => by rw [tryWrite]; exact rfl, fun w _ _ _ _ _ => by rw [writeDone]; exact rfl⟩
  | succ n ih => exact ⟨tryWrite_step hsizes ih.2, writeDone_step ih.1⟩

/-! ## Sending -/

theorem Side.Queue.push {s : Side} {q : BlockQueue UInt8} {buf : Bytes} (h : s.Queue queued) (h1 : 0 < buf.length)
    (h2 : buf.length < 2 ^ 32 - 1) (hq : s.proto.writeBuffers.pushBack (s.proto.totalBufferSize buf.length)
      (List.replicate s.proto.writeHeaderOffset 0 ++ frameBytes hash buf) = some q) :
    ({ s with proto := { s.proto with writeBuffers := q } } : Side).Queue (queued ++ [[frameBytes hash buf]]) := by
  obtain ⟨-, heq⟩ := BlockQueue.pushBack_some hq
  have hold := SendQueue.holding_frame hash s.proto.writeBuffers.next h.offset h1 h2
  refine ⟨h.offset, h.closing, heq ▸ h.unlimited, BlockQueue.addrOk_pushBack h.addrOk hq, ?_, fun hwr => ?_⟩
  · have hprev := h.holding
    simp only [SendQueue.waiting, heq] at hprev ⊢
    split_ifs at hprev ⊢ with hwr
    · obtain ⟨b, hb, -⟩ := h.front hwr
      have hne : s.proto.writeBuffers.blocks ≠ [] := by
        rintro hnil
        simp [BlockQueue.front?, hnil] at hb
      rw [List.tail_append_of_ne_nil hne]
      exact List.rel_append hprev (.cons hold .nil)
    · exact List.rel_append hprev (.cons hold .nil)
  · obtain ⟨b, hb, hlast⟩ := h.front hwr
    refine ⟨b, ?_, hlast⟩
    simp only [heq, BlockQueue.front?, List.head?_append] at hb ⊢
    rw [Option.mem_def] at hb ⊢
    rw [hb, Option.some_or]

/-- `try_write` between two calls -/
theorem tryWrite_line {n : ℕ} (queued : List (List Bytes)) (hsizes : ∀ p ∈ payloads, 0 < p.length ∧ p.length < 2 ^ 32 - 1)
    (h : (w r).Queue queued)
    (hf : (w r).Holds e.ext.hash queued payloads)
    (hs : (w r).proto.flags.writing = true ∧ (w r).outstanding = 1 ∨ (w r).proto.flags.writing = false ∧ (w r).outstanding = 0) :
    wp (tryWrite (Peers.host e r) n) (fun ret w' => ret = 0 ∧ w.Leaves e.ext.hash r payloads w') Deep w := by
  rcases hs with ⟨hw, hout⟩ | ⟨hw, hout⟩
  · cases n with
    | zero =>
      rw [tryWrite]
      exact rfl
    | succ n =>
      rw [tryWrite]
      simp only [wp_bind, Host.wp_get, hw, wp_ite, wp_pure]
      exact ⟨fun _ => ⟨trivial, rfl, .refl _, hsizes, queued, h, hf, .inl ⟨hw, hout⟩⟩, fun hc => absurd trivial hc⟩
  · exact (tryWrite_writeDone hsizes n).1 w queued h hw hout hf

/-- **A message is sent**, or its builder is too long. -/
theorem writeMsg_line (h : (w r).Line e.ext.hash payloads) {m : CsMsg} (hpos : 0 < (e.ext.build m).length) :
    wp (writeMsg (Peers.host e r) m)
      (fun ret w' => (e.ext.build m).length < 2 ^ 32 - 1 ∧ ret = 0 ∧ w.Leaves e.ext.hash r (payloads ++ [e.ext.build m]) w' ∨
        2 ^ 32 - 1 ≤ (e.ext.build m).length ∧ ret ≠ 0 ∧ w' = w) Deep w := by
  obtain ⟨hsizes, queued, hqueue, hf, hs⟩ := h
  unfold writeMsg writeBytes
  simp only [wp_ite, wp_pure, wp_bind, Host.wp_get]
  refine ⟨fun _ => ⟨fun hlong => .inr ⟨hlong, by decide, trivial⟩, fun hshort => ?_⟩, fun hzero => absurd hpos hzero⟩
  have hshort : (e.ext.build m).length < 2 ^ 32 - 1 := Nat.not_le.1 hshort
  have hfits : (w r).proto.writeBuffers.Fits ((w r).proto.totalBufferSize (e.ext.build m).length) :=
    ⟨.inl hqueue.unlimited.2, .inl hqueue.unlimited.1⟩
  obtain ⟨q, hq⟩ := Option.isSome_iff_exists.1 ((BlockQueue.pushBack_isSome _ _
    (List.replicate (w r).proto.writeHeaderOffset 0 ++ frameBytes e.ext.hash (e.ext.build m))).2 hfits)
  rw [hq]
  simp only [wp_bind, Host.wp_modify]
  have hpush := hqueue.push hpos hshort hq
  have hsizes' : ∀ p ∈ payloads ++ [e.ext.build m], 0 < p.length ∧ p.length < 2 ^ 32 - 1 := by
    intro p hp
    rcases List.mem_append.1 hp with hp | hp
    · exact hsizes p hp
    · rw [List.mem_singleton.1 hp]
      exact ⟨hpos, hshort⟩
  set s : Side := { w r with proto := { (w r).proto with writeBuffers := q } }
  have hquiet : (w r).Quiet s := ⟨rfl, rfl, rfl, rfl, rfl⟩
  have hline := tryWrite_line (e := e) (r := r) (n := e.stack) (w := Function.update w r s)
    (queued ++ [[frameBytes e.ext.hash (e.ext.build m)]]) hsizes'
  rw [Function.update_self] at hline
  refine wp_post (hline hpush ?_ (hs.imp_right fun h => ⟨h.1, h.2.1⟩)) ?_
  · rw [Side.Holds] at hf ⊢
    simp only [List.flatten_append, List.flatten_cons, List.flatten_nil, List.append_nil, List.map_append, List.map_cons,
      List.map_nil, ← List.append_assoc]
    exact congrArg (· ++ frameBytes e.ext.hash (e.ext.build m)) hf
  · rintro ret w' ⟨hret, hleft⟩
    exact .inl ⟨hshort, hret, hleft.after hquiet⟩

/-- an outstanding write is done -/
theorem writeDone_line (h : (w r).Line e.ext.hash payloads) (hout : 0 < (w r).outstanding) :
    wp (writeDone (Peers.host e r) e.stack 0) (fun _ w' => w.Leaves e.ext.hash r payloads w') Deep
      (Function.update w r { w r with outstanding := (w r).outstanding - 1 }) := by
  obtain ⟨hsizes, queued, hqueue, hf, ⟨hw, hone⟩ | ⟨-, hzero, -⟩⟩ := h
  · set s : Side := { w r with outstanding := (w r).outstanding - 1 }
    have hquiet : (w r).Quiet s := ⟨rfl, rfl, rfl, rfl, rfl⟩
    have hdone := (tryWrite_writeDone (e := e) (r := r) hsizes e.stack).2 (Function.update w r s) queued
    rw [Function.update_self] at hdone
    have hzero : s.outstanding = 0 := Nat.sub_eq_zero_of_le hone.le
    exact wp_post (hdone { hqueue with } hw hzero hf) fun _ w' h => h.2.after hquiet
  · omega

/-! ## Getting -/

theorem frameBytes_length (hash : Bytes → ℕ) (p : Bytes) : (frameBytes hash p).length = msgHeaderLen + p.length := by
  simp only [frameBytes, List.length_append, toLe32_length, msgHeaderLen]

/-- the frame at the start of a stream of frames -/
theorem firstFrame_frameBytes (hhash : ∀ b, hash b < 2 ^ 32) {p : Bytes} (hlong : p.length < 2 ^ 32) (rest : Bytes) :
    Framing.firstFrame (frameBytes hash p ++ rest) = ⟨hash p, p⟩ ∧ Framing.afterFirst (frameBytes hash p ++ rest) = rest := by
  have hlen : le32 ((frameBytes hash p ++ rest).drop 4) = p.length := by
    have hdrop : (frameBytes hash p ++ rest).drop 4 = toLe32 p.length ++ (p ++ rest) := by
      simp [frameBytes, toLe32]
    rw [hdrop, le32_toLe32 _ hlong]
  have hsplit : (frameBytes hash p ++ rest).drop msgHeaderLen = p ++ rest := by
    simp [frameBytes, toLe32, msgHeaderLen]
  refine ⟨?_, ?_⟩
  · rw [Framing.firstFrame, hlen, hsplit, List.take_left, frameBytes, List.append_assoc, List.append_assoc, le32_toLe32 _ (hhash p)]
  · rw [Framing.afterFirst, hlen, List.drop_left' (frameBytes_length hash p)]

/-- **The next frame** that arrives is the first one that was sent. -/
theorem Side.Line.next {s : Side} (h : s.Line hash payloads) (hhash : ∀ b, hash b < 2 ^ 32) (hc : Framing.Complete s.wire) :
    ∃ p rest, payloads = p :: rest ∧ Framing.firstFrame s.wire = ⟨hash p, p⟩ ∧
      ({ s with wire := Framing.afterFirst s.wire } : Side).Line hash rest := by
  obtain ⟨hsizes, queued, hqueue, hf, hs⟩ := h
  have hwhole := Framing.complete_append hc queued.flatten.flatten
  rw [Side.Holds] at hf
  cases payloads with
  | nil =>
    have hnil : s.wire = [] := (List.append_eq_nil_iff.1 hf).1
    rw [hnil] at hc
    exact absurd hc (by decide)
  | cons p rest =>
    rw [List.map_cons, List.flatten_cons] at hf
    have hlong : p.length < 2 ^ 32 := (hsizes p List.mem_cons_self).2.trans (by norm_num)
    obtain ⟨hfirst, hafter⟩ := firstFrame_frameBytes hhash hlong ((rest.map (frameBytes hash)).flatten)
    rw [← hf] at hfirst hafter
    rw [Framing.firstFrame_append hc] at hfirst
    rw [Framing.afterFirst_append hc] at hafter
    exact ⟨p, rest, rfl, hfirst, fun p hp => hsizes p (List.mem_cons_of_mem _ hp), queued, { hqueue with }, hafter, hs⟩

/-- a channel that holds no frame while nothing is outstanding has delivered all -/
theorem Side.Line.empty {s : Side} (h : s.Line hash payloads) (hout : s.outstanding = 0) (hc : ¬ Framing.Complete s.wire) :
    payloads = [] := by
  obtain ⟨hsizes, queued, -, hf, ⟨-, hone⟩ | ⟨-, -, rfl⟩⟩ := h
  · omega
  · cases payloads with
    | nil => rfl
    | cons p rest =>
      obtain ⟨hpos, hlong⟩ := hsizes p List.mem_cons_self
      refine absurd ?_ hc
      rw [Side.Holds, List.flatten_nil, List.flatten_nil, List.append_nil, List.map_cons, List.flatten_cons] at hf
      have hlen : le32 (s.wire.drop 4) = p.length := by
        have hdrop : s.wire.drop 4 = toLe32 p.length ++ (p ++ (rest.map (frameBytes hash)).flatten) := by
          rw [hf]
          simp [frameBytes, toLe32]
        rw [hdrop, le32_toLe32 _ (hlong.trans (by norm_num))]
      have hwire : msgHeaderLen + p.length ≤ s.wire.length := by
        rw [hf, List.length_append, frameBytes_length]
        omega
      exact ⟨by omega, by rw [hlen]; exact hwire⟩

end AtFrame
