/-
The protocol object `libatgw_proto_inner_v1`: its state, the callbacks of its owner, and its write queue (`try_write`,
`write_msg`, `write_done`).

The object lives inside a larger world `W` (a gateway with many objects, a pair of peers, or the object alone): `Host`
says where it lives, which callbacks are set and what they do to the world. A callback may call back into the object.
`try_write` and `write_done` call each other; `Host.stack` bounds the depth of these calls, and running out of it is the
fault `stackOverflow`.

`EN_PFT_IN_CALLBACK` is set and cleared but never read by the code and is left out.
-/
import AtFrame.Lib.Prog
import AtFrame.Inner.Framing
import AtFrame.Inner.Crypt

namespace AtFrame

open AtFrame.Lib

/-- what stops the program -/
inductive Fault where
  /-- calls nested deeper than the stack -/
  | stackOverflow
  /-- a failed `assert` -/
  | assertFail
  /-- a read through an absent table, string or vector field -/
  | absentField
  /-- a read through a null `crypt_global_configure_t::current()` -/
  | nullConf
  /-- a read through a null `session::owner_` -/
  | nullOwner
  /-- a call on an empty `unique_ptr<proto_base>` -/
  | nullProto
  /-- `erase` of a map iterator whose entry is gone -/
  | badIterator
deriving DecidableEq, Repr

/-! ## State -/

/-- `flags_` of `proto_base` -/
structure ProtoFlags where
  writing : Bool := false
  closing : Bool := false
  closed : Bool := false
  handshakeDone : Bool := false
  handshakeUpdate : Bool := false
deriving DecidableEq, Repr

/-- `handshake_t` -/
structure Handshake where
  switchSecretType : SwitchSecret := .EN_SST_DIRECT
  hasData : Bool := false
  extData : Option HandshakeBody := none
  dhCtx : List DhCall := []
deriving DecidableEq, Repr

structure Proto where
  flags : ProtoFlags
  writeHeaderOffset : ℕ
  sessionId : UInt64
  reader : Framing.Reader
  writeBuffers : BlockQueue UInt8
  lastWritePtr : Option ℕ
  closeReason : ℤ
  /-- the `crypt_session_t` objects made so far; `cryptRead`, `cryptWrite` and `cryptHandshake` may point to the same one -/
  crypts : ℕ → CryptSession
  cryptCount : ℕ
  cryptRead : Option ℕ
  cryptWrite : Option ℕ
  cryptHandshake : ℕ
  /-- `ping_`, in nanoseconds and milliseconds -/
  lastPing : ℤ
  lastDelta : ℤ
  handshake : Handshake
  /-- place on the object's random tape -/
  seed : ℕ

/-- a new object: the constructor, `set_write_header_offset` and the two buffer limits -/
def Proto.fresh (offset recvLimit recvNumber sendLimit sendNumber seed : ℕ) : Proto where
  flags := {}
  writeHeaderOffset := offset
  sessionId := 0
  reader := Framing.Reader.fresh recvLimit recvNumber
  writeBuffers := BlockQueue.empty sendLimit sendNumber
  lastWritePtr := none
  closeReason := 0
  crypts := fun _ => {}
  cryptCount := 1
  cryptRead := none
  cryptWrite := none
  cryptHandshake := 0
  lastPing := 0
  lastDelta := 0
  handshake := {}
  seed := seed

/-- `*crypt_handshake_` -/
def Proto.hs (p : Proto) : CryptSession := p.crypts p.cryptHandshake

def Proto.setHs (p : Proto) (c : CryptSession) : Proto :=
  { p with crypts := Function.update p.crypts p.cryptHandshake c }

/-- `crypt_handshake_ = std::make_shared<crypt_session_t>()` -/
def Proto.newHs (p : Proto) : Proto :=
  { p with crypts := Function.update p.crypts p.cryptCount {}, cryptHandshake := p.cryptCount,
           cryptCount := p.cryptCount + 1 }

/-- `crypt_read_ = crypt_handshake_` -/
def Proto.readHs (p : Proto) : Proto := { p with cryptRead := some p.cryptHandshake }

/-- `crypt_write_ = crypt_handshake_` -/
def Proto.writeHs (p : Proto) : Proto := { p with cryptWrite := some p.cryptHandshake }

def Proto.setHandshake (p : Proto) (h : Handshake) : Proto := { p with handshake := h }

def Proto.setFlags (p : Proto) (f : ProtoFlags) : Proto := { p with flags := f }

/-- one call on the DH object: its result code and output -/
def Proto.dhCall (ext : Ext) (p : Proto) (c : DhCall) : (ℤ × Bytes) × Proto :=
  (ext.dh (p.handshake.dhCtx ++ [c]),
    { p with handshake := { p.handshake with dhCtx := p.handshake.dhCtx ++ [c] }, seed := p.seed + 1 })

/-! ## The owner of the object -/

/-- where the object lives and what its owner's callbacks (`proto_callbacks_t`) do -/
structure Host (W : Type) where
  proto : W → Proto
  setProto : Proto → W → W
  proto_setProto : ∀ p w, proto (setProto p w) = p
  setProto_setProto : ∀ p q w, setProto p (setProto q w) = setProto p w
  setProto_proto : ∀ w, setProto (proto w) w = w
  /-- `crypt_global_configure_t::current()` -/
  current : W → Option CryptGlobal
  setCurrent : CryptGlobal → W → W
  proto_setCurrent : ∀ g w, proto (setCurrent g w) = proto w
  current_setProto : ∀ p w, current (setProto p w) = current w
  current_setCurrent : ∀ g w, current (setCurrent g w) = some g
  ext : Ext
  stack : ℕ
  /-- `system_clock::now()` in nanoseconds -/
  now : W → ℤ
  /-- buffer; status and `is_done` -/
  writeFn : Option (Bytes → Prog Fault W (ℤ × Bool))
  /-- buffer and length -/
  messageFn : Option (Bytes → ℕ → Prog Fault W ℤ)
  /-- the session id goes in and out by reference -/
  newSessionFn : Option (UInt64 → Prog Fault W (ℤ × UInt64))
  reconnectFn : Option (UInt64 → Prog Fault W ℤ)
  closeFn : Option (ℤ → Prog Fault W ℤ)
  onHandshakeDoneFn : Option (ℤ → Prog Fault W ℤ)
  onHandshakeUpdateFn : Option (ℤ → Prog Fault W ℤ)
  onErrorFn : Option (ℤ → String → Prog Fault W Unit)

attribute [simp] Host.proto_setProto Host.setProto_setProto Host.setProto_proto Host.proto_setCurrent Host.current_setProto
  Host.current_setCurrent

variable {W : Type}

namespace Host

def get (H : Host W) : Prog Fault W Proto := do return H.proto (← MonadState.get)

def modify (H : Host W) (f : Proto → Proto) : Prog Fault W PUnit :=
  modifyThe W fun w => H.setProto (f (H.proto w)) w

def getCurrent (H : Host W) : Prog Fault W (Option CryptGlobal) := do return H.current (← MonadState.get)

/-- `ATFRAME_GATEWAY_ON_ERROR` -/
def onError (H : Host W) (errcode : ℤ) (errmsg : String) : Prog Fault W Unit :=
  match H.onErrorFn with
  | none => pure ()
  | some f => f errcode errmsg

variable {H : Host W} {E : Fault → W → Prop} {w : W}

theorem wp_get {Q : Proto → W → Prop} : wp H.get Q E w ↔ Q (H.proto w) w := Iff.rfl

theorem wp_modify {Q : PUnit → W → Prop} (f : Proto → Proto) :
    wp (H.modify f) Q E w ↔ Q ⟨⟩ (H.setProto (f (H.proto w)) w) := Iff.rfl

theorem wp_getCurrent {Q : Option CryptGlobal → W → Prop} : wp H.getCurrent Q E w ↔ Q (H.current w) w := Iff.rfl

end Host

/-! ## The write queue -/

/-- `size_t` subtraction -/
def subSizeT (a b : ℕ) : ℕ := (a + 2 ^ 64 - b) % 2 ^ 64

/-- the merge loop of `try_write`: what is copied out of the popped blocks, and the blocks that stay; the queue is in
dynamic mode, so the check for the bounds of a static circle buffer does not apply -/
def mergeLoop (offset : ℕ) : ℕ → List (Block UInt8) → Bytes × List (Block UInt8)
  | _, [] => ([], [])
  | available, b :: bs =>
    if available = 0 ∨ available < b.size then ([], b :: bs)
    else
      let bbSize := subSizeT b.size offset
      let r := mergeLoop offset (subSizeT available bbSize) bs
      ((b.data.drop offset).take bbSize ++ r.1, r.2)

/-- the merge branch of `try_write`, `none` where one of its assertions fails; the headspace of the merged block is not
initialised, zeros stand for it -/
def tryMerge (offset : ℕ) (q : BlockQueue UInt8) : Option (BlockQueue UInt8) :=
  match q.front? with
  | none => some q
  | some b =>
    if 1 < q.costNumber ∧ b.size ≤ smallSize then
      let r := mergeLoop offset (subSizeT msgLimit offset) q.blocks
      if 0 < r.1.length ∧ r.1.length ≤ subSizeT msgLimit offset then
        BlockQueue.pushFront { q with blocks := r.2 } (offset + r.1.length) (List.replicate offset 0 ++ r.1)
      else none
    else some q

/-- the loop of `write_done` that pops up to the block last handed to `write_fn`; `none` where `assert(0 == nread)` fails -/
def popWritten (last : Option ℕ) : List (Block UInt8) → Option (List (Block UInt8))
  | [] => some []
  | b :: bs =>
    if b.used ≠ 0 then none
    else if b.size - b.used = 0 then some bs
    else if last = some b.addr then some bs
    else popWritten last bs

mutual

/-- `try_write` -/
def tryWrite (H : Host W) : ℕ → Prog Fault W ℤ
  | 0 => throw .stackOverflow
  | n + 1 =>
    match H.writeFn with
    | none => return EN_ECT_MISS_CALLBACKS
    | some writeFn => do
      let p ← H.get
      if p.flags.writing then return 0
      else if p.writeBuffers.blocks = [] then return 0
      -- closing or closed, cancel writing
      else if p.flags.closing then
        H.modify fun p => { p with writeBuffers := { p.writeBuffers with blocks := [] } }
        return EN_ECT_CLOSING
      else
        match tryMerge p.writeHeaderOffset p.writeBuffers with
        | none => throw .assertFail
        | some q =>
          H.modify fun p => { p with writeBuffers := q }
          match q.front? with
          | none => throw .assertFail
          | some b =>
            if b.size ≤ p.writeHeaderOffset then
              H.modify fun p => { p with writeBuffers := p.writeBuffers.popFront }
              tryWrite H n
            else
              H.modify fun p => { p with flags := { p.flags with writing := true }, lastWritePtr := some b.addr }
              let (ret, isDone) ← writeFn b.data
              if isDone then writeDone H n ret else return ret

/-- `write_done` -/
def writeDone (H : Host W) : ℕ → ℤ → Prog Fault W ℤ
  | 0, _ => throw .stackOverflow
  | n + 1, status => do
    let p ← H.get
    if ¬ p.flags.writing then return status
    else
      match popWritten p.lastWritePtr p.writeBuffers.blocks with
      | none => throw .assertFail
      | some bs =>
        H.modify fun p => { p with writeBuffers := { p.writeBuffers with blocks := bs }, lastWritePtr := none,
                                   flags := { p.flags with writing := false } }
        let status ← tryWrite H n
        let p ← H.get
        -- disconnecting and no more data to write
        if p.flags.closing ∧ ¬ p.flags.closed ∧ ¬ p.flags.writing then
          H.modify fun p => p.setFlags { p.flags with closed := true }
          match H.closeFn with
          | none => return status
          | some f => f p.closeReason
        else return status

end

/-- the frame `hash32 | length32 | payload` -/
def frameBytes (hash : Bytes → ℕ) (payload : Bytes) : Bytes :=
  toLe32 (hash payload) ++ toLe32 payload.length ++ payload

/-- `total_buffer_size` of `write_msg`, in `size_t` -/
def Proto.totalBufferSize (p : Proto) (len : ℕ) : ℕ := (p.writeHeaderOffset + msgHeaderLen + len) % 2 ^ 64

/-- what a refused `push_back` returns; of it the code only uses that it is negative -/
def pushBackError : ℤ := -1

/-- `write_msg` for a finished builder whose bytes are `buf` -/
def writeBytes (H : Host W) (buf : Bytes) : Prog Fault W ℤ :=
  if 0 < buf.length then
    if 2 ^ 32 - 1 ≤ buf.length then return EN_ECT_INVALID_SIZE
    else do
      let p ← H.get
      match p.writeBuffers.pushBack (p.totalBufferSize buf.length)
        (List.replicate p.writeHeaderOffset 0 ++ frameBytes H.ext.hash buf) with
      | none => return pushBackError
      | some q =>
        H.modify fun p => { p with writeBuffers := q }
        tryWrite H H.stack
  else tryWrite H H.stack

def writeMsg (H : Host W) (msg : CsMsg) : Prog Fault W ℤ := writeBytes H (H.ext.build msg)

end AtFrame
