/-
One protocol object alone: its owner only records the callbacks and answers them from a table.

This is the setting of the statements about the object itself. `SoloEnv` fixes everything the object cannot decide: the
libraries, the depth of the stack, and the answers of `write_fn` (for each call its status and `is_done`), `new_session_fn`
and `reconnect_fn`.
-/
import AtFrame.Inner.Dispatch

namespace AtFrame

open AtFrame.Lib

structure SoloEnv where
  ext : Ext
  stack : ℕ
  now : ℤ
  /-- the answer of each `write_fn` call: its status and `is_done` -/
  writeAnswer : ℕ → ℤ × Bool
  /-- the id that `new_session_fn` gives -/
  newId : UInt64
  reconnectAnswer : ℤ

structure Solo where
  proto : Proto
  current : Option CryptGlobal
  /-- the `write_fn` calls: the number of writes still to be completed at the call, and the buffer -/
  writes : List (ℕ × Bytes)
  /-- writes that were answered without `is_done` and not completed yet -/
  outstanding : ℕ
  /-- the `message_fn` calls: buffer and length -/
  messages : List (Bytes × ℕ)

/-- `write_fn`: record the call and answer it -/
def Solo.writeFn (e : SoloEnv) (buf : Bytes) : Prog Fault Solo (ℤ × Bool) := do
  let w ← get
  let answer := e.writeAnswer w.writes.length
  set { w with writes := w.writes ++ [(w.outstanding, buf)],
               outstanding := if answer.2 then w.outstanding else w.outstanding + 1 }
  return answer

def Solo.messageFn (out : Bytes) (len : ℕ) : Prog Fault Solo ℤ := do
  modify fun w => { w with messages := w.messages ++ [(out, len)] }
  return 0

@[reducible] def Solo.host (e : SoloEnv) : Host Solo where
  proto := Solo.proto
  setProto p w := { w with proto := p }
  proto_setProto _ _ := rfl
  setProto_setProto _ _ _ := rfl
  setProto_proto _ := rfl
  current := Solo.current
  setCurrent g w := { w with current := some g }
  proto_setCurrent _ _ := rfl
  current_setProto _ _ := rfl
  current_setCurrent _ _ := rfl
  ext := e.ext
  stack := e.stack
  now _ := e.now
  writeFn := some (Solo.writeFn e)
  messageFn := some Solo.messageFn
  newSessionFn := some fun _ => return (0, e.newId)
  reconnectFn := some fun _ => return e.reconnectAnswer
  closeFn := some fun _ => return 0
  onHandshakeDoneFn := some fun _ => return 0
  onHandshakeUpdateFn := some fun _ => return 0
  onErrorFn := none

/-- libraries that know no cipher, refuse every buffer and draw zeros; the fixed runs below start from them -/
def Ext.idle : Ext where
  hash _ := 0
  build _ := []
  verify _ := none
  cipherNames := []
  ciphertok _ := []
  cipherInit _ := none
  setKey _ _ := 0
  setIv _ _ := 0
  lastErrno _ := 0
  encrypt _ b := .ok b
  decrypt _ b := .ok b
  random _ n := .ok (List.replicate n 0)
  dh _ := (0, [])

/-- a fresh object and nothing recorded -/
def Solo.start (p : Proto) (current : Option CryptGlobal) : Solo := ⟨p, current, [], 0, []⟩

/-- a peer that sends one message over and over -/
def oneMessageEnv (msg : CsMsg) : SoloEnv where
  ext := { Ext.idle with verify := fun _ => some msg }
  stack := 4
  now := 0
  writeAnswer _ := (0, true)
  newId := 1
  reconnectAnswer := 0

/-- an object that was just made for an accepted connection -/
def Solo.accepted (current : Option CryptGlobal) : Solo := Solo.start (Proto.fresh 0 4096 2 4096 8 0) current

end AtFrame
