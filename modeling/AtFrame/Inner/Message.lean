/-
The messages of the inner protocol (`libatgw_proto_inner.fbs`) as the generated accessors show them. The verifier accepts a
table, string or vector field that is absent, so each of them is an `Option`: reading through `none` is the null
dereference that `Fault.absentField` stands for.
-/
import AtFrame.Inner.Base

namespace AtFrame

/-- `switch_secret_t`, also where the source keeps it in an `int` -/
inductive SwitchSecret where
  | EN_SST_DIRECT
  | EN_SST_DH
  | EN_SST_ECDH
  | other (n : ℕ)
deriving DecidableEq, Repr

/-- `handshake_step_t` -/
inductive HandshakeStep where
  | EN_HST_START_REQ
  | EN_HST_START_RSP
  | EN_HST_RECONNECT_REQ
  | EN_HST_RECONNECT_RSP
  | EN_HST_DH_PUBKEY_REQ
  | EN_HST_DH_PUBKEY_RSP
  | EN_HST_ECDH_PUBKEY_REQ
  | EN_HST_ECDH_PUBKEY_RSP
  | EN_HST_VERIFY
  | other (n : ℕ)
deriving DecidableEq, Repr

/-- `cs_msg_type_t` -/
inductive MsgType where
  | EN_MTT_UNKNOWN
  | EN_MTT_POST
  | EN_MTT_HANDSHAKE
  | EN_MTT_PING
  | EN_MTT_PONG
  | EN_MTT_KICKOFF
  | EN_MTT_POST_KEY_SYN
  | EN_MTT_POST_KEY_ACK
  | other (n : ℕ)
deriving DecidableEq, Repr

structure PostBody where
  length : ℕ
  data : Option Bytes
deriving DecidableEq, Repr

/-- `cs_body_handshake` without `switch_param`, which nothing reads -/
structure HandshakeBody where
  sessionId : UInt64
  step : HandshakeStep
  switchType : SwitchSecret
  cryptType : Option Bytes
  cryptParam : Option Bytes
deriving DecidableEq, Repr

/-- the union `cs_msg_body`: its tag, and the table it points to when there is one -/
inductive CsBody where
  | none
  | post (b : Option PostBody)
  | kickoff (reason : Option ℤ)
  | ping (timepoint : Option ℤ)
  | handshake (b : Option HandshakeBody)
deriving DecidableEq, Repr

/-- `cs_msg`: the type of its head when there is one, and its body -/
structure CsMsg where
  head : Option MsgType
  body : CsBody
deriving DecidableEq, Repr

/-- a message that carries a handshake step, whatever its type -/
def handshakeMsg (type : MsgType) (b : HandshakeBody) : CsMsg := ⟨some type, .handshake (some b)⟩

def postMsg (n : ℕ) (data : Bytes) : CsMsg := ⟨some .EN_MTT_POST, .post (some ⟨n, some data⟩)⟩

def pingMsg (type : MsgType) (timepoint : ℤ) : CsMsg := ⟨some type, .ping (some timepoint)⟩

end AtFrame
