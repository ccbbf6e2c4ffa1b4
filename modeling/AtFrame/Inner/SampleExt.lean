/-
Libraries that two sides can rely on, small enough to run: messages by a codec, a cipher that adds the sums of its key and of its
vector to every byte, and a DH exchange whose secret is the two random bytes.

As the real ones they refuse what does not fit: keys and vectors of another size, texts that are longer than the thread-local
buffer, closed DH contexts, and parameters of another kind of context.

- `SampleExt.serves`: they do what `Ext.Serves` asks for, whichever way the key is switched;
- `SampleExt.agrees`: a server and a client with contexts of one kind compute the same secret.
-/
import AtFrame.Inner.Phases
import AtFrame.Lib.Codec

namespace AtFrame

open AtFrame.Lib

namespace SampleExt

/-! ## Messages -/

/-- the lowest 64 bits, and what is above them -/
def intWords (z : ℤ) : UInt64 × ℕ × ℕ := (UInt64.ofNat (z % 2 ^ 64).toNat, (z / 2 ^ 64).toNat, (-(z / 2 ^ 64)).toNat)

def wordsInt (p : UInt64 × ℕ × ℕ) : ℤ := p.1.toNat + 2 ^ 64 * ((p.2.1 : ℤ) - p.2.2)

theorem wordsInt_intWords (z : ℤ) : wordsInt (intWords z) = z := by
  have hlow : (z % 2 ^ 64).toNat % 2 ^ 64 = (z % 2 ^ 64).toNat := Nat.mod_eq_of_lt (by omega)
  have hhigh : ((z / 2 ^ 64).toNat : ℤ) - ((-(z / 2 ^ 64)).toNat : ℤ) = z / 2 ^ 64 := Int.toNat_sub_toNat_neg _
  rw [wordsInt, intWords, UInt64.toNat_ofNat', hlow, hhigh]
  omega

def integer : Codec ℤ := (Codec.word.prod (Codec.nat.prod Codec.nat)).via intWords wordsInt wordsInt_intWords

def switchNat : SwitchSecret → ℕ
  | .EN_SST_DIRECT => 0
  | .EN_SST_DH => 1
  | .EN_SST_ECDH => 2
  | .other n => n + 3

def natSwitch : ℕ → SwitchSecret
  | 0 => .EN_SST_DIRECT
  | 1 => .EN_SST_DH
  | 2 => .EN_SST_ECDH
  | n + 3 => .other n

def switch : Codec SwitchSecret := Codec.nat.via switchNat natSwitch fun s => by cases s <;> rfl

def stepNat : HandshakeStep → ℕ
  | .EN_HST_START_REQ => 0
  | .EN_HST_START_RSP => 1
  | .EN_HST_RECONNECT_REQ => 2
  | .EN_HST_RECONNECT_RSP => 3
  | .EN_HST_DH_PUBKEY_REQ => 4
  | .EN_HST_DH_PUBKEY_RSP => 5
  | .EN_HST_ECDH_PUBKEY_REQ => 6
  | .EN_HST_ECDH_PUBKEY_RSP => 7
  | .EN_HST_VERIFY => 8
  | .other n => n + 9

def natStep : ℕ → HandshakeStep
  | 0 => .EN_HST_START_REQ
  | 1 => .EN_HST_START_RSP
  | 2 => .EN_HST_RECONNECT_REQ
  | 3 => .EN_HST_RECONNECT_RSP
  | 4 => .EN_HST_DH_PUBKEY_REQ
  | 5 => .EN_HST_DH_PUBKEY_RSP
  | 6 => .EN_HST_ECDH_PUBKEY_REQ
  | 7 => .EN_HST_ECDH_PUBKEY_RSP
  | 8 => .EN_HST_VERIFY
  | n + 9 => .other n

def step : Codec HandshakeStep := Codec.nat.via stepNat natStep fun s => by cases s <;> rfl

def typeNat : MsgType → ℕ
  | .EN_MTT_UNKNOWN => 0
  | .EN_MTT_POST => 1
  | .EN_MTT_HANDSHAKE => 2
  | .EN_MTT_PING => 3
  | .EN_MTT_PONG => 4
  | .EN_MTT_KICKOFF => 5
  | .EN_MTT_POST_KEY_SYN => 6
  | .EN_MTT_POST_KEY_ACK => 7
  | .other n => n + 8

def natType : ℕ → MsgType
  | 0 => .EN_MTT_UNKNOWN
  | 1 => .EN_MTT_POST
  | 2 => .EN_MTT_HANDSHAKE
  | 3 => .EN_MTT_PING
  | 4 => .EN_MTT_PONG
  | 5 => .EN_MTT_KICKOFF
  | 6 => .EN_MTT_POST_KEY_SYN
  | 7 => .EN_MTT_POST_KEY_ACK
  | n + 8 => .other n

def type : Codec MsgType := Codec.nat.via typeNat natType fun s => by cases s <;> rfl

def post : Codec PostBody :=
  (Codec.nat.prod Codec.bytes.option).via (fun b => (b.length, b.data)) (fun p => ⟨p.1, p.2⟩) fun _ => rfl

def handshake : Codec HandshakeBody :=
  (Codec.word.prod (step.prod (switch.prod (Codec.bytes.option.prod Codec.bytes.option)))).via
    (fun b => (b.sessionId, b.step, b.switchType, b.cryptType, b.cryptParam)) (fun p => ⟨p.1, p.2.1, p.2.2.1, p.2.2.2.1, p.2.2.2.2⟩)
    fun _ => rfl

/-- a tag, and one of the tables -/
abbrev Tables := ℕ × Option PostBody × Option ℤ × Option HandshakeBody

def bodyTables : CsBody → Tables
  | .none => (0, none, none, none)
  | .post b => (1, b, none, none)
  | .kickoff reason => (2, none, reason, none)
  | .ping timepoint => (3, none, timepoint, none)
  | .handshake b => (4, none, none, b)

def tablesBody (t : Tables) : CsBody :=
  match t.1 with
  | 0 => .none
  | 1 => .post t.2.1
  | 2 => .kickoff t.2.2.1
  | 3 => .ping t.2.2.1
  | _ => .handshake t.2.2.2

def body : Codec CsBody :=
  (Codec.nat.prod (post.option.prod (integer.option.prod handshake.option))).via bodyTables tablesBody fun b => by cases b <;> rfl

def msg : Codec CsMsg := (type.option.prod body).via (fun m => (m.head, m.body)) (fun p => ⟨p.1, p.2⟩) fun _ => rfl

/-! ## Keys -/

def total (b : Bytes) : UInt8 := b.foldr (fun x s => x + s) 0

/-- what the cipher adds to a byte -/
def shift (c : Cipher) : UInt8 := total c.key + total c.iv

/-- the kind of a context, which goes in front of its parameters -/
def kind : DhShared → Option UInt8
  | .closed => none
  | .EN_CDT_DH | .file _ => some 0
  | .EN_CDT_ECDH => some 1

/-- what the calls give behind `init` with a context of the kind `k` -/
def exchange (k : UInt8) : List DhCall → ℤ × Bytes
  | [.makeParams s] => (0, [k, UInt8.ofNat s])
  | [.makeParams _, .readPublic _] => (0, [])
  | [.makeParams s, .readPublic key, .calcSecret] => (0, UInt8.ofNat s :: key)
  | .readParams param :: calls =>
    if param.headD (k + 1) ≠ k then (-1, [])
    else
      match calls with
      | [] => (0, [])
      | [.makePublic c] => (0, [UInt8.ofNat c])
      | [.makePublic c, .calcSecret] => (0, param.drop 1 ++ [UInt8.ofNat c])
      | _ => (-1, [])
  | _ => (-1, [])

/-- a closed context is refused -/
def dh : List DhCall → ℤ × Bytes
  | .init shared :: calls =>
    match kind shared with
    | none => (-1, [])
    | some k => exchange k calls
  | _ => (-1, [])

end SampleExt

open SampleExt

def Ext.sample : Ext where
  hash b := (SampleExt.total b).toNat
  build := msg.enc
  verify := msg.read
  cipherNames := [[120]]
  ciphertok b := [b]
  cipherInit _ := some ⟨16, 1⟩
  setKey c key := if key.length = c.info.keyBits / 8 then 0 else -1
  setIv c iv := if 0 < c.info.ivSize ∧ iv.length = c.info.ivSize then 0 else -1
  lastErrno _ := 0
  encrypt c x := if x.length + 16 ≤ msgLimit then .ok (x.map (· + shift c)) else .error (-1)
  decrypt c x := .ok (x.map (· - shift c))
  random seed n := .ok (List.replicate n (UInt8.ofNat (seed + 1)))
  dh := SampleExt.dh

namespace SampleExt

def deal (switchType : SwitchSecret) : Deal := ⟨[120], ⟨16, 1⟩, switchType⟩

theorem stepNat_known {s : HandshakeStep} (h : s.Known) : stepNat s ≤ 8 := by
  cases s with
  | other n => exact h.elim
  | _ => decide

theorem switchNat_known {s : SwitchSecret} (h : s.Known) : switchNat s ≤ 2 := by
  cases s with
  | other n => exact h.elim
  | _ => decide

theorem length_bytesOption (o : Option Bytes) : (Codec.bytes.option.enc o).length ≤ 2 * (o.getD []).length + 2 := by
  cases o with
  | none => decide
  | some b =>
    rw [Codec.length_some, Codec.length_bytes]
    exact le_rfl

theorem length_handshake {b : HandshakeBody} (h : b.Short) : (handshake.enc b).length ≤ 2 ^ 20 := by
  have hstep := stepNat_known h.step
  have hswitch := switchNat_known h.switchType
  have htype := (length_bytesOption b.cryptType).trans (Nat.add_le_add_right (Nat.mul_le_mul_left 2 h.cryptType) 2)
  have hparam := (length_bytesOption b.cryptParam).trans (Nat.add_le_add_right (Nat.mul_le_mul_left 2 h.cryptParam) 2)
  simp only [handshake, step, switch, Codec.length_via, Codec.length_prod, Codec.length_word, Codec.length_nat]
  omega

theorem length_pos (m : CsMsg) : 0 < (msg.enc m).length := by
  simp only [msg, body, Codec.length_via, Codec.length_prod, Codec.length_nat]
  omega

theorem length_sendable {m : CsMsg} (h : m.Sendable) : (msg.enc m).length < 2 ^ 32 - 1 := by
  cases h with
  | @handshake t b ht hb =>
    have hlen := length_handshake hb
    have htype : typeNat t ≤ 7 := by
      rcases List.mem_cons.1 ht with rfl | ht
      · decide
      · rw [List.mem_singleton.1 ht]
        decide
    simp only [msg, type, body, handshakeMsg, bodyTables, Codec.length_via, Codec.length_prod, Codec.length_nat, Codec.length_some,
      Codec.length_none]
    omega
  | @post n data hn hdata =>
    have hlen := length_bytesOption (some data)
    rw [Option.getD_some, Codec.length_some] at hlen
    rw [msgLimit] at hn hdata
    simp only [msg, type, body, post, postMsg, bodyTables, typeNat, Codec.length_via, Codec.length_prod, Codec.length_nat,
      Codec.length_some, Codec.length_none]
    omega
  | @ping t timepoint ht htime =>
    have htype : typeNat t ≤ 4 := by
      rcases List.mem_cons.1 ht with rfl | ht
      · decide
      · rw [List.mem_singleton.1 ht]
        decide
    simp only [msg, type, body, integer, intWords, pingMsg, bodyTables, Codec.length_via, Codec.length_prod, Codec.length_word,
      Codec.length_nat, Codec.length_some, Codec.length_none]
    omega

theorem reliable : Ext.sample.Reliable where
  hash b := (b.sum.toNat_lt).trans (by norm_num)
  build m hm := ⟨length_pos m, length_sendable hm⟩
  verify m _ := msg.read_enc m

theorem ciphers (switchType : SwitchSecret) : Ext.sample.Ciphers (deal switchType) where
  type := ⟨by simp [deal], by simp [deal], rfl⟩
  cipherInit := rfl
  key := by norm_num [deal]
  sizes := by norm_num [deal]
  setIv iv hiv hlen := le_of_eq (if_pos (And.intro hiv hlen)).symm
  setKey _ key _ hlen := le_of_eq (if_pos hlen).symm
  encrypt input x hx hfits := by
    set c := ((deal switchType).key input).cipher
    refine ⟨x.map (· + shift c), [], if_pos (by omega), ?_, ?_, ?_, Nat.zero_le _⟩
    · rwa [Ne, List.map_eq_nil_iff]
    · rw [List.length_map]
      omega
    · change Except.ok _ = Except.ok _
      rw [List.map_map, List.append_nil]
      refine congrArg Except.ok ((List.map_congr_left fun b _ => ?_).trans (List.map_id x))
      exact UInt8.add_sub_cancel b (shift c)
  random seed n _ := ⟨_, rfl, List.length_replicate⟩

theorem agrees {switchType : SwitchSecret} {srv : DhShared} {k : UInt8} (hsrv : kind srv = some k)
    (hcli : kind (deal switchType).clientShared = some k) : Ext.sample.Agrees (deal switchType) srv := by
  have hinit : ∀ {shared : DhShared}, kind shared = some k → ∀ calls, Ext.sample.dh (.init shared :: calls) = exchange k calls := by
    intro shared hshared calls
    change (match kind shared with | none => _ | some k => exchange k calls) = _
    rw [hshared]
  intro _ s
  have hk : ¬ (([k, UInt8.ofNat s] : Bytes).headD (k + 1) ≠ k) := fun h => h rfl
  have hparam : ([k, UInt8.ofNat s] : Bytes).length ≤ 2 ^ 16 := by norm_num
  refine ⟨[k, UInt8.ofNat s], hparam, fun c => ?_⟩
  refine ⟨[UInt8.ofNat c], [UInt8.ofNat s, UInt8.ofNat c], ⟨?_, ?_, ?_, ?_, ?_, ?_⟩, Nat.one_le_two_pow⟩
  · rw [hinit hsrv]
    rfl
  · rw [hinit hcli, exchange, if_neg hk]
  · rw [hinit hcli, exchange, if_neg hk]
  · rw [hinit hcli, exchange, if_neg hk]
    rfl
  · rw [hinit hsrv]
    rfl
  · rw [hinit hsrv]
    rfl

/-- **The sample libraries** serve every switch of the key. -/
theorem serves {switchType : SwitchSecret} (h : switchType.Known) : Ext.sample.Serves (deal switchType) :=
  ⟨reliable, ciphers switchType, h⟩

end SampleExt

end AtFrame
