/-
The keys that a handshake agrees on.

`Deal` is what two sides negotiate: the crypt type, which is not empty, and how the secret is switched.

- `Deal.key_key`: a secret as it was truncated gives the same key;
- `swapOwnSecret_blank`, `generateSecret_blank`: the key of a new session;
- `setupHandshake_voice`, `wp_packStartRsp_direct`, `wp_packStartRsp_dh`: the setup of a handshake, and what a server answers;
- `confBehind_deal`: the configuration of a client behind the answer of its server.

Premises about the libraries, each only for what the two sides hand to them:
- `Ext.Reliable`: the messages that a side sends (`CsMsg.Sendable`) fit into a frame, and the verifier reads them back; the hash
  has 32 bits;
- `Ext.Ciphers`: the cipher of the negotiated type takes keys and vectors of its own size; with such a key it encrypts a text for
  which the thread-local buffer has room, and decrypts it up to padding at the end; random bytes can be drawn;
- `Ext.Agrees`: where the key is switched by DH or ECDH, a server with its own shared context and a client with the context that
  every client loads for this switch (`Deal.clientShared`) compute the same secret.
Nothing is asked of other keys, of longer texts, or of contexts that are closed or of another kind.
-/
import AtFrame.Inner.Peers

namespace AtFrame

open AtFrame.Lib

/-! ## What is negotiated -/

structure Deal where
  type : Bytes
  info : CipherInfo
  switchType : SwitchSecret

/-- the secret of a session, and the cipher that got it -/
structure Key where
  secret : Bytes
  cipher : Cipher

def SwitchSecret.Known : SwitchSecret → Prop
  | .other _ => False
  | _ => True

def HandshakeStep.Known : HandshakeStep → Prop
  | .other _ => False
  | _ => True

/-! ## Secrets -/

theorem resize_length (b : Bytes) (n : ℕ) : (resize b n).length = n := by
  simp only [resize, List.length_append, List.length_take, List.length_replicate]
  omega

theorem resize_self {b : Bytes} {n : ℕ} (h : b.length = n) : resize b n = b := by
  rw [resize, ← h, List.take_length, Nat.sub_self, List.replicate_zero, List.append_nil]

namespace Deal

variable (d : Deal) (input : Bytes)

def keySize : ℕ := d.info.keyBits / 8

/-- the cipher of a new session -/
def cipher : Cipher := { method := some d.type, info := d.info }

def padded : Bytes := if input.length < d.keySize then resize input d.keySize else input

def hasIv : Bool := 0 < d.info.ivSize ∧ d.info.ivSize + d.keySize ≤ (d.padded input).length

/-- the secret as `swap_secret` truncates it -/
def secret : Bytes :=
  if d.hasIv input then resize (d.padded input) (d.info.ivSize + d.keySize) else resize (d.padded input) d.keySize

/-- the key that a secret gives -/
def key : Key where
  secret := d.secret input
  cipher :=
    { d.cipher with
      iv := if d.hasIv input then ((d.secret input).drop d.keySize).take d.info.ivSize else [],
      key := (d.secret input).take d.keySize }

theorem keySize_le_secret : d.keySize ≤ (d.secret input).length := by
  unfold secret
  split_ifs
  · rw [resize_length]
    exact Nat.le_add_left _ _
  · rw [resize_length]

theorem padded_secret : d.padded (d.secret input) = d.secret input := if_neg (Nat.not_lt.2 (d.keySize_le_secret input))

theorem hasIv_secret : d.hasIv (d.secret input) = d.hasIv input := by
  unfold hasIv
  rw [padded_secret]
  by_cases hiv : d.hasIv input = true
  · rw [secret, if_pos hiv, resize_length]
    have hiv' := of_decide_eq_true hiv
    exact decide_eq_decide.2 ⟨fun _ => hiv', fun _ => ⟨hiv'.1, le_rfl⟩⟩
  · rw [secret, if_neg hiv, resize_length]
    have hiv' := of_decide_eq_false (Bool.not_eq_true _ ▸ hiv)
    exact decide_eq_decide.2 ⟨fun h => absurd h.2 (by omega), fun h => absurd h hiv'⟩

/-- the vector of a key that has one -/
theorem length_iv (hiv : d.hasIv input = true) : (((d.secret input).drop d.keySize).take d.info.ivSize).length = d.info.ivSize := by
  rw [secret, if_pos hiv, List.length_take, List.length_drop, resize_length, Nat.add_sub_cancel, Nat.min_self]

theorem secret_secret : d.secret (d.secret input) = d.secret input := by
  have hlen : ∀ n, (if d.hasIv input then d.info.ivSize + d.keySize else d.keySize) = n → (d.secret input).length = n := by
    rintro n rfl
    unfold secret
    split_ifs <;> rw [resize_length]
  rw [show d.secret (d.secret input) = if d.hasIv (d.secret input) then resize (d.padded (d.secret input)) (d.info.ivSize + d.keySize)
    else resize (d.padded (d.secret input)) d.keySize from rfl, hasIv_secret, padded_secret]
  split_ifs with hiv
  · exact resize_self (hlen _ (if_pos hiv))
  · exact resize_self (hlen _ (if_neg hiv))

/-- **A truncated secret** gives the same key. -/
theorem key_key : d.key (d.key input).secret = d.key input := by
  rw [key, show (d.key input).secret = d.secret input from rfl, secret_secret, hasIv_secret]
  rfl

end Deal

/-! ## What both sides rely on -/

/-- a body of a size that handshakes have -/
structure HandshakeBody.Short (b : HandshakeBody) : Prop where
  step : b.step.Known
  switchType : b.switchType.Known
  cryptType : (b.cryptType.getD []).length ≤ 2 ^ 16
  cryptParam : (b.cryptParam.getD []).length ≤ 2 ^ 16

/-- a message as the two sides send them -/
inductive CsMsg.Sendable : CsMsg → Prop where
  | handshake {type : MsgType} {b : HandshakeBody} :
    type ∈ [MsgType.EN_MTT_HANDSHAKE, .EN_MTT_POST_KEY_SYN] → b.Short → Sendable (handshakeMsg type b)
  | post {n : ℕ} {data : Bytes} : n ≤ msgLimit → data.length ≤ msgLimit → Sendable (postMsg n data)
  | ping {type : MsgType} {timepoint : ℤ} :
    type ∈ [MsgType.EN_MTT_PING, .EN_MTT_PONG] → -2 ^ 63 ≤ timepoint ∧ timepoint < 2 ^ 63 → Sendable (pingMsg type timepoint)

/-- builders, the verifier and the hash -/
structure Ext.Reliable (ext : Ext) : Prop where
  hash : ∀ b, ext.hash b < 2 ^ 32
  build : ∀ m : CsMsg, m.Sendable → 0 < (ext.build m).length ∧ (ext.build m).length < 2 ^ 32 - 1
  verify : ∀ m : CsMsg, m.Sendable → ext.verify (ext.build m) = some m

/-- the ciphers of the negotiated type with keys of their size, and random numbers -/
structure Ext.Ciphers (ext : Ext) (d : Deal) : Prop where
  type : d.type ≠ [] ∧ d.type.length ≤ 2 ^ 16 ∧ toLower d.type = d.type
  cipherInit : ext.cipherInit d.type = some d.info
  key : 8 ≤ d.info.keyBits
  sizes : d.info.keyBits / 8 + d.info.ivSize ≤ 1024
  setIv : ∀ iv : Bytes, 0 < d.info.ivSize → iv.length = d.info.ivSize → 0 ≤ ext.setIv d.cipher iv
  setKey : ∀ iv key : Bytes, iv = [] ∨ iv.length = d.info.ivSize → key.length = d.keySize →
    0 ≤ ext.setKey { d.cipher with iv := iv } key
  /-- the text and its padding fit into the thread-local buffer of either side -/
  encrypt : ∀ input x : Bytes, x ≠ [] → x.length + 2048 ≤ msgLimit →
    ∃ out pad, ext.encrypt (d.key input).cipher x = .ok out ∧ out ≠ [] ∧ out.length ≤ x.length + 1024 ∧
      ext.decrypt (d.key input).cipher out = .ok (x ++ pad) ∧ pad.length ≤ 1024
  random : ∀ seed n, n ≤ d.info.keyBits / 8 + d.info.ivSize → ∃ r, ext.random seed n = .ok r ∧ r.length = n

/-- the context of a client that has loaded the configuration for the switch -/
def Deal.clientShared (d : Deal) : DhShared := (initDhContext (clientConf d.type d.switchType)).getD .closed

/-- a DH exchange between a server with the context `srv` and a client with the context `cli`: what they send, and the secret -/
structure Ext.Exchange (ext : Ext) (srv cli : DhShared) (s c : ℕ) (param pubkey secret : Bytes) : Prop where
  makeParams : ext.dh [.init srv, .makeParams s] = (0, param)
  readParams : (ext.dh [.init cli, .readParams param]).1 = 0
  makePublic : ext.dh [.init cli, .readParams param, .makePublic c] = (0, pubkey)
  clientSecret : ext.dh [.init cli, .readParams param, .makePublic c, .calcSecret] = (0, secret)
  readPublic : (ext.dh [.init srv, .makeParams s, .readPublic pubkey]).1 = 0
  serverSecret : ext.dh [.init srv, .makeParams s, .readPublic pubkey, .calcSecret] = (0, secret)

/-- the client can take the parameters that the server has made at `s` -/
def Ext.Takes (ext : Ext) (d : Deal) (srv : DhShared) (s : ℕ) (param : Bytes) : Prop :=
  param.length ≤ 2 ^ 16 ∧ ∀ c, ∃ pubkey secret, ext.Exchange srv d.clientShared s c param pubkey secret ∧ pubkey.length ≤ 2 ^ 16

/-- where the key is switched by DH, a server with the context `srv` and a client compute the same secret -/
def Ext.Agrees (ext : Ext) (d : Deal) (srv : DhShared) : Prop :=
  d.switchType ≠ .EN_SST_DIRECT → ∀ s, ∃ param, ext.Takes d srv s param

/-! ## Sessions -/

/-- a configuration with which a handshake is set up -/
structure CryptGlobal.Names (g : CryptGlobal) (d : Deal) : Prop where
  type : g.conf.type ≠ []
  switchType : g.conf.switchSecretType = d.switchType

/-- set up, without a key yet -/
structure CryptSession.Blank (d : Deal) (g : CryptGlobal) (c : CryptSession) : Prop where
  conf : c.sharedConf = some g
  names : g.Names d
  type : c.type = d.type
  cipher : c.cipher = d.cipher
  inited : c.isInited = true

structure CryptSession.Holds (d : Deal) (κ : Key) (c : CryptSession) : Prop where
  type : c.type = d.type
  inited : c.isInited = true
  secret : c.secret = κ.secret
  cipher : c.cipher = κ.cipher
  /-- the key is the one of its secret -/
  proper : d.key κ.secret = κ

/-- holds a key, and belongs to a handshake -/
structure CryptSession.Keyed (d : Deal) (κ : Key) (c : CryptSession) : Prop extends c.Holds d κ where
  conf : ∃ g ∈ c.sharedConf, g.Names d

section sessions

variable {ext : Ext} {d : Deal} {g : CryptGlobal} {c : CryptSession} {κ : Key}

theorem CryptSession.Keyed.shared (h : c.Keyed d κ) : c.sharedConf.isSome = true := by
  obtain ⟨g, hg, -⟩ := h.conf
  rw [Option.mem_def.1 hg]
  rfl

theorem CryptSession.Keyed.setParam (h : c.Keyed d κ) (param : Bytes) : CryptSession.Keyed d κ { c with param := param } := { h with }

theorem CryptSession.Blank.setParam (h : c.Blank d g) (param : Bytes) : CryptSession.Blank d g { c with param := param } := { h with }

/-- a text is encrypted and decrypted with a key in use -/
theorem Ext.Ciphers.seals (h : ext.Ciphers d) (hκ : d.key κ.secret = κ) {x : Bytes} (hx : x ≠ []) (hsize : x.length + 2048 ≤ msgLimit) :
    ∃ out pad, ext.encrypt κ.cipher x = .ok out ∧ out ≠ [] ∧ out.length ≤ x.length + 1024 ∧
      ext.decrypt κ.cipher out = .ok (x ++ pad) ∧ pad.length ≤ 1024 := by
  have hseals := h.encrypt κ.secret x hx hsize
  rwa [hκ] at hseals

theorem setSecret_cipher (h : ext.Ciphers d) (input : Bytes) :
    setSecret ext d.cipher input = (EN_ECT_SUCCESS, 0, (d.key input).secret, (d.key input).cipher) := by
  set iv : Bytes := ((d.secret input).drop d.keySize).take d.info.ivSize with hivdef
  have hsetIv : ¬ ((d.hasIv input = true) ∧ ext.setIv d.cipher iv < 0) := fun hc =>
    absurd hc.2 (Int.not_lt.2 (h.setIv iv (of_decide_eq_true hc.1).1 (d.length_iv input hc.1)))
  have hsetKey : ∀ iv' : Bytes, iv' = [] ∨ iv'.length = d.info.ivSize →
      ¬ ext.setKey { d.cipher with iv := iv' } ((d.secret input).take d.keySize) < 0 :=
    fun iv' hiv' => Int.not_lt.2 (h.setKey iv' _ hiv' (List.length_take_of_le (d.keySize_le_secret input)))
  change (if d.hasIv input ∧ ext.setIv d.cipher iv < 0 then _ else
    if ext.setKey (if d.hasIv input then { d.cipher with iv := iv } else d.cipher) ((d.secret input).take d.keySize) < 0 then _ else
      (EN_ECT_SUCCESS, (0 : ℤ), d.secret input,
        { (if d.hasIv input then { d.cipher with iv := iv } else d.cipher : Cipher) with key := (d.secret input).take d.keySize })) = _
  rw [if_neg hsetIv]
  unfold Deal.key
  have hplain : ¬ ext.setKey d.cipher ((d.secret input).take d.keySize) < 0 := hsetKey [] (.inl rfl)
  by_cases hhas : d.hasIv input = true
  · rw [if_pos hhas, if_pos hhas, if_neg (hsetKey iv (.inr (d.length_iv input hhas)))]
  · rw [if_neg hhas, if_neg hhas, if_neg hplain]
    rfl

/-- the setup of a session that was just made -/
theorem setup_fresh (h : ext.Ciphers d) (hg : g.Names d) (hfresh : c = { sharedConf := some g }) :
    (c.setup ext d.type).1 = 0 ∧ (c.setup ext d.type).2.Blank d g ∧ (c.setup ext d.type).2.param = [] := by
  subst hfresh
  unfold CryptSession.setup
  rw [if_neg Bool.false_ne_true, if_neg h.type.1, h.cipherInit]
  exact ⟨rfl, ⟨rfl, hg, rfl, rfl, rfl⟩, rfl⟩

/-- the session after `swap_secret` on its own secret -/
theorem swapOwnSecret_blank (h : ext.Ciphers d) (hc : c.Blank d g) :
    c.swapOwnSecret ext =
      (EN_ECT_SUCCESS, 0, { c with secret := (d.key c.secret).secret, cipher := (d.key c.secret).cipher }) := by
  unfold CryptSession.swapOwnSecret
  rw [hc.cipher, setSecret_cipher h]

theorem CryptSession.Blank.keyed (hc : c.Blank d g) (input : Bytes) :
    CryptSession.Keyed d (d.key input) { c with secret := (d.key input).secret, cipher := (d.key input).cipher } where
  type := hc.type
  inited := hc.inited
  secret := rfl
  cipher := rfl
  proper := d.key_key input
  conf := ⟨g, hc.conf, hc.names⟩

/-- `generate_secret` -/
theorem generateSecret_blank (h : ext.Ciphers d) (hc : c.Blank d g) (seed : ℕ) :
    ∃ r, c.generateSecret ext seed = (EN_ECT_SUCCESS, 0, { c with secret := (d.key r).secret, cipher := (d.key r).cipher }) := by
  have hinfo : c.cipher.info = d.info := by rw [hc.cipher]; rfl
  obtain ⟨r, hr, hlen⟩ := h.random seed (d.info.keyBits / 8 + d.info.ivSize) le_rfl
  have hne : r ≠ [] := by
    rintro rfl
    have := h.key
    rw [List.length_nil] at hlen
    omega
  refine ⟨r, ?_⟩
  unfold CryptSession.generateSecret
  rw [hc.conf]
  simp only [hinfo, hr]
  rw [resize_self hlen, if_neg hne]
  exact swapOwnSecret_blank h ⟨rfl, hc.names, hc.type, hc.cipher, hc.inited⟩

theorem key_sizes (h : ext.Ciphers d) (input : Bytes) : (d.key input).secret.length ≤ 1024 := by
  have hsizes := h.sizes
  change (d.secret input).length ≤ 1024
  unfold Deal.secret Deal.keySize
  split_ifs <;> rw [resize_length] <;> omega

end sessions

/-! ## Steps that change nothing but the object -/

/-- what the write queue and the channel of an object depend on -/
def Proto.line (p : Proto) : ℕ × Bool × Bool × BlockQueue UInt8 × Option ℕ :=
  (p.writeHeaderOffset, p.flags.writing, p.flags.closing, p.writeBuffers, p.lastWritePtr)

namespace Voice

def hs (v : Voice) : CryptSession := v.crypts v.cryptHandshake

def setHs (v : Voice) (c : CryptSession) : Voice := { v with crypts := Function.update v.crypts v.cryptHandshake c }

def newHs (v : Voice) : Voice :=
  { v with crypts := Function.update v.crypts v.cryptCount {}, cryptHandshake := v.cryptCount, cryptCount := v.cryptCount + 1 }

def readHs (v : Voice) : Voice := { v with cryptRead := some v.cryptHandshake }

def writeHs (v : Voice) : Voice := { v with cryptWrite := some v.cryptHandshake }

/-- a handshake is set up with the configuration -/
def ready (v : Voice) (g : CryptGlobal) : Voice :=
  { v.setHs { v.hs with sharedConf := some g } with
    handshakeUpdate := true
    handshake :=
      { v.handshake with
        switchSecretType := g.conf.switchSecretType
        hasData := true
        dhCtx := if g.conf.switchSecretType = .EN_SST_DIRECT then [] else [.init g.sharedDhContext] } }

/-- a handshake is over -/
def finished (v : Voice) : Voice :=
  { v.setHs { v.hs with param := [] } with
    handshakeDone := true
    handshakeUpdate := false
    handshake := { v.handshake with hasData := false, dhCtx := [] } }

@[simp] theorem hs_setHs (v : Voice) (c : CryptSession) : (v.setHs c).hs = c := Function.update_self ..

end Voice

@[simp] theorem voice_setHs (p : Proto) (c : CryptSession) : (p.setHs c).voice = p.voice.setHs c := rfl
@[simp] theorem voice_newHs (p : Proto) : p.newHs.voice = p.voice.newHs := rfl
@[simp] theorem voice_readHs (p : Proto) : p.readHs.voice = p.voice.readHs := rfl
@[simp] theorem voice_writeHs (p : Proto) : p.writeHs.voice = p.voice.writeHs := rfl
theorem voice_hs (p : Proto) : p.voice.hs = p.hs := rfl

@[simp] theorem line_setHs (p : Proto) (c : CryptSession) : (p.setHs c).line = p.line := rfl
@[simp] theorem line_newHs (p : Proto) : p.newHs.line = p.line := rfl
@[simp] theorem line_readHs (p : Proto) : p.readHs.line = p.line := rfl
@[simp] theorem line_writeHs (p : Proto) : p.writeHs.line = p.line := rfl

theorem setupHandshake_voice (ext : Ext) {p : Proto} {g : CryptGlobal} {d : Deal} (hdata : p.handshake.hasData = false)
    (hctx : p.handshake.dhCtx = []) (hg : g.Names d) (hknown : d.switchType.Known) :
    (p.setupHandshake ext (some g)).1 = 0 ∧ (p.setupHandshake ext (some g)).2.voice = p.voice.ready g ∧
      (p.setupHandshake ext (some g)).2.line = p.line := by
  have hctx' : p.voice.handshake.dhCtx = [] := hctx
  unfold Proto.setupHandshake Voice.ready
  rw [if_neg (by rw [hdata]; exact Bool.false_ne_true)]
  simp only [if_neg hg.type]
  rw [← hg.switchType] at hknown
  cases hswitch : g.conf.switchSecretType with
  | other n =>
    rw [hswitch] at hknown
    exact hknown.elim
  | EN_SST_DIRECT =>
    refine ⟨rfl, ?_, rfl⟩
    rw [if_pos rfl, ← hctx']
    rfl
  | EN_SST_DH =>
    refine ⟨rfl, ?_, rfl⟩
    rw [if_neg (by decide), show ([.init g.sharedDhContext] : List DhCall) = p.handshake.dhCtx ++ [.init g.sharedDhContext] by rw [hctx]; rfl]
    rfl
  | EN_SST_ECDH =>
    refine ⟨rfl, ?_, rfl⟩
    rw [if_neg (by decide), show ([.init g.sharedDhContext] : List DhCall) = p.handshake.dhCtx ++ [.init g.sharedDhContext] by rw [hctx]; rfl]
    rfl

theorem setHs_twice (p : Proto) (c c' : CryptSession) : (p.setHs c).setHs c' = p.setHs c' := by
  simp only [Proto.setHs, Function.update_idem]

namespace Host

variable {W : Type} {H : Host W} {E : Fault → W → Prop} {w w' : W} {v : Voice}

/-- nothing but the object changed, and nothing of its write queue -/
def Turned (H : Host W) (v : Voice) (w w' : W) : Prop :=
  ∃ p, w' = H.setProto p w ∧ p.line = (H.proto w).line ∧ p.voice = v

theorem Turned.of {p : Proto} (hline : p.line = (H.proto w).line) (hvoice : p.voice = v) : H.Turned v w (H.setProto p w) :=
  ⟨p, rfl, hline, hvoice⟩

theorem Turned.trans {w'' : W} {v' : Voice} (h : H.Turned v w w') (h' : H.Turned v' w' w'') : H.Turned v' w w'' := by
  obtain ⟨p, rfl, hline, -⟩ := h
  obtain ⟨q, rfl, hline', hq⟩ := h'
  rw [H.proto_setProto] at hline'
  exact ⟨q, H.setProto_setProto q p w, hline'.trans hline, hq⟩

theorem Turned.voice (h : H.Turned v w w') : (H.proto w').voice = v := by
  obtain ⟨p, rfl, -, hvoice⟩ := h
  rw [H.proto_setProto, hvoice]

theorem Turned.closing (h : H.Turned v w w') : (H.proto w').flags.closing = (H.proto w).flags.closing := by
  obtain ⟨p, rfl, hline, -⟩ := h
  rw [H.proto_setProto]
  exact congrArg (fun l => l.2.2.1) hline

/-! ## The start response -/

section startRsp

variable {d : Deal} {g : CryptGlobal} {id : UInt64}

/-- the start response behind the setup of the session -/
def packSwitch (H : Host W) (sessId : UInt64) (cryptType : Bytes) : SwitchSecret → Prog Fault W (Except ℤ HandshakeBody)
  | .EN_SST_DIRECT => do
    let body ← packStartRspDirect H sessId cryptType
    return .ok body
  | .EN_SST_DH | .EN_SST_ECDH => packStartRspDh H sessId cryptType
  | .other _ => do
    H.onError EN_ECT_CRYPT_NOT_SUPPORTED "Unknown switch type"
    return .error EN_ECT_CRYPT_NOT_SUPPORTED

theorem wp_packStartRsp (hc : H.ext.Ciphers d) (hg : g.Names d) (hid : id ≠ 0) (hhs : (H.proto w).hs = { sharedConf := some g })
    {Q : Except ℤ HandshakeBody → W → Prop}
    (hQ : ∀ c, CryptSession.Blank d g c → c.param = [] →
      wp (H.packSwitch id d.type (H.proto w).handshake.switchSecretType) Q E (H.setProto ((H.proto w).setHs c) w)) :
    wp (packHandshakeStartRsp H id d.type) Q E w := by
  obtain ⟨hret, hblank, -⟩ := setup_fresh hc hg hhs
  unfold packHandshakeStartRsp
  simp only [wp_bind, wp_get, wp_modify, wp_ite, proto_setProto, setProto_setProto]
  generalize CryptSession.setup H.ext (H.proto w).hs d.type = r at hret hblank
  refine ⟨fun hplain => ?_, fun _ => ?_⟩
  · rcases hplain with h | h | h | h
    · exact absurd h hid
    · rw [hblank.conf] at h
      exact absurd h Bool.false_ne_true
    · exact absurd h hc.type.1
    · rw [hret] at h
      exact absurd h (lt_irrefl 0)
  · have hself : ((H.proto w).setHs r.2).hs = r.2 := hs_setHs _ _
    rw [hself, setHs_twice]
    exact hQ _ (hblank.setParam []) rfl

/-- the start response for a direct switch of the key -/
theorem wp_packStartRsp_direct (hc : H.ext.Ciphers d) (hg : g.Names d) (hid : id ≠ 0)
    (hhs : (H.proto w).hs = { sharedConf := some g })
    (hswitch : (H.proto w).handshake.switchSecretType = .EN_SST_DIRECT) :
    wp (packHandshakeStartRsp H id d.type)
      (fun r w' => ∃ input c, CryptSession.Keyed d (d.key input) c ∧ c.param = [] ∧
        H.Turned ((H.proto w).voice.setHs c).writeHs w w' ∧
        r = .ok { sessionId := id, step := .EN_HST_START_RSP, switchType := .EN_SST_DIRECT, cryptType := some d.type,
                  cryptParam := some (d.key input).secret }) E w := by
  refine wp_packStartRsp hc hg hid hhs fun c hblank hparam => ?_
  rw [hswitch, packSwitch]
  have hself : ((H.proto w).setHs c).hs = c := hs_setHs _ _
  obtain ⟨input, hgen⟩ := generateSecret_blank hc hblank ((H.proto w).setHs c).seed
  unfold packStartRspDirect
  simp only [wp_bind, wp_get, wp_modify, wp_ite, proto_setProto, setProto_setProto, hself, hgen, setHs_twice]
  refine ⟨fun hfail => absurd hfail (lt_irrefl 0), fun _ => ?_⟩
  simp only [wp_pure, proto_setProto, setProto_setProto]
  exact ⟨input, _, hblank.keyed input, hparam, .of rfl rfl, rfl⟩

theorem wp_packStartRspDh (cryptType : Bytes) (hdata : (H.proto w).handshake.hasData = true) {param : Bytes}
    (hparams : H.ext.dh ((H.proto w).handshake.dhCtx ++ [.makeParams (H.proto w).seed]) = (0, param)) :
    wp (packStartRspDh H id cryptType)
      (fun r w' =>
        H.Turned { (H.proto w).voice.setHs { (H.proto w).hs with param := param } with
          handshake := { (H.proto w).handshake with dhCtx := (H.proto w).handshake.dhCtx ++ [.makeParams (H.proto w).seed] } } w w' ∧
        r = .ok { sessionId := id, step := .EN_HST_START_RSP, switchType := (H.proto w).handshake.switchSecretType,
                  cryptType := some cryptType, cryptParam := some param }) E w := by
  unfold packStartRspDh
  simp only [wp_bind, wp_get, wp_modify, wp_ite, Proto.dhCall, hparams]
  exact ⟨fun hno => absurd hdata hno, fun _ => ⟨fun hfail => absurd rfl hfail, fun _ => ⟨.of rfl rfl, rfl⟩⟩⟩

/-- the start response for a DH switch of the key -/
theorem wp_packStartRsp_dh (hc : H.ext.Ciphers d) (hg : g.Names d) (hid : id ≠ 0)
    (hhs : (H.proto w).hs = { sharedConf := some g })
    (hswitch : (H.proto w).handshake.switchSecretType = .EN_SST_DH ∨ (H.proto w).handshake.switchSecretType = .EN_SST_ECDH)
    (hdata : (H.proto w).handshake.hasData = true) {param : Bytes}
    (hparams : H.ext.dh ((H.proto w).handshake.dhCtx ++ [.makeParams (H.proto w).seed]) = (0, param)) :
    wp (packHandshakeStartRsp H id d.type)
      (fun r w' => ∃ c, CryptSession.Blank d g c ∧
        H.Turned { (H.proto w).voice.setHs c with
          handshake := { (H.proto w).handshake with dhCtx := (H.proto w).handshake.dhCtx ++ [.makeParams (H.proto w).seed] } } w w' ∧
        r = .ok { sessionId := id, step := .EN_HST_START_RSP, switchType := (H.proto w).handshake.switchSecretType,
                  cryptType := some d.type, cryptParam := some param }) E w := by
  refine wp_packStartRsp hc hg hid hhs fun c hblank _ => ?_
  have hproto : H.proto (H.setProto ((H.proto w).setHs c) w) = (H.proto w).setHs c := H.proto_setProto _ _
  have hdh : wp (packStartRspDh H id d.type) _ E (H.setProto ((H.proto w).setHs c) w) :=
    wp_packStartRspDh d.type (by rw [hproto]; exact hdata) (by rw [hproto]; exact hparams)
  have hswitched : H.packSwitch id d.type (H.proto w).handshake.switchSecretType = packStartRspDh H id d.type := by
    rcases hswitch with hswitch | hswitch <;> rw [hswitch] <;> rfl
  rw [hswitched]
  rw [hproto] at hdh
  refine wp_post hdh fun r w' ⟨⟨p, hw', hline, hvoice⟩, hr⟩ => ⟨_, hblank.setParam param, ⟨p, ?_, ?_, ?_⟩, hr⟩
  · rw [hw', setProto_setProto]
  · rw [hline, hproto]
    rfl
  · rw [hvoice, hs_setHs, voice_setHs]
    simp only [Voice.setHs, Function.update_idem]
    rfl

end startRsp

end Host

/-! ## The configuration of a client -/

/-- the configuration of a client, as `init` leaves it -/
structure CryptGlobal.Following (g : CryptGlobal) : Prop where
  clientMode : g.conf.clientMode = true
  types : g.conf.type = [] → g.availableTypes = []
  shared : g.conf.type ≠ [] → initDhContext g.conf = some g.sharedDhContext

section client

variable {ext : Ext} {d : Deal} {cur : Option CryptGlobal}

theorem reload_following {c : CryptConf} {g : CryptGlobal} (h : globalReload ext c = some g) (hmode : c.clientMode = true) :
    g.Following := by
  have hconf := globalReload_conf h
  simp only [globalReload] at h
  split_ifs at h with hinit
  obtain rfl := Option.some.inj h
  rw [init_conf] at hconf
  unfold CryptGlobal.init at hinit ⊢
  split_ifs at hinit ⊢ with htype
  · exact ⟨hmode, fun _ => rfl, fun hno => absurd htype hno⟩
  · cases hshared : initDhContext c with
    | none =>
      rw [hshared] at hinit
      exact absurd hinit (show EN_ECT_CRYPT_NOT_SUPPORTED ≠ EN_ECT_SUCCESS by decide)
    | some shared => exact ⟨hmode, fun hno => absurd hno htype, fun _ => hshared⟩

/-- every client has the same context for a switch -/
theorem CryptGlobal.Following.clientShared {g : CryptGlobal} (h : g.Following) (hg : g.Names d) : g.sharedDhContext = d.clientShared := by
  have hsame : initDhContext (clientConf d.type d.switchType) = initDhContext g.conf := by
    unfold initDhContext
    rw [hg.switchType, h.clientMode]
    rfl
  rw [Deal.clientShared, hsame, h.shared hg.type]
  rfl

/-- a client can always load what it was told -/
theorem globalReload_deal (ext : Ext) (htype : d.type ≠ []) (hknown : d.switchType.Known) :
    ∃ g, globalReload ext (clientConf d.type d.switchType) = some g := by
  have htype' : (clientConf d.type d.switchType).type ≠ [] := htype
  obtain ⟨shared, hshared⟩ : ∃ shared, initDhContext (clientConf d.type d.switchType) = some shared := by
    unfold initDhContext
    rw [show (clientConf d.type d.switchType).switchSecretType = d.switchType from rfl]
    cases hswitch : d.switchType with
    | other n =>
      rw [hswitch] at hknown
      exact hknown.elim
    | _ => exact ⟨_, rfl⟩
  have hinit : (CryptGlobal.init ext (clientConf d.type d.switchType)).1 = EN_ECT_SUCCESS := by
    unfold CryptGlobal.init
    rw [if_neg htype', hshared]
  exact ⟨_, if_pos hinit⟩

/-- **The configuration** behind the server's response names the negotiated type and switch. -/
theorem confBehind_deal (body : HandshakeBody) (hc : ext.Ciphers d) (hknown : d.switchType.Known) (hcur : ∀ g ∈ cur, g.Following)
    (htype : body.cryptType = some d.type) (hswitch : body.switchType = d.switchType) :
    (confMismatch cur (body.cryptType.getD []) body.switchType).2 = d.type ∧
      ∃ g, confBehind ext cur body = some g ∧ g.Following ∧ g.Names d := by
  have hnames : (confMismatch cur (body.cryptType.getD []) body.switchType).2 = d.type := by
    rw [htype, Option.getD_some]
    cases cur with
    | none => rfl
    | some g =>
      change (if d.type = [] then (true, d.type) else (decide (toLower d.type ∈ g.availableTypes), toLower d.type)).2 = d.type
      rw [if_neg hc.type.1]
      exact hc.type.2.2
  refine ⟨hnames, ?_⟩
  by_cases hmismatch : (confMismatch cur (body.cryptType.getD []) body.switchType).1 = true
  · obtain ⟨g, hg⟩ := globalReload_deal ext hc.type.1 hknown
    have hconf := globalReload_conf hg
    refine ⟨g, ?_, reload_following hg rfl, by rw [hconf]; exact hc.type.1, by rw [hconf]; rfl⟩
    rw [confBehind, reloadedConf, if_pos hmismatch, hnames, hswitch, hg]
    rfl
  · have hnone : reloadedConf ext cur body = none := by rw [reloadedConf, if_neg hmismatch]
    cases cur with
    | none => exact absurd rfl hmismatch
    | some g =>
      have hmatch : (g.checkType (body.cryptType.getD [])).1 = true ∧ g.conf.switchSecretType = body.switchType := by
        by_contra hno
        refine hmismatch (decide_eq_true ?_)
        by_cases hcheck : (g.checkType (body.cryptType.getD [])).1 = true
        · exact .inr fun h => hno ⟨hcheck, h⟩
        · exact .inl hcheck
      refine ⟨g, by rw [confBehind, hnone]; rfl, hcur g rfl, fun hplain => ?_, hmatch.2.trans hswitch⟩
      have havail : d.type ∈ g.availableTypes := by
        have hcheck := hmatch.1
        rw [htype, Option.getD_some] at hcheck
        unfold CryptGlobal.checkType at hcheck
        rw [if_neg hc.type.1, hc.type.2.2] at hcheck
        exact of_decide_eq_true hcheck
      rw [(hcur g rfl).types hplain] at havail
      exact absurd havail List.not_mem_nil

end client

end AtFrame
