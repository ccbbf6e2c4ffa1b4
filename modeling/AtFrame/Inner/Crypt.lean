/-
The crypt side of the inner protocol: the process-wide `crypt_global_configure_t`, the `crypt_session_t` objects of a
connection, and what they use of the libraries outside this repository (`Ext`).

A cipher object is what was put into it (method, key, iv); a DH context is the list of the calls made on it. The library
answers are functions of these, so every deterministic or seeded behaviour of the real objects is covered.

- `globalReload_client`: what a reload with the client's default configuration installs;
- `checkType_empty`: the empty type is always available.
-/
import AtFrame.Inner.Message

namespace AtFrame

/-! ## What the code uses of other libraries -/

structure CipherInfo where
  keyBits : ℕ
  ivSize : ℕ
deriving DecidableEq, Repr

/-- `util::crypto::cipher`: closed when it has no method -/
structure Cipher where
  method : Option Bytes := none
  info : CipherInfo := ⟨0, 0⟩
  key : Bytes := []
  iv : Bytes := []
deriving DecidableEq, Repr

/-- `util::crypto::dh::shared_context` -/
inductive DhShared where
  | closed
  | EN_CDT_DH
  | EN_CDT_ECDH
  | file (dhParam : Bytes)
deriving DecidableEq, Repr

/-- one call on a `util::crypto::dh` object; `seed` is where a call that draws random bytes stands on the random tape -/
inductive DhCall where
  | init (shared : DhShared)
  | makeParams (seed : ℕ)
  | readParams (param : Bytes)
  | makePublic (seed : ℕ)
  | readPublic (key : Bytes)
  | calcSecret
deriving DecidableEq, Repr

structure Ext where
  /-- `murmur_hash3_x86_32(.., 0)` -/
  hash : Bytes → ℕ
  /-- the bytes of a finished `FlatBufferBuilder` -/
  build : CsMsg → Bytes
  /-- `Verifycs_msgBuffer` and then `Getcs_msg`; `none` when the verifier refuses -/
  verify : Bytes → Option CsMsg
  /-- `cipher::get_all_cipher_names` -/
  cipherNames : List Bytes
  /-- the tokens `cipher::ciphertok` finds, in order -/
  ciphertok : Bytes → List Bytes
  /-- `cipher.init(t)`: `none` when it fails -/
  cipherInit : Bytes → Option CipherInfo
  setKey : Cipher → Bytes → ℤ
  setIv : Cipher → Bytes → ℤ
  lastErrno : Cipher → ℤ
  /-- `cipher.encrypt` into the thread-local buffer; an error is a negative number -/
  encrypt : Cipher → Bytes → Except ℤ Bytes
  decrypt : Cipher → Bytes → Except ℤ Bytes
  /-- `shared_context.random(buf, len)` with its place on the random tape -/
  random : ℕ → ℕ → Except ℤ Bytes
  /-- result code and output of the last call made on a DH object -/
  dh : List DhCall → ℤ × Bytes

/-! ## `crypt_global_configure_t` -/

structure CryptConf where
  defaultKey : Bytes
  updateInterval : ℤ
  type : Bytes
  switchSecretType : SwitchSecret
  dhParam : Bytes
  clientMode : Bool
deriving DecidableEq, Repr

structure CryptGlobal where
  conf : CryptConf
  availableTypes : List Bytes
  sharedDhContext : DhShared
deriving DecidableEq, Repr

def toLowerByte (c : UInt8) : UInt8 := if 65 ≤ c ∧ c ≤ 90 then c + 32 else c

/-- `tolower` on every byte -/
def toLower (b : Bytes) : Bytes := b.map toLowerByte

/-- `default_crypt_configure`; the key is `atgw-key` -/
def defaultCryptConfigure : CryptConf where
  defaultKey := [97, 116, 103, 119, 45, 107, 101, 121]
  updateInterval := 1200
  type := []
  switchSecretType := .EN_SST_DIRECT
  dhParam := []
  clientMode := false

/-- the DH context that `init` sets up, `none` for a switch type that is not supported -/
def initDhContext (c : CryptConf) : Option DhShared :=
  match c.switchSecretType with
  | .EN_SST_DH => some (if c.clientMode ∨ c.dhParam = [] then .EN_CDT_DH else .file c.dhParam)
  | .EN_SST_ECDH => some (if c.clientMode ∨ c.dhParam = [] then .EN_CDT_ECDH else .file c.dhParam)
  | .EN_SST_DIRECT => some .closed
  | .other _ => none

/-- `crypt_global_configure_t(conf)` and then `init()` -/
def CryptGlobal.init (ext : Ext) (c : CryptConf) : ℤ × CryptGlobal :=
  if c.type = [] then (EN_ECT_SUCCESS, ⟨c, [], .closed⟩)
  else
    match initDhContext c with
    | none => (EN_ECT_CRYPT_NOT_SUPPORTED, ⟨c, [], .closed⟩)
    | some d => (EN_ECT_SUCCESS, ⟨c, ((ext.ciphertok c.type).map toLower).filter (· ∈ ext.cipherNames), d⟩)

/-- `check_type`: is it available, and the type as it is written from then on -/
def CryptGlobal.checkType (g : CryptGlobal) (cryptType : Bytes) : Bool × Bytes :=
  if cryptType = [] then (true, cryptType) else (toLower cryptType ∈ g.availableTypes, toLower cryptType)

@[simp] theorem checkType_empty (g : CryptGlobal) : g.checkType [] = (true, []) := rfl

/-- `global_reload`: the configuration to install, `none` where `init` fails and the old one stays -/
def globalReload (ext : Ext) (c : CryptConf) : Option CryptGlobal :=
  let r := CryptGlobal.init ext c
  if r.1 = EN_ECT_SUCCESS then some r.2 else none

/-- the configuration a client builds from what its server offers -/
def clientConf (cryptType : Bytes) (switchType : SwitchSecret) : CryptConf :=
  { defaultCryptConfigure with type := cryptType, switchSecretType := switchType, clientMode := true }

theorem init_conf (ext : Ext) (c : CryptConf) : (CryptGlobal.init ext c).2.conf = c := by
  unfold CryptGlobal.init
  split_ifs
  · rfl
  · cases initDhContext c <;> rfl

theorem globalReload_conf {ext : Ext} {c : CryptConf} {g : CryptGlobal} (h : globalReload ext c = some g) :
    g.conf = c := by
  simp only [globalReload] at h
  split_ifs at h
  rw [← Option.some.inj h]
  exact init_conf ext c

/-- a reload with a client's configuration installs client mode -/
theorem globalReload_client {ext : Ext} {t : Bytes} {s : SwitchSecret} {g : CryptGlobal}
    (h : globalReload ext (clientConf t s) = some g) : g.conf.clientMode = true := by
  rw [globalReload_conf h]; rfl

/-! ## `crypt_session_t` -/

structure CryptSession where
  sharedConf : Option CryptGlobal := none
  type : Bytes := []
  secret : Bytes := []
  param : Bytes := []
  cipher : Cipher := {}
  isInited : Bool := false
deriving DecidableEq, Repr

/-- `vector::resize(n, 0)` -/
def resize (b : Bytes) (n : ℕ) : Bytes := b.take n ++ List.replicate (n - b.length) 0

/-- `crypt_session_t::setup` -/
def CryptSession.setup (ext : Ext) (c : CryptSession) (t : Bytes) : ℤ × CryptSession :=
  if c.isInited then (EN_ECT_CRYPT_ALREADY_INITED, c)
  else if t = [] then (EN_ECT_SUCCESS, { c with secret := [], cipher := {}, type := t, isInited := true })
  else
    match ext.cipherInit t with
    | none => (EN_ECT_CRYPT_NOT_SUPPORTED, c)
    | some info =>
      let secret :=
        if c.secret.length * 8 = info.keyBits then c.secret else resize c.secret (info.keyBits / 8)
      (EN_ECT_SUCCESS,
        { c with secret := secret, cipher := { method := some t, info := info }, type := t, isInited := true })

theorem setup_success {ext : Ext} {c : CryptSession} {t : Bytes} (h : ¬ (c.setup ext t).1 < 0) :
    (c.setup ext t).1 = 0 := by
  unfold CryptSession.setup at h ⊢
  split_ifs at h ⊢
  · exact absurd (show EN_ECT_CRYPT_ALREADY_INITED < 0 by decide) h
  · rfl
  · split at h
    · exact absurd (show EN_ECT_CRYPT_NOT_SUPPORTED < 0 by decide) h
    · rfl

/-- the cipher's part of `swap_secret`: result, `libres`, the secret as truncated, and the cipher with its key -/
def setSecret (ext : Ext) (cipher : Cipher) (input : Bytes) : ℤ × ℤ × Bytes × Cipher :=
  let keySize := cipher.info.keyBits / 8
  let ivSize := cipher.info.ivSize
  let padded := if input.length < keySize then resize input keySize else input
  let hasIv : Bool := 0 < ivSize ∧ ivSize + keySize ≤ padded.length
  let secret := if hasIv then resize padded (ivSize + keySize) else resize padded keySize
  let iv := (secret.drop keySize).take ivSize
  if hasIv ∧ ext.setIv cipher iv < 0 then (ext.setIv cipher iv, ext.lastErrno cipher, secret, cipher)
  else
    let cipher1 := if hasIv then { cipher with iv := iv } else cipher
    let key := secret.take keySize
    if ext.setKey cipher1 key < 0 then (ext.setKey cipher1 key, ext.lastErrno cipher1, secret, cipher1)
    else (EN_ECT_SUCCESS, 0, secret, { cipher1 with key := key })

/-- `swap_secret(secret, libres)` on the session's own secret -/
def CryptSession.swapOwnSecret (ext : Ext) (c : CryptSession) : ℤ × ℤ × CryptSession :=
  let (ret, libres, secret, cipher) := setSecret ext c.cipher c.secret
  (ret, libres, { c with secret := secret, cipher := cipher })

/-- `swap_secret(in, libres)` on another vector, which becomes the secret only on success -/
def CryptSession.swapSecret (ext : Ext) (c : CryptSession) (input : Bytes) : ℤ × ℤ × CryptSession :=
  let (ret, libres, secret, cipher) := setSecret ext c.cipher input
  if ret < 0 then (ret, libres, { c with cipher := cipher })
  else (ret, libres, { c with secret := secret, cipher := cipher })

/-- `generate_secret` -/
def CryptSession.generateSecret (ext : Ext) (seed : ℕ) (c : CryptSession) : ℤ × ℤ × CryptSession :=
  match c.sharedConf with
  | none => (EN_ECT_HANDSHAKE, 0, c)
  | some g =>
    let secretLen := c.cipher.info.keyBits / 8 + c.cipher.info.ivSize
    match ext.random seed secretLen with
    | .error libres => (EN_ECT_HANDSHAKE, libres, { c with secret := resize c.secret secretLen })
    | .ok r =>
      let secret := if resize r secretLen = [] then g.conf.defaultKey else resize r secretLen
      { c with secret := secret }.swapOwnSecret ext

end AtFrame
