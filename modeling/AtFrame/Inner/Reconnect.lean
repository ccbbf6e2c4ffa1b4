/-
What the messages of a reconnect do to the side that gets them.

A client that comes back encrypts the secret of its old session with the key of this secret. `check_reconnect` sets the key of
the old object, decrypts the text and compares. The server answers under the old key and updates it at once.

- `resume_holds`: the key of the client;
- `wp_checkReconnect_deal`: the check passes where the old object reads with the key;
- `reconnReq_phase`, `reconnRsp_phase`: the request and its answer.
-/
import AtFrame.Inner.Handlers

namespace AtFrame

open AtFrame.Lib

/-! ## Keys of an old session -/

section sessions

variable {ext : Ext} {d : Deal} {g : CryptGlobal} {c : CryptSession} {κ : Key}

/-- the setup of a session that was just made, whatever its configuration -/
theorem setup_new (h : ext.Ciphers d) (hnew : c.isInited = false) :
    (c.setup ext d.type).1 = 0 ∧ (c.setup ext d.type).2.type = d.type ∧ (c.setup ext d.type).2.isInited = true ∧
      (c.setup ext d.type).2.cipher = d.cipher := by
  have hold : ¬ c.isInited = true := by
    rw [hnew]
    exact Bool.false_ne_true
  unfold CryptSession.setup
  rw [if_neg hold, if_neg h.type.1, h.cipherInit]
  exact ⟨rfl, rfl, rfl, rfl⟩

/-- `swap_secret` with the secret of a key -/
theorem swapSecret_holds (h : ext.Ciphers d) (hκ : d.key κ.secret = κ) (htype : c.type = d.type) (hinited : c.isInited = true)
    (hcipher : c.cipher = d.cipher) :
    ∃ c', c.swapSecret ext κ.secret = (EN_ECT_SUCCESS, 0, c') ∧ c'.Holds d κ := by
  refine ⟨{ c with secret := κ.secret, cipher := κ.cipher }, ?_, ⟨htype, hinited, rfl, rfl, hκ⟩⟩
  unfold CryptSession.swapSecret
  rw [hcipher, setSecret_cipher h, hκ]
  exact if_neg (lt_irrefl 0)

/-- **The session of a client** that comes back has the key of the secret. -/
theorem resume_holds (h : ext.Ciphers d) (hκ : d.key κ.secret = κ) (hnew : c.isInited = false) :
    ∃ c', c.resume ext d.type κ.secret = (EN_ECT_SUCCESS, c') ∧ c'.Holds d κ := by
  obtain ⟨hret, htype, hinited, hcipher⟩ := setup_new h hnew
  obtain ⟨c', hswap, hholds⟩ := swapSecret_holds h hκ htype hinited hcipher
  refine ⟨c', ?_, hholds⟩
  unfold CryptSession.resume
  simp only [hret, hswap]
  rw [if_neg (lt_irrefl 0), if_neg h.type.1]

theorem CryptSession.Holds.keyed (h : c.Holds d κ) (hg : g.Names d) : CryptSession.Keyed d κ { c with sharedConf := some g } :=
  { h with conf := ⟨g, rfl, hg⟩ }

theorem secret_ne_nil (h : ext.Ciphers d) (hκ : d.key κ.secret = κ) : κ.secret ≠ [] := by
  have hlen : d.keySize ≤ κ.secret.length := by
    rw [← hκ]
    exact d.keySize_le_secret _
  have hbits := h.key
  rw [← List.length_pos_iff]
  unfold Deal.keySize at hlen
  omega

/-- a secret fits into a request when it is encrypted -/
theorem sealed_secret (h : ext.Ciphers d) (hκ : d.key κ.secret = κ) :
    ∃ out, ext.encrypt κ.cipher κ.secret = .ok out ∧ ext.Sealed κ κ.secret out := by
  have hne := secret_ne_nil h hκ
  have hsize : κ.secret.length ≤ 1024 := by
    rw [← hκ]
    exact key_sizes h _
  have hfits : κ.secret.length + 2048 ≤ msgLimit := by
    rw [msgLimit]
    omega
  obtain ⟨out, pad, hout, houtne, hlen, hback, hpad⟩ := h.seals hκ hne hfits
  exact ⟨out, hout, ⟨pad, hback, hpad⟩, ⟨hne, houtne⟩, by omega⟩

end sessions

/-! ## The messages -/

/-- the body of a reconnect request -/
def Deal.reconnReq (d : Deal) (id : UInt64) (out : Bytes) : HandshakeBody where
  sessionId := id
  step := .EN_HST_RECONNECT_REQ
  switchType := .EN_SST_DIRECT
  cryptType := some d.type
  cryptParam := some out

/-- the body of its answer -/
def Deal.reconnRsp (d : Deal) (id : UInt64) : HandshakeBody where
  sessionId := id
  step := .EN_HST_RECONNECT_RSP
  switchType := d.switchType
  cryptType := some d.type
  cryptParam := none

/-! ## The check -/

/-- the object behind a check that passed: it has the id of the old session and uses its key in both directions -/
def Voice.reconnected (v : Voice) (c : CryptSession) (g : CryptGlobal) (id : UInt64) : Voice :=
  (Voice.ready { v.setHs c with sessionId := id } g).readHs.writeHs

theorem Voice.hs_reconnected (v : Voice) (c : CryptSession) (g : CryptGlobal) (id : UInt64) :
    (v.reconnected c g id).hs = { c with sharedConf := some g } := by
  have hset : Voice.hs { v.setHs c with sessionId := id } = c := Voice.hs_setHs v c
  rw [show (v.reconnected c g id).hs = (Voice.ready { v.setHs c with sessionId := id } g).hs from rfl, hs_ready, hset]

namespace Host

variable {W : Type} {H : Host W} {E : Fault → W → Prop} {w : W} {d : Deal} {g : CryptGlobal} {κ : Key} {id : UInt64}

theorem wp_checkReconnectSecret_deal (hc : H.ext.Ciphers d) (hopen : (H.proto w).flags.closing = false)
    (hnew : (H.proto w).hs.isInited = false) {old : CryptSession} (hold : old.Holds d κ) {out : Bytes} (hsealed : H.ext.Sealed κ κ.secret out)
    (hext : (H.proto w).handshake.extData = some (d.reconnReq id out)) :
    wp (checkReconnectSecret H old)
      (fun ok w' => ok = true ∧ ∃ c, CryptSession.Holds d κ c ∧ w' = H.setProto ((H.proto w).setHs c) w) E w := by
  obtain ⟨hret, htype, hinited, hcipher⟩ := setup_new hc hnew
  obtain ⟨c, hswap, hholds⟩ := swapSecret_holds hc hold.proper htype hinited hcipher
  obtain ⟨⟨pad, hback, -⟩, ⟨-, houtne⟩, -⟩ := hsealed
  unfold checkReconnectSecret
  simp only [wp_bind, wp_get, hext, Deal.reconnReq, Option.getD_some, hold.type, wp_ite, wp_modify, proto_setProto, setProto_setProto]
  simp only [hold.secret, hswap, hret, setHs_twice]
  refine ⟨fun hdiffer => absurd rfl hdiffer, fun _ => ⟨fun hneg => absurd hneg (lt_irrefl 0), fun _ =>
    ⟨fun hnil => absurd hnil hc.type.1, fun _ => ⟨fun hneg => absurd hneg (lt_irrefl 0), fun _ => ?_⟩⟩⟩⟩
  refine wp_decryptData_keyed hc (by rw [proto_setProto]; exact hopen) hholds houtne hback ?_
  refine ⟨decide_eq_true ⟨rfl, ?_, ?_⟩, c, hholds, rfl⟩
  · rw [hholds.secret, List.length_append]
    exact Nat.le_add_right _ _
  · rw [hholds.secret, List.take_left]

/-- **`check_reconnect`** passes where the old object reads with the key. -/
theorem wp_checkReconnect_deal (hc : H.ext.Ciphers d) (hknown : d.switchType.Known) (hopen : (H.proto w).flags.closing = false)
    (hnew : (H.proto w).hs.isInited = false) (hdata : (H.proto w).handshake.hasData = false)
    (hctx : (H.proto w).handshake.dhCtx = []) {old : Proto} (hold : old.reconnectCrypt.Holds d κ)
    (hconf : old.reconnectCrypt.sharedConf = some g) (hg : g.Names d) {out : Bytes} (hsealed : H.ext.Sealed κ κ.secret out)
    (hext : (H.proto w).handshake.extData = some (d.reconnReq id out)) :
    wp (checkReconnect H old)
      (fun ok w' => ok = true ∧ ∃ c, CryptSession.Holds d κ c ∧ H.Turned ((H.proto w).voice.reconnected c g old.sessionId) w w') E w := by
  unfold checkReconnect
  simp only [wp_bind, wp_get, wp_ite, hopen]
  refine ⟨fun hc => absurd hc Bool.false_ne_true, fun _ => ?_⟩
  refine wp_post (wp_checkReconnectSecret_deal hc hopen hnew hold hsealed hext) fun ok w' ⟨hok, c, hholds, hw'⟩ => ?_
  subst hw' hok
  obtain ⟨-, hready, hline⟩ := setupHandshake_voice H.ext (p := { (H.proto w).setHs c with sessionId := old.sessionId }) hdata hctx hg hknown
  simp only [wp_modify, wp_setupHandshake, wp_pure, hconf, proto_setProto, setProto_setProto]
  generalize ({ (H.proto w).setHs c with sessionId := old.sessionId } : Proto).setupHandshake H.ext (some g) = r at hready hline
  refine ⟨fun _ => ⟨trivial, c, hholds, .of hline ?_⟩, fun hno => absurd trivial hno⟩
  rw [voice_writeHs, voice_readHs, hready]
  rfl

end Host

section handlers

variable {e : PeersEnv} {r : Role} {w₀ w w' : Peers} {payloads : List Bytes} {v v' : Voice} {cur : Option CryptGlobal} {st : List ℤ}
  {d : Deal} {id : UInt64} {g : CryptGlobal} {κ : Key}

/-- the owner of the server knows an old session with the id, whose object reads with the key -/
def PeersEnv.Knows (e : PeersEnv) (d : Deal) (id : UInt64) (κ : Key) : Prop :=
  ∃ old, e.old = some old ∧ old.sessionId = id ∧ old.reconnectCrypt.Keyed d κ

/-- the owner of the server lets the old session go on -/
theorem reconnectFn_phase (hd : e.ext.Serves d) (h : Peers.At e.ext.hash r w₀ payloads v cur st w) (hv : v.Resting d none)
    {old : Proto} (hold : old.reconnectCrypt.Keyed d κ) {out : Bytes} (hsealed : e.ext.Sealed κ κ.secret out)
    (hext : v.handshake.extData = some (d.reconnReq old.sessionId out)) :
    wp (Peers.reconnectFn e r old old.sessionId)
      (fun ret w' => ret = 0 ∧ ∃ v', v'.Running d old.sessionId none ∧
        (d.switchType = .EN_SST_DIRECT ∧ v'.handshake.dhCtx = [] ∨ d.switchType = .EN_SST_DH ∨ d.switchType = .EN_SST_ECDH) ∧
        v'.cryptRead = some v'.cryptHandshake ∧ v'.cryptWrite = some v'.cryptHandshake ∧ v'.hs.Keyed d κ ∧
        Peers.At e.ext.hash r w₀ payloads v' cur st w') Deep w := by
  have hvoice := h.voice
  subst hvoice
  obtain ⟨g, hconf, hg⟩ := hold.conf
  have hnew : (w r).proto.hs.isInited = false := congrArg CryptSession.isInited hv.ends
  unfold Peers.reconnectFn
  rw [if_pos rfl, wp_bind]
  refine wp_post (Host.wp_checkReconnect_deal (H := Peers.hostWith e r none) hd.ciphers hd.known h.closing hnew hv.data hv.dhCtx
    hold.toHolds hconf hg hsealed hext) fun ok w' ⟨hok, c, hholds, hturned⟩ => ?_
  subst hok
  have hat : Peers.At e.ext.hash r w₀ payloads ((w r).proto.voice.reconnected c g old.sessionId) cur st w' := h.turned hturned
  refine ⟨rfl, (w r).proto.voice.reconnected c g old.sessionId, ⟨hv.done, rfl, rfl, hg.switchType, rfl, hv.index⟩, ?_, rfl, rfl, ?_, hat⟩
  · by_cases hswitch : d.switchType = .EN_SST_DIRECT
    · exact .inl ⟨hswitch, if_pos (hg.switchType.trans hswitch)⟩
    · exact .inr (Deal.dh_cases hd hswitch)
  · rw [Voice.hs_reconnected]
    exact hholds.keyed hg

theorem Deal.reconnReq_short (hd : e.ext.Serves d) (id : UInt64) {out : Bytes} (hlen : out.length ≤ 2 ^ 16) : (d.reconnReq id out).Short :=
  ⟨trivial, trivial, hd.ciphers.type.2.1, hlen⟩

theorem Deal.reconnRsp_short (hd : e.ext.Serves d) : (d.reconnRsp id).Short := ⟨trivial, hd.known, hd.ciphers.type.2.1, Nat.zero_le _⟩

/-- **The request** is answered under the old key, which is updated at once. -/
theorem reconnReq_phase (hd : e.ext.Serves d) (hagrees : e.ext.Agrees d g.sharedDhContext) (hid : id ≠ 0) (hg : g.Offering d)
    (h : Peers.At e.ext.hash r w₀ payloads v (some g) st w) (hv : v.Resting d none) (hknows : e.Knows d id κ) {out : Bytes}
    (hsealed : e.ext.Sealed κ κ.secret out) :
    wp (dispatchHandshakeReconnReq (Peers.host e r) (d.reconnReq id out))
      (fun ret w' => ret = 0 ∧ ∃ v' φ param, v'.In d id φ ∧ Offers e.ext d (some κ) φ param ∧
        Peers.At e.ext.hash r w₀ (payloads ++ [e.ext.build (handshakeMsg .EN_MTT_HANDSHAKE (d.reconnRsp id))] ++
          [e.ext.build (handshakeMsg .EN_MTT_POST_KEY_SYN (d.startRsp id param))]) v' (some g) (st ++ [0]) w') Deep w := by
  have hvoice := h.voice
  subst hvoice
  obtain ⟨old, hold, rfl, hkey⟩ := hknows
  have hfn : (Peers.host e r).reconnectFn = some (Peers.reconnectFn e r old) := by
    rw [show (Peers.host e r).reconnectFn = e.old.map (Peers.reconnectFn e r) from rfl, hold, Option.map_some]
  unfold dispatchHandshakeReconnReq
  rw [hfn]
  simp only [wp_bind, Host.wp_modify]
  have hat := h.set (s := { w r with proto := (w r).proto.setHandshake { (w r).proto.handshake with
    extData := some (d.reconnReq old.sessionId out) } }) rfl rfl h.current ⟨rfl, rfl, rfl, rfl⟩ rfl
  refine wp_post (reconnectFn_phase hd hat { hv with } hkey hsealed rfl)
    fun ret w' ⟨hret, v', hrun, hswitch, hread, hwrite, hkey', hat'⟩ => ?_
  have hvoice := hat'.voice
  subst hvoice hret
  have hbody : d.reconnRsp old.sessionId =
      { sessionId := (w' r).proto.sessionId, step := .EN_HST_RECONNECT_RSP, switchType := (w' r).proto.handshake.switchSecretType,
        cryptType := some (w' r).proto.hs.type, cryptParam := none } := by
    rw [show (w' r).proto.sessionId = old.sessionId from hrun.sessionId,
      show (w' r).proto.handshake.switchSecretType = d.switchType from hrun.switchType, show (w' r).proto.hs.type = d.type from hkey'.type]
    rfl
  simp only [Host.wp_get, wp_ite, wp_bind, wp_pure, if_true]
  refine ⟨fun hno => absurd rfl hno, fun _ => ?_⟩
  rw [← hbody]
  refine wp_post (hat'.writeHandshake hd.reliable List.mem_cons_self (Deal.reconnRsp_short hd)) fun ret u ⟨hret, hsent⟩ => ?_
  subst hret
  refine wp_post (hsent.closeHandshake hrun.data hrun.update (by rw [hrun.switchType]; exact hswitch)) fun _ u' hclosed => ?_
  refine wp_post (keySyn_phase hd hagrees hid hg hclosed (Voice.settles hrun hread hwrite hkey')) fun ret u'' ⟨hret, hoffer⟩ => ?_
  subst hret
  exact ⟨fun hno => absurd rfl hno, fun _ => ⟨rfl, hoffer⟩⟩

/-- **The answer** settles the client on the key of its old session. -/
theorem reconnRsp_phase (hd : e.ext.Serves d) (hid : id ≠ 0) (h : Peers.At e.ext.hash r w₀ payloads v cur st w)
    (hcur : ∀ g ∈ cur, g.Following) (hv : v.Resuming d κ) :
    wp (dispatchHandshakeReconnRsp (Peers.host e r) (d.reconnRsp id))
      (fun ret w' => ret = 0 ∧ ∃ v' cur', (∀ g ∈ cur', CryptGlobal.Following g) ∧ v'.In d id (.settled κ) ∧
        Peers.At e.ext.hash r w₀ payloads v' cur' (st ++ [0]) w') Deep w := by
  have hvoice := h.voice
  subst hvoice
  obtain ⟨-, g, hconf, hproper, hg⟩ := confBehind_deal (d.reconnRsp id) hd.ciphers hd.known hcur rfl rfl
  obtain ⟨hret, hready, hline⟩ := setupHandshake_voice e.ext (p := (w r).proto) hv.data hv.dhCtx hg hd.known
  rw [← h.current] at hconf
  unfold dispatchHandshakeReconnRsp
  simp only [wp_bind, wp_ite, wp_pure, Host.wp_followServerConf, Host.wp_modify, reloaded_peers, hconf, Function.update_self,
    Function.update_idem, hret]
  refine ⟨fun hno => absurd hno hid, fun _ => ⟨fun hneg => absurd hneg (lt_irrefl 0), fun _ => ?_⟩⟩
  generalize ((w r).proto.setupHandshake e.ext (some g)).2 = p at hready hline
  set v' : Voice := { ((w r).proto.voice.ready g).readHs.writeHs with sessionId := id } with hv'
  have hnamed : Proto.voice { p.readHs.writeHs with sessionId := id } = v' := by
    rw [hv', ← hready]
    rfl
  have hat := h.set (s := { w r with proto := { p.readHs.writeHs with sessionId := id }, current := some g }) hline hnamed rfl
    ⟨rfl, rfl, rfl, rfl⟩ rfl
  have hrun : v'.Running d id none := ⟨hv.done, rfl, rfl, hg.switchType, rfl, hv.index⟩
  have hkey : v'.hs.Keyed d κ := by
    rw [show v'.hs = ((w r).proto.voice.ready g).hs from rfl, Voice.hs_ready]
    exact hv.holds.keyed hg
  have hswitch : v'.handshake.switchSecretType = .EN_SST_DIRECT ∧ v'.handshake.dhCtx = [] ∨
      v'.handshake.switchSecretType = .EN_SST_DH ∨ v'.handshake.switchSecretType = .EN_SST_ECDH := by
    by_cases hdirect : d.switchType = .EN_SST_DIRECT
    · exact .inl ⟨hg.switchType.trans hdirect, if_pos (hg.switchType.trans hdirect)⟩
    · exact .inr ((Deal.dh_cases hd hdirect).imp hg.switchType.trans hg.switchType.trans)
  exact wp_post (hat.closeHandshake rfl rfl hswitch) fun _ u hclosed =>
    ⟨trivial, _, some g, fun g' hg' => Option.some.inj hg' ▸ hproper, Voice.settles hrun rfl rfl hkey, hclosed⟩

/-- **A client comes back** with the id and the secret of its old session. -/
theorem reconnectSession_phase (hd : e.ext.Serves d) (h : Peers.At e.ext.hash r w₀ payloads v cur st w) (hv : v.Resting d none)
    (hdirect : v.handshake.switchSecretType = .EN_SST_DIRECT) (hκ : d.key κ.secret = κ) :
    wp (reconnectSession (Peers.host e r) id d.type κ.secret)
      (fun _ w' => ∃ v' out, v'.Resuming d κ ∧ e.ext.Sealed κ κ.secret out ∧
        Peers.At e.ext.hash r w₀ (payloads ++ [e.ext.build (handshakeMsg .EN_MTT_HANDSHAKE (d.reconnReq id out))]) v' cur st w')
      Deep w := by
  have hvoice := h.voice
  subst hvoice
  have hnew : (w r).proto.hs.isInited = false := congrArg CryptSession.isInited hv.ends
  obtain ⟨c, hresume, hholds⟩ := resume_holds hd.ciphers hκ hnew
  obtain ⟨out, hout, hsealed⟩ := sealed_secret hd.ciphers hκ
  have hdirect' : (w r).proto.handshake.switchSecretType = .EN_SST_DIRECT := hdirect
  unfold reconnectSession
  simp only [wp_bind, Host.wp_get, wp_ite, wp_pure, h.closing, hresume, Host.wp_modify]
  refine ⟨fun hc => absurd hc Bool.false_ne_true, fun _ => ⟨fun hc => absurd hc Bool.false_ne_true, fun _ =>
    ⟨fun hneg => absurd hneg (lt_irrefl 0), fun _ => ?_⟩⟩⟩
  have hat := h.set (s := { w r with proto := (w r).proto.setHs c }) rfl rfl h.current ⟨rfl, rfl, rfl, rfl⟩ rfl
  refine Host.wp_encryptData_keyed (H := Peers.host e r) hd.ciphers hat.closing hholds hsealed.some.1 hout ?_
  have hbody : d.reconnReq id out =
      { sessionId := id, step := .EN_HST_RECONNECT_REQ,
        switchType := (Function.update w r { w r with proto := (w r).proto.setHs c } r).proto.handshake.switchSecretType,
        cryptType := some d.type, cryptParam := some out } := by
    rw [Function.update_self, setHs_handshake, hdirect']
    rfl
  rw [← hbody]
  refine wp_post (hat.writeHandshake hd.reliable List.mem_cons_self (Deal.reconnReq_short hd id hsealed.short))
    fun _ w' ⟨_, hsent⟩ => ⟨_, out, ?_, hsealed, hsent⟩
  exact ⟨hv.done, hv.data, hv.dhCtx, hv.index, (Voice.hs_setHs (w r).proto.voice c).symm ▸ hholds⟩

end handlers

end AtFrame
