/-
What one handshake message does to the side that gets it.

Each theorem takes a side whose object is in a phase and gives the phase it goes to, the message it answers with and what its
owner is told.

- `startReq_phase`, `keySyn_phase`: a handshake starts, from the client or by an update of the server;
- `startRsp_direct_phase`, `verify_direct_phase`: the server's key is taken as it is;
- `startRsp_dh_phase`, `pubkeyReq_phase`, `pubkeyRsp_phase`, `verify_dh_phase`: the DH exchange.
-/
import AtFrame.Inner.Phases

namespace AtFrame

open AtFrame.Lib

section handlers

variable {e : PeersEnv} {r : Role} {w₀ w w' : Peers} {payloads : List Bytes} {v v' : Voice} {cur : Option CryptGlobal} {st : List ℤ}
  {d : Deal} {id : UInt64} {old : Option Key} {g : CryptGlobal} {κ : Key}

/-! ## A handshake starts -/

/-- the configuration of a server -/
structure CryptGlobal.Offering (g : CryptGlobal) (d : Deal) : Prop extends g.Names d where
  clientMode : g.conf.clientMode = false

/-- the server gets `start_req` -/
theorem startReq_phase (hd : e.ext.Serves d) (hagrees : e.ext.Agrees d g.sharedDhContext) (hid : e.newId ≠ 0) (hg : g.Offering d)
    (h : Peers.At e.ext.hash r w₀ payloads v (some g) st w) (hv : v.Resting d none) {body : HandshakeBody} {cryptTypes : Bytes}
    (hoffered : body.cryptType = some cryptTypes) (hne : cryptTypes ≠ [])
    (hselect : selectCryptType (some g) (e.ext.ciphertok cryptTypes) = some d.type) :
    wp (dispatchHandshakeStartReq (Peers.host e r) body)
      (fun ret w' => ret = 0 ∧ ∃ v' φ param, v'.In d e.newId φ ∧ Offers e.ext d none φ param ∧
        Peers.At e.ext.hash r w₀ (payloads ++ [e.ext.build (handshakeMsg .EN_MTT_HANDSHAKE (d.startRsp e.newId param))]) v' (some g) st
          w') Deep w := by
  have hvoice := h.voice
  subst hvoice
  obtain ⟨hret, hready, hline⟩ :=
    setupHandshake_voice e.ext (p := (w r).proto) hv.data hv.dhCtx hg.toNames hd.known
  rw [← h.current] at hret hready hline hselect ⊢
  unfold dispatchHandshakeStartReq
  rw [hoffered, Option.getD_some]
  simp only [wp_bind, Host.wp_get, wp_ite, wp_pure, Host.wp_getCurrent, Host.wp_setupHandshake, h.closing, hret, if_neg hne]
  refine ⟨fun hc => absurd hc Bool.false_ne_true, fun _ => ⟨fun hneg => absurd hneg (lt_irrefl 0), fun _ => ?_⟩⟩
  rw [hselect]
  simp only [wp_bind, Host.wp_get, wp_pure, Host.wp_modify, Function.update_self, Function.update_idem]
  generalize ((w r).proto.setupHandshake e.ext (w r).current).2 = p at hready hline
  have hnew : Voice.Resting d none { (w r).proto.voice with sessionId := e.newId } := { hv with }
  have hrenew : Voice.renewHs { (w r).proto.voice with sessionId := e.newId } = { (w r).proto.voice with sessionId := e.newId } :=
    if_neg (by rw [show Voice.hs { (w r).proto.voice with sessionId := e.newId } = {} from hv.ends]; exact Bool.false_ne_true)
  have hstart := hnew.starting rfl hg.toNames
  rw [hrenew] at hstart
  have hnamed : Proto.voice { p with sessionId := e.newId } = { (w r).proto.voice.ready g with sessionId := e.newId } := by
    rw [← hready]
    rfl
  have hat := h.set (s := { w r with proto := { p with sessionId := e.newId } }) hline hnamed rfl ⟨rfl, rfl, rfl, rfl⟩ rfl
  exact sendStartRsp_phase hd hagrees hid hat hstart List.mem_cons_self

/-- the server updates the key of a session -/
theorem keySyn_phase (hd : e.ext.Serves d) (hagrees : e.ext.Agrees d g.sharedDhContext) (hid : id ≠ 0) (hg : g.Offering d)
    (h : Peers.At e.ext.hash r w₀ payloads v (some g) st w) (hv : v.In d id (.settled κ)) :
    wp (sendKeySyn (Peers.host e r))
      (fun ret w' => ret = 0 ∧ ∃ v' φ param, v'.In d id φ ∧ Offers e.ext d (some κ) φ param ∧
        Peers.At e.ext.hash r w₀ (payloads ++ [e.ext.build (handshakeMsg .EN_MTT_POST_KEY_SYN (d.startRsp id param))]) v' (some g) st
          w') Deep w := by
  have hvoice := h.voice
  subst hvoice
  obtain ⟨hrest, hname⟩ := hv
  obtain ⟨hread, hwrite, hkey⟩ := hrest.ends
  have hkey' : (w r).proto.hs.Keyed d κ := hkey
  have hrenew : (w r).proto.voice.renewHs = (w r).proto.newHs.voice := if_pos hkey.shared
  obtain ⟨hret, hready, hline⟩ :=
    setupHandshake_voice e.ext (p := (w r).proto.newHs) hrest.data hrest.dhCtx hg.toNames hd.known
  have htype : (w r).proto.hs.type ≠ [] := by
    rw [hkey'.type]
    exact hd.ciphers.type.1
  have hwrite' : (w r).proto.cryptWrite.isNone = false := by
    rw [show (w r).proto.cryptWrite = some (w r).proto.cryptHandshake from hwrite]
    rfl
  have hdata : (w r).proto.handshake.hasData = false := hrest.data
  unfold sendKeySyn
  simp only [wp_bind, Host.wp_get, wp_ite, wp_pure, Host.wp_modify, Host.wp_getCurrent, Host.wp_setupHandshake, h.closing, hwrite',
    hdata, h.current, Function.update_self, Function.update_idem, hret]
  refine ⟨fun hc => absurd hc Bool.false_ne_true, fun _ => ⟨fun hc => absurd hc htype, fun _ => ⟨fun hc => ?_, fun _ =>
    ⟨fun hc => absurd hc Bool.false_ne_true, fun _ => ⟨fun hneg => absurd hneg (lt_irrefl 0), fun _ => ?_⟩⟩⟩⟩⟩
  · rcases hc with hc | hc
    · exact absurd hc Bool.false_ne_true
    · exact absurd hc Bool.false_ne_true
  · simp only [hg.clientMode]
    refine ⟨fun hc => absurd hc Bool.false_ne_true, fun _ => ?_⟩
    generalize ((w r).proto.newHs.setupHandshake e.ext (some g)).2 = p at hready hline
    have hstart := hrest.starting hname hg.toNames
    rw [hrenew] at hstart
    have hid' : p.sessionId = id := by
      rw [← hname]
      exact congrArg Voice.sessionId hready
    rw [hid', hkey'.type]
    have hat := h.set (s := { w r with proto := p, current := some g }) hline hready rfl ⟨rfl, rfl, rfl, rfl⟩ rfl
    exact sendStartRsp_phase hd hagrees hid hat hstart (List.mem_cons_of_mem _ List.mem_cons_self)

/-- an update while a handshake runs, or before there is one, does nothing -/
theorem keySyn_idle (hidle : (w r).proto.hs.type = [] ∨ (w r).proto.handshake.hasData = true) :
    wp (sendKeySyn (Peers.host e r)) (fun _ w' => w' = w) Deep w := by
  unfold sendKeySyn
  simp only [wp_bind, Host.wp_get, wp_ite, wp_pure]
  refine ⟨fun _ => trivial, fun _ => ⟨fun _ => trivial, fun htype => ⟨fun _ => trivial, fun _ => ⟨fun _ => trivial, fun hdata => ?_⟩⟩⟩⟩
  rcases hidle with h | h
  · exact absurd h htype
  · exact absurd h hdata

/-! ## The client gets a start response -/

/-- the body of `verify` -/
def Deal.verify (d : Deal) (id : UInt64) (text : Bytes) : HandshakeBody where
  sessionId := id
  step := .EN_HST_VERIFY
  switchType := d.switchType
  cryptType := some []
  cryptParam := some text

theorem Deal.verify_short (hd : e.ext.Serves d) (id : UInt64) {text : Bytes} (hlen : text.length ≤ 2 ^ 16) : (d.verify id text).Short :=
  ⟨trivial, hd.known, Nat.zero_le _, hlen⟩

theorem voice_renewHs (p : Proto) : p.renewHs.voice = p.voice.renewHs := by
  unfold Proto.renewHs Voice.renewHs
  rw [voice_hs]
  split_ifs <;> rfl

theorem line_renewHs (p : Proto) : p.renewHs.line = p.line := by
  unfold Proto.renewHs
  split_ifs <;> rfl

theorem renewHs_handshake (p : Proto) : p.renewHs.handshake = p.handshake := by
  unfold Proto.renewHs
  split_ifs <;> rfl

/-- `dispatch_handshake_start_rsp` where the handshake can be set up -/
theorem Host.wp_startRsp {W : Type} {H : Host W} {E : Fault → W → Prop} {w : W} {Q : ℤ → W → Prop} {body : HandshakeBody}
    (hid : body.sessionId ≠ 0) (hdata : (H.proto w).handshake.hasData = false) {p : Proto}
    (hsetup : ((H.proto w).startRspProto body).setupHandshake H.ext (confBehind H.ext (H.current w) body) = (0, p))
    (hQ : wp (takeStartRsp H body (confMismatch (H.current w) (body.cryptType.getD []) body.switchType).2) Q E
      (H.setProto p (H.reloaded body (H.setProto ((H.proto w).startRspProto body) w)))) :
    wp (dispatchHandshakeStartRsp H body) Q E w := by
  unfold dispatchHandshakeStartRsp
  simp only [wp_bind, wp_get, wp_ite, wp_pure, wp_modify, proto_setProto, setProto_setProto, hdata]
  refine ⟨fun hno => absurd hno hid, fun _ => ⟨fun hc => absurd hc Bool.false_ne_true, fun _ => ?_⟩⟩
  rw [← Proto.startRspProto, wp_followServerConf]
  simp only [current_setProto, proto_setProto, hsetup]
  exact ⟨fun hneg => absurd hneg (lt_irrefl 0), fun _ => hQ⟩

theorem reloaded_peers (body : HandshakeBody) :
    (Peers.host e r).reloaded body w = Function.update w r { w r with current := confBehind e.ext (w r).current body } := by
  unfold Host.reloaded confBehind
  cases reloadedConf (Peers.host e r).ext ((Peers.host e r).current w) body with
  | none => exact (Function.update_eq_self r w).symm
  | some g => rfl

/-- the response is accepted and the handshake set up -/
theorem startRsp_setup (hd : e.ext.Serves d) (hid : id ≠ 0) (h : Peers.At e.ext.hash r w₀ payloads v cur st w)
    (hcur : ∀ g ∈ cur, g.Following) (hv : v.Resting d old) {param : Bytes} {Q : ℤ → Peers → Prop}
    (hQ : ∀ v' g w', g.Following → v'.Starting d id old g → Peers.At e.ext.hash r w₀ payloads v' (some g) st w' →
      wp (takeStartRsp (Peers.host e r) (d.startRsp id param) d.type) Q Deep w') :
    wp (dispatchHandshakeStartRsp (Peers.host e r) (d.startRsp id param)) Q Deep w := by
  have hvoice := h.voice
  subst hvoice
  have hdata : (w r).proto.handshake.hasData = false := hv.data
  obtain ⟨htype, g, hconf, hproper, hnames⟩ :=
    confBehind_deal (d.startRsp id param) hd.ciphers hd.known hcur rfl rfl
  obtain ⟨p, hsetup, hstart, hline⟩ : ∃ p, ((w r).proto.startRspProto (d.startRsp id param)).setupHandshake e.ext (some g) = (0, p) ∧
      p.voice.Starting d id old g ∧ p.line = (w r).proto.line := by
    have hnew : Voice.Resting d old { (w r).proto.voice with sessionId := id } := { hv with }
    have hhs : ((w r).proto.startRspProto (d.startRsp id param)).handshake = (w r).proto.handshake := renewHs_handshake _
    obtain ⟨hret, hready, hline⟩ := setupHandshake_voice e.ext (p := (w r).proto.startRspProto (d.startRsp id param))
      (by rw [hhs]; exact hdata) (by rw [hhs]; exact hv.dhCtx) hnames hd.known
    refine ⟨_, Prod.ext hret rfl, ?_, hline.trans (line_renewHs _)⟩
    rw [hready, Proto.startRspProto, voice_renewHs]
    exact hnew.starting rfl hnames
  rw [← h.current] at hconf htype
  refine Host.wp_startRsp hid hdata (p := p) ?_ ?_
  · rw [hconf]
    exact hsetup
  · rw [htype, reloaded_peers]
    simp only [Function.update_self, Function.update_idem]
    rw [hconf]
    exact hQ p.voice g _ hproper hstart (h.set hline rfl rfl ⟨rfl, rfl, rfl, rfl⟩ rfl)

/-- `dispatch_handshake_start_rsp` behind the setup of the session -/
def Host.takeSwitch {W : Type} (H : Host W) (body : HandshakeBody) (param : Bytes) : SwitchSecret → Prog Fault W ℤ
  | .EN_SST_DIRECT => startRspDirect H param
  | .EN_SST_DH => startRspDh H body .EN_HST_DH_PUBKEY_REQ
  | .EN_SST_ECDH => startRspDh H body .EN_HST_ECDH_PUBKEY_REQ
  | .other n => do
    H.onError n "unsupported switch type"
    return EN_ECT_HANDSHAKE

theorem Host.wp_takeStartRsp {W : Type} {H : Host W} {E : Fault → W → Prop} {w : W} {Q : ℤ → W → Prop} {body : HandshakeBody}
    (hc : H.ext.Ciphers d) (hg : g.Names d) (hhs : (H.proto w).hs = { sharedConf := some g }) {param : Bytes}
    (hparam : body.cryptParam = some param)
    (hswitch : body.switchType = (H.proto w).handshake.switchSecretType)
    (hQ : ∀ c, CryptSession.Blank d g c → wp (H.takeSwitch body param body.switchType) Q E (H.setProto ((H.proto w).setHs c) w)) :
    wp (takeStartRsp H body d.type) Q E w := by
  obtain ⟨hret, hblank, -⟩ := setup_fresh hc hg hhs
  unfold takeStartRsp
  simp only [wp_bind, wp_get, wp_modify, wp_ite, proto_setProto, setProto_setProto, hparam]
  generalize CryptSession.setup H.ext (H.proto w).hs d.type = s at hret hblank
  refine ⟨fun hplain => ?_, fun _ => ?_⟩
  · rcases hplain with h | h
    · exact absurd h hc.type.1
    · rw [hret] at h
      exact absurd h (lt_irrefl 0)
  · have hsame : ((H.proto w).setHs s.2).setHandshake
        { ((H.proto w).setHs s.2).handshake with switchSecretType := body.switchType } = (H.proto w).setHs s.2 := by
      rw [hswitch]
      rfl
    rw [hsame]
    exact hQ s.2 hblank

theorem Voice.settles (hrun : v.Running d id old) (hread : v.cryptRead = some v.cryptHandshake)
    (hwrite : v.cryptWrite = some v.cryptHandshake) (hkey : v.hs.Keyed d κ) : v.finished.In d id (.settled κ) := by
  have hhs : v.finished.hs = { v.hs with param := [] } := Function.update_self ..
  refine ⟨⟨rfl, rfl, rfl, hrun.index, hread, hwrite, ?_⟩, hrun.sessionId⟩
  rw [hhs]
  exact hkey.setParam []

/-- `verify` is sent with a text that may be empty -/
theorem sendVerify_phase (hd : e.ext.Serves d) (h : Peers.At e.ext.hash r w₀ payloads v cur st w) {c : ℕ}
    (hwrite : v.cryptWrite = some c) (hkey : (v.crypts c).Keyed d κ) (hswitch : v.handshake.switchSecretType = d.switchType)
    (text out : Bytes) (hout : if text = [] then out = [] else e.ext.encrypt κ.cipher text = .ok out) (hlen : out.length ≤ 2 ^ 16) :
    wp (sendVerify (Peers.host e r) text)
      (fun ret w' => ret = 0 ∧ Peers.At e.ext.hash r w₀
        (payloads ++ [e.ext.build (handshakeMsg .EN_MTT_HANDSHAKE (d.verify v.sessionId out))]) v cur st w') Deep w := by
  have hvoice := h.voice
  subst hvoice
  have hwrite' : (w r).proto.cryptWrite = some c := hwrite
  have hswitch' : (w r).proto.handshake.switchSecretType = d.switchType := hswitch
  have hsent := h.writeHandshake hd.reliable List.mem_cons_self (Deal.verify_short hd (w r).proto.sessionId hlen)
  unfold sendVerify
  simp only [wp_bind, Host.wp_get, wp_ite, wp_pure, h.closing, hwrite']
  refine ⟨fun hc => absurd hc Bool.false_ne_true, fun _ => ⟨fun htext => ?_, fun htext => ?_⟩⟩
  · rw [if_pos htext] at hout
    subst hout
    simp only [hswitch', if_true]
    exact hsent
  · rw [if_neg htext] at hout
    refine Host.wp_encryptData_keyed (H := Peers.host e r) hd.ciphers h.closing hkey.toHolds htext hout ?_
    simp only [hswitch']
    exact hsent

theorem Host.wp_startRspDirect {W : Type} {H : Host W} {E : Fault → W → Prop} {w : W} {Q : ℤ → W → Prop} (hc : H.ext.Ciphers d)
    (hblank : (H.proto w).hs.Blank d g) {param : Bytes}
    (hQ : ∀ c w', CryptSession.Keyed d (d.key param) c → H.Turned ((H.proto w).voice.setHs c).readHs.writeHs w w' →
      wp (do closeHandshake H 0; sendVerify H []) Q E w') :
    wp (startRspDirect H param) Q E w := by
  have hblank' : CryptSession.Blank d g { (H.proto w).hs with secret := param } :=
    ⟨hblank.conf, hblank.names, hblank.type, hblank.cipher, hblank.inited⟩
  unfold startRspDirect
  simp only [wp_bind, wp_get, wp_modify, wp_ite, wp_pure, proto_setProto, setProto_setProto, swapOwnSecret_blank hc hblank']
  refine ⟨fun hneg => absurd hneg (lt_irrefl 0), fun _ => ?_⟩
  exact (wp_bind _ _).1 (hQ _ _ (hblank'.keyed param) (.of rfl rfl))

/-- the server's key is taken as it is, and confirmed -/
theorem startRsp_direct_phase (hd : e.ext.Serves d) (hid : id ≠ 0) (h : Peers.At e.ext.hash r w₀ payloads v cur st w)
    (hcur : ∀ g ∈ cur, g.Following) (hv : v.Resting d old) (hswitch : d.switchType = .EN_SST_DIRECT) (input : Bytes) :
    wp (dispatchHandshakeStartRsp (Peers.host e r) (d.startRsp id (d.key input).secret))
      (fun ret w' => ret = 0 ∧ ∃ v' cur', (∀ g ∈ cur', CryptGlobal.Following g) ∧ v'.In d id (.settled (d.key input)) ∧
        Peers.At e.ext.hash r w₀ (payloads ++ [e.ext.build (handshakeMsg .EN_MTT_HANDSHAKE (d.verify id []))]) v' cur' (st ++ [0]) w')
      Deep w := by
  refine startRsp_setup hd hid h hcur hv fun v' g w' hproper hstart hat => ?_
  have hvoice := hat.voice
  subst hvoice
  refine Host.wp_takeStartRsp hd.ciphers hstart.names hstart.hs rfl hstart.switchType.symm fun c hblank => ?_
  rw [show (d.startRsp id (d.key input).secret).switchType = .EN_SST_DIRECT from hswitch, Host.takeSwitch]
  refine Host.wp_startRspDirect (g := g) hd.ciphers (by rw [Host.proto_setProto, Host.hs_setHs]; exact hblank) fun c' w'' hkey hturned => ?_
  rw [d.key_key] at hkey
  rw [Host.proto_setProto, voice_setHs] at hturned
  set v'' : Voice := (((w' r).proto.voice.setHs c).setHs c').readHs.writeHs with hv''
  have hat' : Peers.At e.ext.hash r w₀ payloads v'' (some g) st w'' := (hat.setHs c).turned hturned
  have hrun : v''.Running d id old := { hstart with }
  have hkey' : v''.hs.Keyed d (d.key input) := by
    rw [show v''.hs = c' from Function.update_self ..]
    exact hkey
  have hctx : v''.handshake.dhCtx = [] := hstart.dhCtx.trans (if_pos hswitch)
  simp only [wp_bind]
  refine wp_post (hat'.closeHandshake hrun.data hrun.update (.inl ⟨hrun.switchType.trans hswitch, hctx⟩)) fun _ u hclosed => ?_
  have hsettled := Voice.settles hrun rfl rfl hkey'
  refine wp_post (sendVerify_phase hd hclosed (κ := d.key input) (c := v''.cryptHandshake) rfl
    hsettled.1.ends.2.2 hrun.switchType [] [] rfl (Nat.zero_le _)) fun ret u' ⟨hret, hsent⟩ => ?_
  rw [hsettled.2] at hsent
  exact ⟨hret, _, some g, fun g' hg' => Option.some.inj hg' ▸ hproper, hsettled, hsent⟩

/-- the body of a public key request -/
def Deal.pubkeyReq (d : Deal) (id : UInt64) (pubkey : Bytes) : HandshakeBody where
  sessionId := id
  step := if d.switchType = .EN_SST_ECDH then .EN_HST_ECDH_PUBKEY_REQ else .EN_HST_DH_PUBKEY_REQ
  switchType := d.switchType
  cryptType := some []
  cryptParam := some pubkey

theorem Deal.pubkeyReq_short (hd : e.ext.Serves d) (id : UInt64) {pubkey : Bytes} (hlen : pubkey.length ≤ 2 ^ 16) :
    (d.pubkeyReq id pubkey).Short := by
  refine ⟨?_, hd.known, Nat.zero_le _, hlen⟩
  unfold pubkeyReq
  split_ifs <;> trivial

/-- the parameters are answered with a public key -/
theorem startRsp_dh_phase (hd : e.ext.Serves d) (hid : id ≠ 0) (h : Peers.At e.ext.hash r w₀ payloads v cur st w)
    (hcur : ∀ g ∈ cur, g.Following) (hv : v.Resting d old) (hswitch : d.switchType ≠ .EN_SST_DIRECT) {shared : DhShared} {seed : ℕ}
    {param : Bytes} (htakes : e.ext.Takes d shared seed param) :
    wp (dispatchHandshakeStartRsp (Peers.host e r) (d.startRsp id param))
      (fun ret w' => ret = 0 ∧ ∃ v' cur' n pubkey secret, (∀ g ∈ cur', CryptGlobal.Following g) ∧
        v'.In d id (.answering old (d.key secret)) ∧ e.ext.Exchange shared d.clientShared seed n param pubkey secret ∧
        pubkey.length ≤ 2 ^ 16 ∧
          Peers.At e.ext.hash r w₀ (payloads ++ [e.ext.build (handshakeMsg .EN_MTT_HANDSHAKE (d.pubkeyReq id pubkey))]) v' cur' st w')
      Deep w := by
  refine startRsp_setup hd hid h hcur hv fun v' g w' hproper hstart hat => ?_
  have hvoice := hat.voice
  subst hvoice
  refine Host.wp_takeStartRsp hd.ciphers hstart.names hstart.hs rfl hstart.switchType.symm fun c hblank => ?_
  have htake : ∀ step, step = (d.pubkeyReq id []).step →
      wp (startRspDh (Peers.host e r) (d.startRsp id param) step)
        (fun ret w' => ret = 0 ∧ ∃ v' cur' n pubkey secret, (∀ g ∈ cur', CryptGlobal.Following g) ∧
          v'.In d id (.answering old (d.key secret)) ∧ e.ext.Exchange shared d.clientShared seed n param pubkey secret ∧
          pubkey.length ≤ 2 ^ 16 ∧
            Peers.At e.ext.hash r w₀ (payloads ++ [e.ext.build (handshakeMsg .EN_MTT_HANDSHAKE (d.pubkeyReq id pubkey))]) v' cur' st
              w')
        Deep ((Peers.host e r).setProto ((w' r).proto.setHs c) w') := by
    rintro step rfl
    obtain ⟨pubkey, secret, hexchange, hpubkey⟩ := htakes.2 ((w' r).proto.seed + 1)
    have hctx : ((w' r).proto.setHs c).handshake.dhCtx = [.init d.clientShared] := by
      rw [← hproper.clientShared hstart.names]
      exact hstart.dhCtx.trans (if_neg hswitch)
    unfold startRspDh
    rw [wp_bind]
    refine wp_post (Host.wp_packPubkeyReq_deal (H := Peers.host e r) (g := g) hd.ciphers
      (by rw [Host.proto_setProto, Host.hs_setHs]; exact hblank) (by rw [Host.proto_setProto]; exact hstart.data)
      (by rw [Host.proto_setProto]; exact hexchange) (by rw [Host.proto_setProto]; exact hctx) hid rfl _) fun b w'' hb => ?_
    obtain ⟨c', ctx, hkey, hturned, rfl⟩ := hb
    rw [Host.proto_setProto] at hturned
    have hat' := (hat.setHs c).turned hturned
    refine wp_post (hat'.writeHandshake hd.reliable List.mem_cons_self (Deal.pubkeyReq_short hd id hpubkey)) fun ret u hsent =>
      ⟨hsent.1, _, some g, _, pubkey, secret, fun g' hg' => Option.some.inj hg' ▸ hproper, ?_, hexchange, hpubkey, hsent.2⟩
    refine ⟨⟨hstart.done, hstart.update, hstart.data, rfl, hstart.sessionId, hstart.index⟩, hswitch, ?_, rfl, ?_⟩
    · exact (hstart.read.setHs c).setHs c'
    · change (Voice.setHs ((w' r).proto.setHs c).voice c').hs.Keyed d (d.key secret)
      rw [Voice.hs_setHs]
      exact hkey
  rcases Deal.dh_cases hd hswitch with hdh | hdh
  · rw [show (d.startRsp id param).switchType = .EN_SST_DH from hdh, Host.takeSwitch]
    refine htake _ ?_
    rw [Deal.pubkeyReq, hdh]
    rfl
  · rw [show (d.startRsp id param).switchType = .EN_SST_ECDH from hdh, Host.takeSwitch]
    refine htake _ ?_
    rw [Deal.pubkeyReq, hdh]
    rfl

/-! ## The server gets a public key -/

/-- the body of a public key response -/
def Deal.pubkeyRsp (d : Deal) (id : UInt64) (text : Bytes) : HandshakeBody where
  sessionId := id
  step := if d.switchType = .EN_SST_ECDH then .EN_HST_ECDH_PUBKEY_RSP else .EN_HST_DH_PUBKEY_RSP
  switchType := d.switchType
  cryptType := some []
  cryptParam := some text

theorem Deal.pubkeyRsp_short (hd : e.ext.Serves d) {text : Bytes} (hlen : text.length ≤ 2 ^ 16) : (d.pubkeyRsp id text).Short := by
  refine ⟨?_, hd.known, Nat.zero_le _, hlen⟩
  unfold pubkeyRsp
  split_ifs <;> trivial

/-- a text that was encrypted with the key and fits into a message -/
structure Ext.Sealed (ext : Ext) (κ : Key) (text out : Bytes) : Prop where
  back : ∃ pad, ext.decrypt κ.cipher out = .ok (text ++ pad) ∧ pad.length ≤ 1024
  some : text ≠ [] ∧ out ≠ []
  short : out.length ≤ 2 ^ 16

theorem Host.wp_dhPubkeyReq {W : Type} {H : Host W} {E : Fault → W → Prop} {w : W} {Q : ℤ → W → Prop} (hc : H.ext.Ciphers d)
    (hopen : (H.proto w).flags.closing = false) (hblank : (H.proto w).hs.Blank d g) (hdata : (H.proto w).handshake.hasData = true)
    {srv cli : DhShared} {s n : ℕ} {param pubkey secret : Bytes} (hexchange : H.ext.Exchange srv cli s n param pubkey secret)
    (hctx : (H.proto w).handshake.dhCtx = [.init srv, .makeParams s])
    (hswitch : (H.proto w).handshake.switchSecretType = d.switchType) (hid : (H.proto w).sessionId = id)
    (hQ : ∀ c ctx text out w', CryptSession.Keyed d (d.key secret) c → c.param = text → text.length ≤ 2048 →
      H.ext.Sealed (d.key secret) text out →
      H.Turned { ((H.proto w).voice.setHs c).readHs.writeHs with handshake := { (H.proto w).handshake with dhCtx := ctx } } w w' →
      wp (writeMsg H (handshakeMsg .EN_MTT_HANDSHAKE (d.pubkeyRsp id out))) Q E w') :
    wp (dispatchHandshakeDhPubkeyReq H (d.pubkeyReq id pubkey) (d.pubkeyRsp id []).step) Q E w := by
  have hgiven : (if (H.proto w).handshake.switchSecretType = (d.pubkeyReq id pubkey).switchType then (H.proto w).hs.sharedConf
      else none) = some g := by
    rw [hswitch, show (d.pubkeyReq id pubkey).switchType = d.switchType from rfl, if_pos rfl, hblank.conf]
  unfold dispatchHandshakeDhPubkeyReq
  simp only [wp_bind, wp_get, hgiven, wp_modify]
  set u : W := H.setProto ((H.proto w).setHs { (H.proto w).hs with param := [] }) w with hu
  have hproto : H.proto u = (H.proto w).setHs { (H.proto w).hs with param := [] } := H.proto_setProto _ _
  have hread : wp (readDhPubkey H (d.pubkeyReq id pubkey)) _ E u := wp_readDhPubkey_deal (g := g) hc
    (by rw [hproto, hs_setHs]; exact hblank.setParam []) (by rw [hproto]; exact hdata) hexchange (by rw [hproto]; exact hctx) rfl
  refine wp_post hread fun ret w₁ ⟨hret, c, ctx, hkey, hturned⟩ => ?_
  have hfirst : H.Turned { ((H.proto w).voice.setHs c).readHs.writeHs with handshake := { (H.proto w).handshake with dhCtx := ctx } }
      w w₁ := by
    have hset : H.Turned ((H.proto w).voice.setHs { (H.proto w).hs with param := [] }) w u := .of rfl rfl
    have hboth := hset.trans hturned
    rw [hproto, voice_setHs] at hboth
    simp only [Voice.setHs, Function.update_idem] at hboth
    exact hboth
  have hhs : (H.proto w₁).hs = c := by
    rw [← voice_hs, hfirst.voice]
    exact Voice.hs_setHs (H.proto w).voice c
  have hverify : wp (packVerifyText H g) _ E w₁ := wp_packVerifyText_deal hc
    (by rw [hfirst.closing]; exact hopen) secret (by rw [hhs]; exact hkey) g
  rw [hret]
  simp only [if_true]
  refine wp_post hverify fun b w₂ hb => ?_
  obtain ⟨text, out, pad, htext, rfl, hout, hback, htextne, hpad, houtne, hturned₂⟩ := hb
  rw [hfirst.voice, hhs] at hturned₂
  have hlast := hfirst.trans hturned₂
  simp only [Voice.setHs, Voice.readHs, Voice.writeHs, Function.update_idem] at hlast
  have hname : (H.proto w₂).sessionId = id := by
    rw [← hid]
    exact congrArg Voice.sessionId hlast.voice
  simp only [if_true, hname]
  exact hQ { c with param := text } ctx text out w₂ (hkey.setParam text) rfl htext
    ⟨⟨pad, hback, hpad⟩, ⟨htextne, houtne⟩, hout.trans (by norm_num)⟩ hlast

/-- the public key is answered with a text under the new key -/
theorem pubkeyReq_phase (hd : e.ext.Serves d) (h : Peers.At e.ext.hash r w₀ payloads v cur st w) {shared cli : DhShared} {seed n : ℕ}
    (hv : v.In d id (.awaiting old shared seed)) {param pubkey secret : Bytes}
    (hexchange : e.ext.Exchange shared cli seed n param pubkey secret) :
    wp (dispatchHandshakeDhPubkeyReq (Peers.host e r) (d.pubkeyReq id pubkey) (d.pubkeyRsp id []).step)
      (fun ret w' => ret = 0 ∧ ∃ v' text out, text.length ≤ 2048 ∧ v'.In d id (.verifying old (d.key secret) text) ∧
        e.ext.Sealed (d.key secret) text out ∧
        Peers.At e.ext.hash r w₀ (payloads ++ [e.ext.build (handshakeMsg .EN_MTT_HANDSHAKE (d.pubkeyRsp id out))]) v' cur st w')
      Deep w := by
  have hvoice := h.voice
  subst hvoice
  obtain ⟨hrun, hswitch, hctx, -, -, g, hblank⟩ := hv
  refine Host.wp_dhPubkeyReq (H := Peers.host e r) hd.ciphers h.closing hblank hrun.data hexchange hctx hrun.switchType hrun.sessionId
    fun c ctx text out w' hkey hparam htext hsealed hturned => ?_
  refine wp_post ((h.turned hturned).writeHandshake hd.reliable List.mem_cons_self (Deal.pubkeyRsp_short hd hsealed.short))
    fun ret u hsent => ⟨hsent.1, _, text, out, htext, ?_, hsealed, hsent.2⟩
  have hhs : Voice.hs { ((w r).proto.voice.setHs c).readHs.writeHs with handshake := { (w r).proto.handshake with dhCtx := ctx } } = c :=
    Voice.hs_setHs (w r).proto.voice c
  refine ⟨⟨hrun.done, hrun.update, hrun.data, hrun.switchType, hrun.sessionId, hrun.index⟩, hswitch, rfl, rfl, ?_, ?_⟩
  · rw [hhs]
    exact hkey
  · rw [hhs]
    exact hparam

/-! ## The text is sent back and checked -/

/-- the answer to a text `out` is the encrypted mix of what it decrypts to -/
def Ext.Answers (ext : Ext) (κ : Key) (text answer : Bytes) : Prop :=
  ∃ random pad pad', ext.decrypt κ.cipher answer = .ok (mixVerify random (text ++ pad) ++ pad')

theorem Host.wp_dhPubkeyRsp {W : Type} {H : Host W} {E : Fault → W → Prop} {w : W} {Q : ℤ → W → Prop} (hc : H.ext.Ciphers d)
    (hopen : (H.proto w).flags.closing = false) (hkey : (H.proto w).hs.Keyed d κ) (hid : id ≠ 0) {out text : Bytes} (hout : out ≠ [])
    (hback : H.ext.decrypt κ.cipher out = .ok text)
    (hQ : ∀ random w', H.Turned (H.proto w).voice.readHs w w' →
      wp (sendVerify H (mixVerify random text)) (fun ret w₁ => wp (closeHandshake H ret) (fun _ => Q ret) E w₁) E w') :
    wp (dispatchHandshakeDhPubkeyRsp H (d.pubkeyRsp id out)) Q E w := by
  have hgiven : (if (d.pubkeyRsp id out).sessionId = 0 then none else (d.pubkeyRsp id out).cryptParam) = some out := if_neg hid
  unfold dispatchHandshakeDhPubkeyRsp
  simp only [hgiven]
  simp only [wp_bind, wp_get]
  refine wp_decryptData_keyed hc hopen hkey.toHolds hout hback ?_
  simp only [wp_ite, wp_bind, wp_pure, wp_modify, wp_get, proto_setProto]
  exact ⟨fun _ => hQ _ _ (.of rfl rfl), fun hfail => absurd rfl hfail⟩

/-- the client sends the text back -/
theorem pubkeyRsp_phase (hd : e.ext.Serves d) (hid : id ≠ 0) (h : Peers.At e.ext.hash r w₀ payloads v cur st w)
    (hv : v.In d id (.answering old κ)) {text out : Bytes} (htext : text.length ≤ 2048) (hsealed : e.ext.Sealed κ text out) :
    wp (dispatchHandshakeDhPubkeyRsp (Peers.host e r) (d.pubkeyRsp id out))
      (fun ret w' => ret = 0 ∧ ∃ v' answer, v'.In d id (.settled κ) ∧ answer ≠ [] ∧ answer.length ≤ 2 ^ 16 ∧
        e.ext.Answers κ text answer ∧
        Peers.At e.ext.hash r w₀ (payloads ++ [e.ext.build (handshakeMsg .EN_MTT_HANDSHAKE (d.verify id answer))]) v' cur (st ++ [0])
          w') Deep w := by
  have hvoice := h.voice
  subst hvoice
  obtain ⟨hrun, hswitch, -, hwrite, hkey⟩ := hv
  obtain ⟨⟨pad, hback, hpad⟩, ⟨htextne, houtne⟩, -⟩ := hsealed
  refine Host.wp_dhPubkeyRsp (H := Peers.host e r) hd.ciphers h.closing hkey hid houtne hback fun random u hturned => ?_
  have hat := h.turned hturned
  have hmix : mixVerify random (text ++ pad) ≠ [] := by
    rw [← List.length_pos_iff, mixVerify_length, List.length_append]
    have := List.length_pos_iff.2 htextne
    omega
  have hfits : (mixVerify random (text ++ pad)).length + 2048 ≤ msgLimit := by
    rw [mixVerify_length, List.length_append, msgLimit]
    omega
  obtain ⟨answer, pad', hanswer, hne, hlen, hread, -⟩ := hd.ciphers.seals hkey.proper hmix hfits
  rw [mixVerify_length, List.length_append] at hlen
  have hshort : answer.length ≤ 2 ^ 16 := by omega
  have hrun' : (w r).proto.voice.readHs.Running d id old := { hrun with }
  have hout : if mixVerify random (text ++ pad) = [] then answer = [] else e.ext.encrypt κ.cipher (mixVerify random (text ++ pad)) =
      .ok answer := by
    rw [if_neg hmix]
    exact hanswer
  refine wp_post (sendVerify_phase hd hat hwrite hkey hrun.switchType _ _ hout hshort)
    fun ret u' hverify => ?_
  obtain ⟨hret, hsent⟩ := hverify
  rw [hret]
  refine wp_post (hsent.closeHandshake hrun.data hrun.update (.inr (Deal.dh_cases hd hswitch |>.imp hrun.switchType.trans
    hrun.switchType.trans))) fun _ u'' hclosed => ⟨rfl, _, answer, Voice.settles hrun' rfl hwrite hkey, hne, hshort,
    ⟨random, pad, pad', hread⟩, ?_⟩
  have hname : (w r).proto.voice.readHs.sessionId = id := hrun.sessionId
  rw [← hname]
  exact hclosed

/-- `dispatch_handshake_verify_ntf` where the check passes -/
theorem judgeVerify_phase (h : Peers.At e.ext.hash r w₀ payloads v cur st w) (hrun : v.Running d id old)
    (hswitch : d.switchType = .EN_SST_DIRECT ∧ v.handshake.dhCtx = [] ∨ d.switchType = .EN_SST_DH ∨ d.switchType = .EN_SST_ECDH)
    (hread : v.cryptRead = some v.cryptHandshake) (hwrite : v.cryptWrite = some v.cryptHandshake) (hkey : v.hs.Keyed d κ)
    {answer : Bytes} (hcheck : wp (checkVerify (Peers.host e r) v.hs (d.verify id answer)) (fun ret w' => ret = 0 ∧ w' = w) Deep w) :
    wp (judgeVerify (Peers.host e r) (d.verify id answer))
      (fun ret w' => ret = 0 ∧ ∃ v', v'.In d id (.settled κ) ∧ Peers.At e.ext.hash r w₀ payloads v' cur (st ++ [0]) w') Deep w := by
  have hvoice := h.voice
  subst hvoice
  have hgiven : (if (w r).proto.handshake.switchSecretType = (d.verify id answer).switchType then (w r).proto.cryptRead else none) =
      some (w r).proto.cryptHandshake := by
    rw [show (w r).proto.handshake.switchSecretType = d.switchType from hrun.switchType]
    exact (if_pos rfl).trans hread
  unfold judgeVerify
  simp only [wp_bind, Host.wp_get, hgiven]
  refine wp_post hcheck fun ret w' ⟨hret, hw'⟩ => ?_
  rw [hw', hret]
  simp only [wp_ite, wp_bind, wp_pure]
  refine ⟨fun _ => ?_, fun hfail => absurd trivial hfail⟩
  refine wp_post (h.closeHandshake hrun.data hrun.update ?_) fun _ u hclosed => ⟨trivial, _, Voice.settles hrun hread hwrite hkey, hclosed⟩
  rw [hrun.switchType]
  exact hswitch

/-- the server takes its own key for reading as well -/
theorem verify_direct_phase (h : Peers.At e.ext.hash r w₀ payloads v cur st w) (hv : v.In d id (.offered old κ)) (answer : Bytes) :
    wp (dispatchHandshakeVerifyNtf (Peers.host e r) (d.verify id answer))
      (fun ret w' => ret = 0 ∧ ∃ v', v'.In d id (.settled κ) ∧ Peers.At e.ext.hash r w₀ payloads v' cur (st ++ [0]) w') Deep w := by
  have hvoice := h.voice
  subst hvoice
  obtain ⟨hrun, hswitch, hctx, -, hwrite, hkey, hparam⟩ := hv
  unfold dispatchHandshakeVerifyNtf
  have hdirect : (w r).proto.directRead (d.verify id answer).switchType = (w r).proto.readHs := if_pos hswitch
  simp only [wp_bind, Host.wp_modify, hdirect]
  have hat : Peers.At e.ext.hash r w₀ payloads (w r).proto.voice.readHs cur st _ :=
    h.set (s := { w r with proto := (w r).proto.readHs }) rfl rfl h.current ⟨rfl, rfl, rfl, rfl⟩ rfl
  have hrun' : (w r).proto.voice.readHs.Running d id old := { hrun with }
  refine judgeVerify_phase hat hrun' (.inl ⟨hswitch, hctx⟩) rfl hwrite hkey ?_
  have hno : ¬ ((w r).proto.voice.readHs.hs.param ≠ [] ∧ (w r).proto.voice.readHs.hs.param.length ≤ answer.length) :=
    fun hc => hc.1 hparam
  unfold checkVerify
  simp only [Deal.verify, wp_ite, wp_pure]
  exact ⟨fun hc => absurd hc hno, fun _ => ⟨trivial, trivial⟩⟩

/-- the server finds its text in the answer -/
theorem verify_dh_phase (hd : e.ext.Serves d) (h : Peers.At e.ext.hash r w₀ payloads v cur st w) {text answer : Bytes}
    (hv : v.In d id (.verifying old κ text)) (hne : answer ≠ []) (hanswer : e.ext.Answers κ text answer) :
    wp (dispatchHandshakeVerifyNtf (Peers.host e r) (d.verify id answer))
      (fun ret w' => ret = 0 ∧ ∃ v', v'.In d id (.settled κ) ∧ Peers.At e.ext.hash r w₀ payloads v' cur (st ++ [0]) w') Deep w := by
  have hvoice := h.voice
  subst hvoice
  obtain ⟨hrun, hswitch, hread, hwrite, hkey, hparam⟩ := hv
  unfold dispatchHandshakeVerifyNtf
  have hdirect : (w r).proto.directRead (d.verify id answer).switchType = (w r).proto := if_neg hswitch
  simp only [wp_bind, Host.wp_modify, hdirect]
  have hself : Function.update w r { w r with proto := (w r).proto } = w := Function.update_eq_self r w
  refine judgeVerify_phase (w := Function.update w r { w r with proto := (w r).proto }) (by rw [hself]; exact h) hrun
    (.inr (Deal.dh_cases hd hswitch)) hread hwrite hkey ?_
  rw [hself]
  obtain ⟨random, pad, pad', hback⟩ := hanswer
  unfold checkVerify
  simp only [Deal.verify, wp_ite, wp_bind, wp_pure]
  refine ⟨fun _ => ?_, fun _ => ⟨trivial, trivial⟩⟩
  refine Host.wp_decryptData_keyed (H := Peers.host e r) hd.ciphers h.closing hkey.toHolds hne hback ?_
  simp only [hparam, verifyHalf_mix, if_true]
  refine ⟨fun hfail => absurd rfl hfail, fun _ => ⟨fun hshort => ?_, fun _ => ⟨trivial, trivial⟩⟩⟩
  rw [List.length_append, mixVerify_length, List.length_append] at hshort
  omega

end handlers

end AtFrame
