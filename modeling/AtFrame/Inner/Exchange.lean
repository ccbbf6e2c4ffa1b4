/-
The DH exchange of a handshake, on the object that runs it.

The client reads the parameters of the server, sends its public key and has the secret; the server reads the public key, has
the same secret and sends a text under the new key, which the client mixes with random bytes and sends back.

- `wp_computeDhSecret_deal`, `wp_readDhPubkey_deal`: both sides set the key of the same secret;
- `wp_packVerifyText_deal`, `verifyHalf_mix`: the text that is sent back passes the check.
-/
import AtFrame.Inner.Keys

namespace AtFrame

open AtFrame.Lib

/-! ## Calls on the DH object -/

/-- the object behind a call -/
def Proto.called (p : Proto) (c : DhCall) : Proto :=
  { p with handshake := { p.handshake with dhCtx := p.handshake.dhCtx ++ [c] }, seed := p.seed + 1 }

theorem dhCall_eq (ext : Ext) (p : Proto) (c : DhCall) : p.dhCall ext c = (ext.dh (p.handshake.dhCtx ++ [c]), p.called c) := rfl

@[simp] theorem called_dhCtx (p : Proto) (c : DhCall) : (p.called c).handshake.dhCtx = p.handshake.dhCtx ++ [c] := rfl
@[simp] theorem called_seed (p : Proto) (c : DhCall) : (p.called c).seed = p.seed + 1 := rfl
@[simp] theorem called_hs (p : Proto) (c : DhCall) : (p.called c).hs = p.hs := rfl
@[simp] theorem called_line (p : Proto) (c : DhCall) : (p.called c).line = p.line := rfl
@[simp] theorem called_voice (p : Proto) (c : DhCall) : (p.called c).voice =
    { p.voice with handshake := { p.handshake with dhCtx := p.handshake.dhCtx ++ [c] } } := rfl
@[simp] theorem setHs_called (p : Proto) (a b : CryptSession) (c : DhCall) :
    ((p.setHs a).called c).setHs b = (p.called c).setHs b := setHs_twice (p.called c) a b
@[simp] theorem setHs_handshake (p : Proto) (c : CryptSession) : (p.setHs c).handshake = p.handshake := rfl
@[simp] theorem setHs_seed (p : Proto) (c : CryptSession) : (p.setHs c).seed = p.seed := rfl

namespace Host

variable {W : Type} {H : Host W} {E : Fault → W → Prop} {w w' : W} {d : Deal} {g : CryptGlobal} {κ : Key} {c : CryptSession}

/-! ## Ciphers -/

theorem wp_encryptData_keyed {Q : ℤ × Bytes → W → Prop} (hc : H.ext.Ciphers d) (hopen : (H.proto w).flags.closing = false)
    (hkey : c.Holds d κ) {x out : Bytes} (hx : x ≠ []) (hout : H.ext.encrypt κ.cipher x = .ok out) (hQ : Q (EN_ECT_SUCCESS, out) w) :
    wp (encryptData H c x) Q E w := by
  have htype : c.type ≠ [] := by rw [hkey.type]; exact hc.type.1
  unfold encryptData
  simp only [wp_bind, wp_get, wp_ite, wp_pure, hopen, hkey.inited, hkey.cipher, hout]
  exact ⟨fun h => absurd h Bool.false_ne_true, fun _ => ⟨fun h => absurd trivial h, fun _ => ⟨fun h => absurd h hx, fun _ =>
    ⟨fun h => absurd h htype, fun _ => hQ⟩⟩⟩⟩

theorem wp_decryptData_keyed {Q : ℤ × Bytes → W → Prop} (hc : H.ext.Ciphers d) (hopen : (H.proto w).flags.closing = false)
    (hkey : c.Holds d κ) {x out : Bytes} (hx : x ≠ []) (hout : H.ext.decrypt κ.cipher x = .ok out) (hQ : Q (EN_ECT_SUCCESS, out) w) :
    wp (decryptData H c x) Q E w := by
  have htype : c.type ≠ [] := by rw [hkey.type]; exact hc.type.1
  unfold decryptData
  simp only [wp_bind, wp_get, wp_ite, wp_pure, hopen, hkey.inited, hkey.cipher, hout]
  exact ⟨fun h => absurd h Bool.false_ne_true, fun _ => ⟨fun h => absurd trivial h, fun _ => ⟨fun h => absurd h hx, fun _ =>
    ⟨fun h => absurd h htype, fun _ => hQ⟩⟩⟩⟩

/-! ## The secret -/

/-- the client computes the secret and writes with its key -/
theorem wp_computeDhSecret_deal (hc : H.ext.Ciphers d) (hblank : (H.proto w).hs.Blank d g)
    (hdata : (H.proto w).handshake.hasData = true) {srv cli : DhShared} {s : ℕ} {param pubkey secret : Bytes}
    (hexchange : H.ext.Exchange srv cli s ((H.proto w).seed + 1) param pubkey secret)
    (hctx : (H.proto w).handshake.dhCtx = [.init cli]) :
    wp (computeDhSecret H param)
      (fun ret w' => ret = 0 ∧ ∃ c ctx, c.Keyed d (d.key secret) ∧ c.param = pubkey ∧
        H.Turned { ((H.proto w).voice.setHs c).writeHs with handshake := { (H.proto w).handshake with dhCtx := ctx } } w w') E w := by
  have hblank' : CryptSession.Blank d g { (H.proto w).hs with param := pubkey, secret := secret } :=
    ⟨hblank.conf, hblank.names, hblank.type, hblank.cipher, hblank.inited⟩
  unfold computeDhSecret
  simp only [wp_bind, wp_get, wp_modify, wp_ite, wp_pure, dhCall_eq, called_dhCtx, called_seed, called_hs, setHs_handshake,
    hctx, List.cons_append, List.nil_append, hexchange.readParams, hexchange.makePublic, hexchange.clientSecret,
    proto_setProto, setProto_setProto, hs_setHs, setHs_twice, setHs_called, swapOwnSecret_blank hc hblank']
  refine ⟨fun h => absurd hdata h, fun _ => ⟨fun h => absurd rfl h, fun _ => ⟨fun h => absurd rfl h, fun _ => ⟨fun h => absurd rfl h,
    fun _ => ⟨fun hfail => absurd hfail (lt_irrefl 0), fun _ => ?_⟩⟩⟩⟩⟩
  refine ⟨trivial, _, (H.proto w).handshake.dhCtx ++ [.readParams param] ++ [.makePublic ((H.proto w).seed + 1)] ++ [.calcSecret],
    hblank'.keyed secret, rfl, .of ?_ ?_⟩
  · simp only [line_writeHs, line_setHs, called_line]
  · simp only [voice_writeHs, voice_setHs, called_voice]
    rfl

/-- `pack_handshake_dh_pubkey_req` of a client -/
theorem wp_packPubkeyReq_deal (hc : H.ext.Ciphers d) (hblank : (H.proto w).hs.Blank d g)
    (hdata : (H.proto w).handshake.hasData = true) {srv cli : DhShared} {s : ℕ} {param pubkey secret : Bytes}
    (hexchange : H.ext.Exchange srv cli s ((H.proto w).seed + 1) param pubkey secret)
    (hctx : (H.proto w).handshake.dhCtx = [.init cli]) {peer : HandshakeBody} (hid : peer.sessionId ≠ 0)
    (hparam : peer.cryptParam = some param) (nextStep : HandshakeStep) :
    wp (packHandshakeDhPubkeyReq H peer nextStep)
      (fun r w' => ∃ c ctx, c.Keyed d (d.key secret) ∧
        H.Turned { ((H.proto w).voice.setHs c).writeHs with
          handshake := { (H.proto w).handshake with switchSecretType := peer.switchType, dhCtx := ctx } } w w' ∧
        r = .ok { sessionId := peer.sessionId, step := nextStep, switchType := peer.switchType, cryptType := some [],
                  cryptParam := some pubkey }) E w := by
  unfold packHandshakeDhPubkeyReq
  rw [hparam]
  simp only [wp_bind, wp_get, wp_modify, wp_ite, wp_pure, proto_setProto, setProto_setProto]
  refine ⟨fun h => ?_, fun _ => ?_⟩
  · rcases h with h | h
    · exact absurd h hid
    · rw [hblank.conf] at h
      exact absurd h Bool.false_ne_true
  · set p : Proto := (H.proto w).setHandshake { (H.proto w).handshake with switchSecretType := peer.switchType } with hp
    set q : Proto := p.setHs { p.hs with param := [] } with hq
    have hproto : H.proto (H.setProto q w) = q := H.proto_setProto _ _
    have hhs : q.hs = { (H.proto w).hs with param := [] } := hs_setHs _ _
    have hdh : wp (computeDhSecret H param) _ E (H.setProto q w) := wp_computeDhSecret_deal hc
      (by rw [hproto, hhs]; exact hblank.setParam []) (by rw [hproto]; exact hdata) (by rw [hproto]; exact hexchange)
      (by rw [hproto]; exact hctx)
    rw [hproto] at hdh
    refine wp_post hdh fun ret w' ⟨hret, c, ctx, hkey, hparam, u, hw', hline, hvoice⟩ => ⟨fun hneg => ?_, fun _ => ?_⟩
    · rw [hret] at hneg
      exact absurd hneg (lt_irrefl 0)
    · rw [hw', setProto_setProto, proto_setProto]
      have hpub : u.hs.param = pubkey := by
        rw [← voice_hs, hvoice, ← hparam]
        exact congrArg CryptSession.param (Voice.hs_setHs q.voice c)
      have hswitch : u.handshake.switchSecretType = peer.switchType := congrArg (fun v => v.handshake.switchSecretType) hvoice
      refine ⟨c, ctx, hkey, .of ?_ ?_, by rw [hpub, hswitch]⟩
      · rw [hline, hproto, hq, line_setHs]
        rfl
      · rw [hvoice, hq, voice_setHs]
        simp only [Voice.setHs, Function.update_idem]
        rfl

/-- the server computes the secret and uses its key in both directions -/
theorem wp_readDhPubkey_deal (hc : H.ext.Ciphers d) (hblank : (H.proto w).hs.Blank d g)
    (hdata : (H.proto w).handshake.hasData = true) {srv cli : DhShared} {s n : ℕ} {param pubkey secret : Bytes}
    (hexchange : H.ext.Exchange srv cli s n param pubkey secret)
    (hctx : (H.proto w).handshake.dhCtx = [.init srv, .makeParams s]) {peer : HandshakeBody}
    (hparam : peer.cryptParam = some pubkey) :
    wp (readDhPubkey H peer)
      (fun ret w' => ret = 0 ∧ ∃ c ctx, c.Keyed d (d.key secret) ∧
        H.Turned { ((H.proto w).voice.setHs c).readHs.writeHs with handshake := { (H.proto w).handshake with dhCtx := ctx } } w w') E
      w := by
  have hblank' : CryptSession.Blank d g { (H.proto w).hs with secret := secret } :=
    ⟨hblank.conf, hblank.names, hblank.type, hblank.cipher, hblank.inited⟩
  unfold readDhPubkey
  rw [hparam]
  simp only [wp_bind, wp_get, wp_modify, wp_ite, wp_pure, dhCall_eq, called_dhCtx, called_hs, hctx, List.cons_append, List.nil_append,
    hexchange.readPublic, hexchange.serverSecret, proto_setProto, setProto_setProto, hs_setHs, setHs_twice,
    swapOwnSecret_blank hc hblank']
  refine ⟨fun h => absurd hdata h, fun _ => ⟨fun h => absurd rfl h, fun _ => ⟨fun h => absurd rfl h,
    fun _ => ⟨fun hfail => absurd hfail (lt_irrefl 0), fun _ => ?_⟩⟩⟩⟩
  refine ⟨trivial, _, (H.proto w).handshake.dhCtx ++ [.readPublic pubkey] ++ [.calcSecret], hblank'.keyed secret, .of ?_ ?_⟩
  · simp only [line_writeHs, line_readHs, line_setHs, called_line]
  · simp only [voice_writeHs, voice_readHs, voice_setHs, called_voice]
    rfl

/-! ## The verify text -/

theorem dumphex_length (b : Bytes) : (dumphex b).length = 2 * b.length := by
  simp only [dumphex, List.length_flatMap, List.length_cons, List.length_nil, List.map_const', List.sum_replicate, smul_eq_mul]
  exact Nat.mul_comm _ _

theorem dumphex_ne_nil {b : Bytes} (h : b ≠ []) : dumphex b ≠ [] := by
  rw [← List.length_pos_iff, dumphex_length]
  exact Nat.mul_pos two_pos (List.length_pos_iff.2 h)

/-- the verify text of a server -/
theorem wp_packVerifyText_deal (hc : H.ext.Ciphers d) (hopen : (H.proto w).flags.closing = false) (input : Bytes)
    (hkey : (H.proto w).hs.Keyed d (d.key input)) (g : CryptGlobal) :
    wp (packVerifyText H g)
      (fun r w' => ∃ text out pad, text.length ≤ 2048 ∧ r = (0, out) ∧ out.length ≤ 4096 ∧
        H.ext.decrypt (d.key input).cipher out = .ok (text ++ pad) ∧ text ≠ [] ∧ pad.length ≤ 1024 ∧ out ≠ [] ∧
        H.Turned ((H.proto w).voice.setHs { (H.proto w).hs with param := text }) w w') E w := by
  have hinfo : (H.proto w).hs.cipher.info = d.info := by
    rw [hkey.cipher]
    rfl
  obtain ⟨r, hr, hlen⟩ := hc.random (H.proto w).seed (d.info.keyBits / 8) (Nat.le_add_right _ _)
  have hsizes := hc.sizes
  have hbits := hc.key
  have hne : r ≠ [] := by
    rintro rfl
    rw [List.length_nil] at hlen
    omega
  have hfits : (dumphex r).length + 2048 ≤ msgLimit := by
    rw [dumphex_length, hlen, msgLimit]
    omega
  obtain ⟨out, pad, hout, houtne, houtlen, hback, hpad⟩ := hc.seals hkey.proper (dumphex_ne_nil hne) hfits
  rw [dumphex_length, hlen] at houtlen
  unfold packVerifyText
  simp only [wp_bind, wp_get, wp_modify, hinfo, hr]
  have hproto : H.proto (H.setProto { H.proto w with seed := (H.proto w).seed + 1 } w) = { H.proto w with seed := (H.proto w).seed + 1 } :=
    H.proto_setProto _ _
  refine wp_encryptData_keyed hc (by rw [hproto]; exact hopen) hkey.toHolds (dumphex_ne_nil hne) hout ?_
  simp only [wp_pure, wp_ite, proto_setProto, setProto_setProto]
  refine ⟨fun hnil => absurd hnil houtne, fun _ => ⟨dumphex r, out, pad, ?_, rfl, ?_, hback, dumphex_ne_nil hne, hpad, houtne, .of rfl rfl⟩⟩
  · rw [dumphex_length, hlen]
    omega
  · omega

end Host

/-! ## The answer to the verify text -/

theorem mixVerify_length (random outbuf : Bytes) : (mixVerify random outbuf).length = outbuf.length := List.length_mapIdx

/-- every byte at an odd place is the peer's -/
theorem verifyHalf_odd {i : ℕ} {cs qs : Bytes} (h : ∀ n, (hc : n < cs.length) → (hq : n < qs.length) → (i + n) % 2 = 1 → cs[n] = qs[n]) :
    verifyHalf i cs qs = true := by
  induction cs generalizing i qs with
  | nil => rfl
  | cons c cs ih =>
    cases qs with
    | nil => rfl
    | cons q qs =>
      rw [verifyHalf]
      split_ifs with hzero hdiffer
      · rfl
      · exact absurd (h 0 (Nat.succ_pos _) (Nat.succ_pos _) hdiffer.1) hdiffer.2
      · refine ih fun n hc hq hodd => ?_
        exact h (n + 1) (Nat.succ_lt_succ hc) (Nat.succ_lt_succ hq) (by omega)

/-- **The mixed text** passes the check against the text it was mixed from, whatever both were padded with. -/
theorem verifyHalf_mix (random text pad pad' : Bytes) : verifyHalf 0 (mixVerify random (text ++ pad) ++ pad') text = true := by
  refine verifyHalf_odd fun n hc hq hodd => ?_
  have hn : n < (text ++ pad).length := by
    rw [List.length_append]
    omega
  have hmix : n < (mixVerify random (text ++ pad)).length := by rwa [mixVerify_length]
  rw [Nat.zero_add] at hodd
  rw [List.getElem_append_left hmix]
  simp only [mixVerify, List.getElem_mapIdx, if_pos hodd, List.getElem_append_left hq]

end AtFrame
