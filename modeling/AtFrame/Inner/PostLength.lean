/-
What the application receives for a POST.

`dispatch_data` hands `message_fn` the decoded bytes together with the `length` field of the message, without comparing
the two. An honest sender puts the length of its own data there, which is never more than what decodes; any other sender
may claim more.

- `dispatchData_messages`: the calls of `message_fn`, for every message and every state;
- `sendPost_built`: what an honest sender hands to `write_msg`;
- `post_delivery`: a call stays inside the decoded bytes exactly when the message does not claim more than that, and a
  message of `send_post` arrives as it was sent.

Premises of the second part only: the verifier reads back what the sender's builder made, and both sides have the same key
(`SameKey`). The first part asks nothing of the message. Witness `post_delivery_padded`: a block cipher pads, and the application
gets the length of the text. `overlongPost_delivered` is a message that claims more than it has, which `message_fn` is told.
-/
import AtFrame.Inner.Runs

namespace AtFrame

open AtFrame.Lib

/-- a POST that claims more bytes than there are: of its data without a cipher, of the decrypted data with one -/
structure Overlong (ext : Ext) (p : Proto) (post : PostBody) (data : Bytes) : Prop where
  done : p.flags.handshakeDone = true
  data_eq : post.data = some data
  ne : data ≠ []
  claim : ∃ c ∈ p.cryptRead, (p.crypts c).isInited = true ∧
    ((p.crypts c).type = [] ∧ data.length < post.length ∨
      (p.crypts c).type ≠ [] ∧ ∃ out, ext.decrypt (p.crypts c).cipher data = .ok out ∧ out.length < post.length)

/-! ## The calls of `message_fn` -/

section receive

variable {e : SoloEnv}

theorem Solo.indifferent_messages (m : List (Bytes × ℕ)) :
    (Solo.host e).Indifferent (fun w => w.messages = m) (fun _ w => w.messages = m) where
  toOwnerKeeps := Solo.ownerKeeps fun _ _ _ => id
  setProto _ := id
  overflow := id
  assertFail := id
  nullConf := id

theorem Solo.wp_decryptData (c : CryptSession) (input : Bytes) (w : Solo) (hopen : w.proto.flags.closing = false) :
    wp (decryptData (Solo.host e) c input) (fun r w' => r = decrypted e.ext c input ∧ w' = w) (fun _ _ => False) w := by
  unfold decryptData decrypted
  simp only [wp_bind, Host.wp_get, wp_ite, wp_pure, hopen]
  refine ⟨fun h => absurd h Bool.false_ne_true, fun _ => ⟨fun h1 => ⟨(if_pos h1).symm, trivial⟩, fun h1 => ?_⟩⟩
  rw [if_neg h1]
  refine ⟨fun h2 => ⟨(if_pos h2).symm, trivial⟩, fun h2 => ?_⟩
  rw [if_neg h2]
  refine ⟨fun h3 => ⟨(if_pos h3).symm, trivial⟩, fun h3 => ?_⟩
  rw [if_neg h3]
  cases e.ext.decrypt c.cipher input <;> exact ⟨rfl, rfl⟩

/-- `message_fn` was called with `calls` since `w` -/
def Solo.Received (w : Solo) (calls : List (Bytes × ℕ)) (w' : Solo) : Prop := w'.messages = w.messages ++ calls

/-- a program that keeps the record of `message_fn` leads where nothing was received -/
theorem received_nil {α : Type} {m : Prog Fault Solo α} {w w' : Solo}
    (h : wp m (fun _ w' => w'.messages = w.messages) (fun _ w' => w'.messages = w.messages) w') :
    wp m (fun _ => w.Received []) (fun _ => w.Received []) w' :=
  wp_mono h (fun _ _ h => h.trans (List.append_nil _).symm) fun _ _ h => h.trans (List.append_nil _).symm

theorem dispatchPost_messages (b : Option PostBody) (w : Solo) (hopen : w.proto.flags.closing = false) :
    wp (dispatchPost (Solo.host e) b)
      (fun _ => w.Received (w.proto.delivered e.ext .EN_MTT_POST (.post b)).toList)
      (fun _ => w.Received (w.proto.delivered e.ext .EN_MTT_POST (.post b)).toList) w := by
  have hkeep := Solo.indifferent_messages (e := e) w.messages
  have hclose : ∀ reason w', w'.messages = w.messages →
      wp (do
        let _ ← close (Solo.host e) reason false
        return ()) (fun _ => w.Received []) (fun _ => w.Received []) w' :=
    fun reason w' hw' => (wp_bind _ _).2 (received_nil (hkeep.respects.close reason false w' hw'))
  have hnil : w.Received [] w := (List.append_nil _).symm
  unfold dispatchPost
  simp only [wp_bind, Host.wp_get, wp_ite, not_or, not_not]
  refine ⟨fun hcond => ?_, fun hopened => ?_⟩
  · have hnone : w.proto.delivered e.ext .EN_MTT_POST (.post b) = none := by
      rcases b with _ | ⟨length, _ | data⟩
      · rfl
      · rfl
      · rcases hcond with hdone | hread
        · exact if_neg hdone
        · rw [Option.isNone_iff_eq_none] at hread
          simp only [Proto.delivered, hread, ite_self]
    rw [hnone]
    exact (wp_bind _ _).1 (hclose EN_CRT_HANDSHAKE w rfl)
  · obtain ⟨hdone, hread⟩ := hopened
    rcases b with _ | ⟨length, _ | data⟩
    · exact hnil
    · exact hnil
    · obtain ⟨c, hc⟩ : ∃ c, w.proto.cryptRead = some c := Option.ne_none_iff_exists'.1 (by simpa using hread)
      have hres : w.proto.delivered e.ext .EN_MTT_POST (.post (some ⟨length, some data⟩)) =
          if (decrypted e.ext (w.proto.crypts c) data).1 = 0 then
            some ((decrypted e.ext (w.proto.crypts c) data).2, length) else none := by
        simp only [Proto.delivered, hdone, hc, if_true]
      simp only [wp_bind, wp_ite, hres]
      unfold decodePost
      simp only [wp_bind, Host.wp_get, hopen, hc, wp_ite, wp_pure]
      refine ⟨fun h => absurd h Bool.false_ne_true, fun _ => ?_⟩
      refine wp_mono (Solo.wp_decryptData (w.proto.crypts c) data w hopen) ?_ fun _ _ h => absurd h id
      rintro r w' ⟨rfl, rfl⟩
      have hbad : ∀ {ret : ℤ}, ret ≠ 0 → (if ret = 0 then
          some ((decrypted e.ext (w'.proto.crypts c) data).2, length) else none) = none := fun h => if_neg h
      refine ⟨fun hneg => ⟨fun h0 => absurd h0 hneg.ne, fun h0 => ?_⟩, fun _ => ⟨fun h0 => ?_, fun h0 => ?_⟩⟩
      · rw [hbad h0]
        exact (wp_bind _ _).1 (hclose EN_CRT_INVALID_DATA w' rfl)
      · rw [if_pos h0]
        exact rfl
      · rw [hbad h0]
        exact (wp_bind _ _).1 (hclose EN_CRT_INVALID_DATA w' rfl)

/-- nothing but a POST reaches `message_fn` -/
theorem dispatchMsg_messages {type : MsgType} {body : CsBody} (w : Solo) (hopen : w.proto.flags.closing = false) :
    wp (dispatchMsg (Solo.host e) type body) (fun _ => w.Received (w.proto.delivered e.ext type body).toList)
      (fun _ => w.Received (w.proto.delivered e.ext type body).toList) w := by
  by_cases hpost : ∃ b, type = .EN_MTT_POST ∧ body = .post b
  · obtain ⟨b, rfl, rfl⟩ := hpost
    exact dispatchPost_messages b w hopen
  · have hnone : w.proto.delivered e.ext type body = none := by
      unfold Proto.delivered
      split
      · exact absurd ⟨_, rfl, rfl⟩ hpost
      · rfl
    rw [hnone]
    refine received_nil ((Solo.indifferent_messages w.messages).msg rfl hopen ?_)
    exact
      { handshake := fun b _ =>
          { start := fun _ => trivial
            resume := fun _ => trivial
            finish := fun _ => trivial
            reload := fun _ _ _ hw _ => hw
            absent := fun _ _ => id }
        absent := fun _ _ => id
        message := fun _ _ _ _ hout => absurd (hnone.symm.trans hout) (by simp) }

/-- what `message_fn` is called with for a buffer -/
def Solo.delivered (e : SoloEnv) (w : Solo) (buffer : Bytes) (errcode : ℤ) : List (Bytes × ℕ) :=
  if w.proto.flags.closing ∨ errcode < 0 then []
  else
    match e.ext.verify buffer with
    | some ⟨some type, body⟩ => (w.proto.delivered e.ext type body).toList
    | _ => []

/-- **The calls of `message_fn`** for a buffer, in every state of the object, also where a fault stops it. -/
theorem dispatchData_messages (e : SoloEnv) (w : Solo) (buffer : Bytes) (errcode : ℤ) :
    (exec (dispatchData (Solo.host e) buffer errcode) w).2.messages = w.messages ++ w.delivered e buffer errcode := by
  have hwp : wp (dispatchData (Solo.host e) buffer errcode) (fun _ => w.Received (w.delivered e buffer errcode))
      (fun _ => w.Received (w.delivered e buffer errcode)) w := by
    have hnil : w.Received [] w := (List.append_nil _).symm
    unfold dispatchData Solo.delivered
    simp only [wp_bind, Host.wp_get, wp_ite, wp_pure]
    refine ⟨fun hc => ?_, fun hopen => ⟨fun herr => ?_, fun herr => ?_⟩⟩
    · rw [if_pos (.inl hc)]
      exact hnil
    · rw [if_pos (.inr herr)]
      exact hnil
    · rw [if_neg (not_or_intro hopen herr)]
      rcases e.ext.verify buffer with _ | ⟨_ | type, body⟩
      · have hkeep := (Solo.indifferent_messages (e := e) w.messages).respects.close EN_CRT_INVALID_DATA true w rfl
        exact (wp_bind _ _).2 (received_nil hkeep)
      · exact hnil
      · exact dispatchMsg_messages w (by simpa using hopen)
  unfold wp at hwp
  rcases hexec : exec (dispatchData (Solo.host e) buffer errcode) w with ⟨fault | _, w'⟩ <;> rw [hexec] at hwp <;> exact hwp

end receive

/-! ## Claimed and decoded lengths -/

theorem decrypted_success {ext : Ext} {c : CryptSession} {input out : Bytes} :
    decrypted ext c input = (0, out) ↔ c.isInited = true ∧ input ≠ [] ∧
      (c.type = [] ∧ out = input ∨ c.type ≠ [] ∧ ext.decrypt c.cipher input = .ok out) := by
  have herror : ∀ {ret : ℤ} {b : Bytes}, ret ≠ 0 → (ret, b) ≠ (0, out) := fun h heq => h (congrArg Prod.fst heq)
  unfold decrypted
  split_ifs with h1 h2 h3
  · exact ⟨fun h => absurd h (herror (by decide)), fun h => absurd h2 h.2.1⟩
  · refine ⟨fun h => ⟨h1, h2, .inl ⟨h3, (congrArg Prod.snd h).symm⟩⟩, fun h => ?_⟩
    rcases h.2.2 with h | h
    · exact Prod.ext rfl h.2.symm
    · exact absurd h3 h.1
  · cases hdec : ext.decrypt c.cipher input with
    | error res =>
      refine ⟨fun h => absurd h (herror (by decide)), fun h => ?_⟩
      rcases h.2.2 with h | h
      · exact absurd h.1 h3
      · cases h.2
    | ok b =>
      refine ⟨fun h => ⟨h1, h2, .inr ⟨h3, congrArg Except.ok (congrArg Prod.snd h)⟩⟩, fun h => ?_⟩
      rcases h.2.2 with h | h
      · exact absurd h.1 h3
      · cases h.2
        rfl
  · exact ⟨fun h => absurd h (herror (by decide)), fun h => absurd h.1 h1⟩

theorem delivered_iff {ext : Ext} {p : Proto} {type : MsgType} {body : CsBody} {out : Bytes} {n : ℕ} :
    (out, n) ∈ p.delivered ext type body ↔ type = .EN_MTT_POST ∧ ∃ data, body = .post (some ⟨n, some data⟩) ∧
      p.flags.handshakeDone = true ∧ ∃ c ∈ p.cryptRead, decrypted ext (p.crypts c) data = (0, out) := by
  unfold Proto.delivered
  split
  · rename_i length data
    split_ifs with hdone
    · cases p.cryptRead with
      | none => simp
      | some c =>
        simp only [Option.mem_def]
        split_ifs with hzero
        · simp only [Prod.ext_iff, Option.some.injEq, CsBody.post.injEq, PostBody.mk.injEq, true_and]
          constructor
          · rintro ⟨hout, rfl⟩
            exact ⟨data, ⟨rfl, rfl⟩, hdone, c, rfl, hzero, hout⟩
          · rintro ⟨_, ⟨rfl, rfl⟩, -, _, rfl, -, hout⟩
            exact ⟨hout, rfl⟩
        · simp [Prod.ext_iff, hzero]
    · simp [hdone]
  · rename_i hother
    refine ⟨fun h => absurd h (Option.not_mem_none _), ?_⟩
    rintro ⟨rfl, data, rfl, -⟩
    exact absurd rfl (hother n data rfl)

/-- a POST with an over-long length is exactly one that reaches `message_fn` with more than was decoded -/
theorem delivered_overlong {ext : Ext} {p : Proto} {type : MsgType} {body : CsBody} :
    (∀ c ∈ p.delivered ext type body, c.2 ≤ c.1.length) ↔
      ∀ post data, type = .EN_MTT_POST → body = .post (some post) → ¬ Overlong ext p post data := by
  constructor
  · rintro hle ⟨n, data'⟩ data rfl rfl ⟨hdone, rfl, hne, c, hc, hinit, hcase⟩
    have hcall : ∀ out, decrypted ext (p.crypts c) data = (0, out) → n ≤ out.length := fun out hout =>
      hle (out, n) (delivered_iff.2 ⟨rfl, data, rfl, hdone, c, hc, hout⟩)
    rcases hcase with ⟨htype, hlt⟩ | ⟨htype, out, hout, hlt⟩
    · exact absurd (hcall data (decrypted_success.2 ⟨hinit, hne, .inl ⟨htype, rfl⟩⟩)) (Nat.not_le.2 hlt)
    · exact absurd (hcall out (decrypted_success.2 ⟨hinit, hne, .inr ⟨htype, hout⟩⟩)) (Nat.not_le.2 hlt)
  · rintro hshort ⟨out, n⟩ hc
    obtain ⟨htype, data, hbody, hdone, c, hread, hdec⟩ := delivered_iff.1 hc
    obtain ⟨hinit, hne, hcase⟩ := decrypted_success.1 hdec
    by_contra hlt
    have hlt := Nat.not_le.1 hlt
    refine hshort ⟨n, some data⟩ data htype hbody ⟨hdone, rfl, hne, c, hread, hinit, ?_⟩
    rcases hcase with ⟨hplain, rfl⟩ | ⟨hcipher, hout⟩
    · exact .inl ⟨hplain, hlt⟩
    · exact .inr ⟨hcipher, out, hout, hlt⟩

theorem delivered_within {e : SoloEnv} {w : Solo} {buffer : Bytes} {errcode : ℤ} :
    (∀ c ∈ w.delivered e buffer errcode, c.2 ≤ c.1.length) ↔ ∀ post data,
      (Solo.host e).Dispatched w buffer errcode .EN_MTT_POST (.post (some post)) → ¬ Overlong e.ext w.proto post data := by
  unfold Solo.delivered
  split_ifs with hcond
  · refine ⟨fun _ post data ⟨hopen, herr, _⟩ => ?_, fun _ c hc => absurd hc List.not_mem_nil⟩
    rcases hcond with hclosing | hneg
    · exact absurd (hopen.symm.trans hclosing) Bool.false_ne_true
    · exact absurd herr hneg.not_ge
  · obtain ⟨hopen, herr⟩ := not_or.1 hcond
    split
    · rename_i type body hmsg
      have hlist : (∀ c ∈ (w.proto.delivered e.ext type body).toList, c.2 ≤ c.1.length) ↔
          ∀ c ∈ w.proto.delivered e.ext type body, c.2 ≤ c.1.length := by simp only [Option.mem_toList, Option.mem_def]
      rw [hlist, delivered_overlong]
      constructor
      · rintro h post data ⟨-, -, hverify⟩
        rw [hmsg] at hverify
        cases hverify
        exact h post data rfl rfl
      · rintro h post data rfl rfl
        exact h post data ⟨by simpa using hopen, not_lt.1 herr, hmsg⟩
    · rename_i hother
      refine ⟨fun _ post data ⟨_, _, hverify⟩ => absurd hverify (hother _ _), fun _ c hc => absurd hc List.not_mem_nil⟩

/-! ## An honest sender -/

/-- the message that `send_post` builds and hands to `write_msg`, when it gets there -/
def Proto.builtPost (ext : Ext) (p : Proto) (type : MsgType) (buffer : Bytes) : Option CsMsg :=
  if p.flags.closing then none
  else
    match p.cryptWrite with
    | none => none
    | some c =>
      if ¬ (p.crypts c).isInited ∨ buffer = [] then none
      else if (p.crypts c).type = [] then some ⟨some type, .post (some ⟨buffer.length, some buffer⟩)⟩
      else
        match ext.encrypt (p.crypts c).cipher buffer with
        | .error _ => none
        | .ok out => some ⟨some type, .post (some ⟨buffer.length, some out⟩)⟩

theorem builtPost_some {ext : Ext} {p : Proto} {type : MsgType} {buffer : Bytes} {msg : CsMsg}
    (h : p.builtPost ext type buffer = some msg) : p.flags.closing = false ∧ ∃ c ∈ p.cryptWrite, ∃ data,
      msg = ⟨some type, .post (some ⟨buffer.length, some data⟩)⟩ ∧ (p.crypts c).isInited = true ∧ buffer ≠ [] ∧
        ((p.crypts c).type = [] ∧ data = buffer ∨
          (p.crypts c).type ≠ [] ∧ ext.encrypt (p.crypts c).cipher buffer = .ok data) := by
  unfold Proto.builtPost at h
  split_ifs at h with hopen
  refine ⟨by simpa using hopen, ?_⟩
  split at h
  · cases h
  · rename_i c hc
    split_ifs at h with hready htype
    · cases h
      exact ⟨c, hc, buffer, rfl, by tauto, by tauto, .inl ⟨htype, rfl⟩⟩
    · split at h
      · cases h
      · rename_i out hout
        cases h
        exact ⟨c, hc, out, rfl, by tauto, by tauto, .inr ⟨htype, hout⟩⟩

/-- `send_post` writes the message it builds and nothing else -/
theorem sendPost_built {e : SoloEnv} {w : Solo} {type : MsgType} {buffer : Bytes} {msg : CsMsg}
    (h : w.proto.builtPost e.ext type buffer = some msg) :
    exec (sendPost (Solo.host e) type buffer) w = exec (writeMsg (Solo.host e) msg) w := by
  obtain ⟨hopen, c, hc, data, rfl, hinit, hne, hcase⟩ := builtPost_some h
  have hget : exec (Host.get (Solo.host e)) w = (.ok w.proto, w) := rfl
  have hc : w.proto.cryptWrite = some c := hc
  have hencode : exec (encodePost (Solo.host e) buffer) w = (.ok (0, data), w) := by
    unfold encodePost encryptData
    rw [exec_bind_ok hget]
    simp only [hopen, Bool.false_eq_true, if_false, hc]
    rw [exec_bind_ok hget]
    rcases hcase with ⟨htype, rfl⟩ | ⟨htype, hout⟩
    · simp only [hopen, Bool.false_eq_true, if_false, hinit, not_true, hne, htype, if_true]
      rfl
    · simp only [hopen, Bool.false_eq_true, if_false, hinit, not_true, hne, htype, hout]
      rfl
  unfold sendPost
  rw [exec_bind_ok hget]
  simp only [hopen, Bool.false_eq_true, if_false, hc, Option.isNone_some, or_self]
  rw [exec_bind_ok hencode]
  rfl

/-- the two ends of a connection hold the same key: same type, and decrypting what was encrypted gives the text and padding -/
structure SameKey (ext : Ext) (sender receiver : CryptSession) : Prop where
  received : receiver.isInited = true
  type : receiver.type = sender.type
  encrypt_ne : ∀ text out, text ≠ [] → ext.encrypt sender.cipher text = .ok out → out ≠ []
  decrypt_encrypt : ∀ text out, ext.encrypt sender.cipher text = .ok out →
    ∃ padding, ext.decrypt receiver.cipher out = .ok (text ++ padding)

theorem builtPost_delivered {ext : Ext} {p q : Proto} {buffer : Bytes} {msg : CsMsg} {c d : ℕ}
    (hmsg : p.builtPost ext .EN_MTT_POST buffer = some msg) (hc : p.cryptWrite = some c) (hd : q.cryptRead = some d)
    (hkey : SameKey ext (p.crypts c) (q.crypts d)) (hdone : q.flags.handshakeDone = true) :
    msg.head = some .EN_MTT_POST ∧ ∃ out, out.take buffer.length = buffer ∧
      q.delivered ext .EN_MTT_POST msg.body = some (out, buffer.length) := by
  obtain ⟨-, c', hc', data, rfl, hinit, hne, hcase⟩ := builtPost_some hmsg
  obtain rfl : c = c' := Option.some.inj (hc.symm.trans hc')
  refine ⟨rfl, ?_⟩
  have hdeliver : ∀ out, decrypted ext (q.crypts d) data = (0, out) →
      q.delivered ext .EN_MTT_POST (.post (some ⟨buffer.length, some data⟩)) = some (out, buffer.length) := fun out hout =>
    delivered_iff.2 ⟨rfl, data, rfl, hdone, d, hd, hout⟩
  rcases hcase with ⟨htype, rfl⟩ | ⟨htype, hout⟩
  · refine ⟨data, List.take_length, hdeliver data (decrypted_success.2 ⟨hkey.received, hne, .inl ⟨?_, rfl⟩⟩)⟩
    rw [hkey.type, htype]
  · obtain ⟨padding, hpad⟩ := hkey.decrypt_encrypt buffer data hout
    refine ⟨buffer ++ padding, List.take_left, hdeliver _ (decrypted_success.2 ⟨hkey.received, ?_, .inr ⟨?_, hpad⟩⟩)⟩
    · exact hkey.encrypt_ne buffer data hne hout
    · rwa [hkey.type]

/-- **What the application receives.** For every state of the object and every buffer: the calls of `message_fn` are added
to those before, and each one claims no more than was decoded if and only if the buffer is no dispatched POST with an
over-long length. And when the peer's `send_post` builds a message for some bytes, with the same key at both ends, it is
what `send_post` writes, and dispatching it in a session hands `message_fn` exactly these bytes. -/
theorem post_delivery (e : SoloEnv) (w : Solo) :
    (∀ buffer errcode, ∃ calls,
      (exec (dispatchData (Solo.host e) buffer errcode) w).2.messages = w.messages ++ calls ∧
        ((∀ c ∈ calls, c.2 ≤ c.1.length) ↔ ∀ post data,
          (Solo.host e).Dispatched w buffer errcode .EN_MTT_POST (.post (some post)) →
            ¬ Overlong e.ext w.proto post data)) ∧
      ∀ (peer : SoloEnv) (v : Solo) (text : Bytes) (msg : CsMsg) (c d : ℕ), peer.ext = e.ext →
        v.proto.builtPost e.ext .EN_MTT_POST text = some msg → e.ext.verify (e.ext.build msg) = some msg →
        v.proto.cryptWrite = some c → w.proto.cryptRead = some d →
        SameKey e.ext (v.proto.crypts c) (w.proto.crypts d) →
        w.proto.flags.closing = false → w.proto.flags.handshakeDone = true →
        exec (write (Solo.host peer) text) v = exec (writeBytes (Solo.host peer) (e.ext.build msg)) v ∧
          ∃ out, out.take text.length = text ∧
            (exec (dispatchData (Solo.host e) (e.ext.build msg) 0) w).2.messages = w.messages ++ [(out, text.length)] := by
  refine ⟨fun buffer errcode => ⟨_, dispatchData_messages e w buffer errcode, delivered_within⟩, ?_⟩
  · intro peer v text msg c d hpeer hmsg hverify hc hd hkey hopen hdone
    obtain ⟨hhead, out, htake, hout⟩ := builtPost_delivered hmsg hc hd hkey hdone
    refine ⟨?_, out, htake, ?_⟩
    · rw [← hpeer] at hmsg ⊢
      exact sendPost_built hmsg
    · rw [dispatchData_messages, Solo.delivered, if_neg (by simp [hopen]), hverify]
      obtain ⟨head, body⟩ := msg
      cases hhead
      simp only [hout, Option.toList_some]

/-- a session whose cipher only adds a byte of padding -/
def paddedSession : Solo :=
  { Solo.accepted none with
    proto := { (Solo.accepted none).proto with
      flags := { handshakeDone := true }, cryptRead := some 0, cryptWrite := some 0,
      crypts := fun _ => { type := [120], isInited := true } } }

def paddedPost : CsMsg := ⟨some .EN_MTT_POST, .post (some ⟨2, some [5, 6, 0]⟩)⟩

def paddedEnv : SoloEnv :=
  { oneMessageEnv paddedPost with
    ext := { (oneMessageEnv paddedPost).ext with build := fun _ => [1], encrypt := fun _ b => .ok (b ++ [0]) } }

theorem post_delivery_padded :
    ∃ out, out.take 2 = [5, 6] ∧
      (exec (dispatchData (Solo.host paddedEnv) (paddedEnv.ext.build paddedPost) 0) paddedSession).2.messages =
        paddedSession.messages ++ [(out, 2)] := by
  refine ((post_delivery paddedEnv paddedSession).2 paddedEnv paddedSession [5, 6] paddedPost 0 0 rfl rfl rfl rfl rfl
    ⟨rfl, rfl, ?_, ?_⟩ rfl rfl).2
  · rintro text out - ⟨⟩
    exact List.append_ne_nil_of_right_ne_nil _ (List.cons_ne_nil _ _)
  · rintro text out ⟨⟩
    exact ⟨[0], rfl⟩

/-- a client that starts a session without encryption and then claims nine bytes for one -/
def overlongEnv : SoloEnv :=
  { oneMessageEnv paddedPost with
    ext := { Ext.idle with
      verify := fun b =>
        if b = [1] then
          some (handshakeMsg .EN_MTT_HANDSHAKE ⟨0, .EN_HST_START_REQ, .EN_SST_DIRECT, some [], none⟩)
        else some ⟨some .EN_MTT_POST, .post (some ⟨9, some [7]⟩)⟩ } }

theorem overlongPost_delivered :
    (exec ((Solo.host overlongEnv).run [.frame [1] 0, .frame [2] 0]) (Solo.accepted none)).2.messages = [([7], 9)] := by
  decide +kernel

end AtFrame
