/-
Which keepalives a function of the cluster may touch.

`Touches T c d`: on the way from `c` to `d` only the keepalives in `T` are changed, put on the retry list or given requests.

- `Acts.touches`: acts of the keepalives in `T` touch no other;
- `touches_foldl`: a loop over keepalives;
- `touches_retryDeletors`: the deletors touch none.
-/
import AtFrame.Etcd.Acts

namespace AtFrame.Etcd

variable {e : EtcdEnv} {T T' : ℕ → Prop} {c d b : EtcdState}

structure Touches (T : ℕ → Prop) (c d : EtcdState) : Prop where
  keep : ∀ k, ¬ T k → d.keep k = c.keep k
  sent : ∃ new, d.sent = c.sent ++ new ∧ ∀ s ∈ new, ∀ k, s.target = .keepalive k → T k
  lease : d.conf.lease = c.conf.lease
  closing : d.closing = c.closing
  running : c.running = true → d.running = true
  actors : d.keepaliveActors = c.keepaliveActors
  retry : ∀ k, k ∈ c.keepaliveRetryActors → k ∈ d.keepaliveRetryActors
  acked : ∀ id, id ∈ c.acked → id ∈ d.acked
  history : ∀ en, en ∈ c.history → en ∈ d.history

theorem Touches.refl (T : ℕ → Prop) (c : EtcdState) : Touches T c c where
  keep _ _ := rfl
  sent := ⟨[], (List.append_nil _).symm, fun _ hs => absurd hs List.not_mem_nil⟩
  lease := rfl
  closing := rfl
  running := id
  actors := rfl
  retry _ := id
  acked _ := id
  history _ := id

theorem Touches.trans (h : Touches T c d) (h' : Touches T d b) : Touches T c b where
  keep k hk := (h'.keep k hk).trans (h.keep k hk)
  sent := by
    obtain ⟨new, hnew, htarget⟩ := h.sent
    obtain ⟨new', hnew', htarget'⟩ := h'.sent
    refine ⟨new ++ new', by rw [hnew', hnew, List.append_assoc], fun s hs k hk => ?_⟩
    exact (List.mem_append.1 hs).elim (fun hs => htarget s hs k hk) fun hs => htarget' s hs k hk
  lease := h'.lease.trans h.lease
  closing := h'.closing.trans h.closing
  running := h'.running ∘ h.running
  actors := h'.actors.trans h.actors
  retry k := h'.retry k ∘ h.retry k
  acked id := h'.acked id ∘ h.acked id
  history en := h'.history en ∘ h.history en

theorem Touches.mono (h : Touches T c d) (hT : ∀ k, T k → T' k) : Touches T' c d where
  keep k hk := h.keep k (hk ∘ hT k)
  sent := by
    obtain ⟨new, hnew, htarget⟩ := h.sent
    exact ⟨new, hnew, fun s hs k hk => hT k (htarget s hs k hk)⟩
  lease := h.lease
  closing := h.closing
  running := h.running
  actors := h.actors
  retry := h.retry
  acked := h.acked
  history := h.history

theorem Touches.none (h : Touches nobody c d) : Touches T c d := h.mono fun _ => False.elim

/-- a loop whose rounds touch one keepalive each -/
theorem touches_foldl {f : EtcdState → ℕ → EtcdState} (hf : ∀ c k, Touches (· = k) c (f c k)) (ks : List ℕ) (c : EtcdState) :
    Touches (· ∈ ks) c (ks.foldl f c) := by
  induction ks generalizing c with
  | nil => exact Touches.refl _ c
  | cons k ks ih =>
    have hhead : Touches (· ∈ k :: ks) c (f c k) := (hf c k).mono fun j hj => hj ▸ List.mem_cons_self
    exact hhead.trans ((ih (f c k)).mono fun j hj => List.mem_cons_of_mem k hj)

theorem touches_foldl_nobody {α : Type} {f : EtcdState → α → EtcdState} (hf : ∀ c a, Touches nobody c (f c a)) (as : List α)
    (c : EtcdState) : Touches nobody c (as.foldl f c) := by
  induction as generalizing c with
  | nil => exact Touches.refl _ c
  | cons a as ih => exact (hf c a).trans (ih (f c a))

/-- a change of other fields -/
theorem Touches.quiet (h : Touches T c d) (heq : b.tracked = d.tracked) : Touches T c b := by
  simp only [EtcdState.tracked, Prod.mk.injEq] at heq
  obtain ⟨hkeep, hsent, hlease, hclosing, hrunning, hactors, hretry, hacked, hhistory⟩ := heq
  refine h.trans ⟨fun k _ => congrFun hkeep k, ⟨[], ?_, fun _ hs => absurd hs List.not_mem_nil⟩, hlease, hclosing, ?_, hactors,
    fun _ hk => hretry ▸ hk, fun _ hid => hacked ▸ hid, fun _ hen => hhistory ▸ hen⟩
  · rw [hsent, List.append_nil]
  · exact fun hrun => hrunning.trans hrun

theorem touches_of_eq (heq : d.tracked = c.tracked) : Touches T c d := (Touches.refl T c).quiet heq

theorem touches_setKeep (k : ℕ) (x : Keepalive) (c : EtcdState) : Touches (· = k) c (c.setKeep k x) where
  keep _ hj := Function.update_of_ne hj ..
  sent := ⟨[], (List.append_nil _).symm, fun _ hs => absurd hs List.not_mem_nil⟩
  lease := rfl
  closing := rfl
  running := id
  actors := rfl
  retry _ := id
  acked _ := id
  history _ := id

theorem touches_record (step : EtcdStep) (c : EtcdState) : Touches T c (c.record step) where
  keep _ _ := rfl
  sent := ⟨[], (List.append_nil _).symm, fun _ hs => absurd hs List.not_mem_nil⟩
  lease := rfl
  closing := rfl
  running := id
  actors := rfl
  retry _ := id
  acked _ := id
  history _ := List.mem_append_left _

/-! ## Acts -/

theorem touches_sent {new : Sent} (hnew : ∀ k, new.target = .keepalive k → T k) (n : ℕ) (c : EtcdState) :
    Touches T c { c with starts := n, sent := c.sent ++ [new] } :=
  { Touches.refl T c with sent := ⟨[new], rfl, fun s hs => by rw [List.mem_singleton.1 hs]; exact hnew⟩ }

theorem touches_sendFor {k : ℕ} (hk : T k) (ask : Ask) (c : EtcdState) : Touches T c (c.sendFor k ask) :=
  (touches_sent (fun _ hj => Target.keepalive.inj hj ▸ hk) _ c).trans ((touches_setKeep k _ _).mono fun _ hj => hj ▸ hk)

theorem Act.touches (h : Act T c d) : Touches T c d := by
  cases h with
  | quiet h => exact touches_of_eq (congrArg Prod.fst h)
  | record step => exact touches_record step c
  | request host h => exact touches_sent (fun _ h => nomatch h) _ c
  | tune hk n a v => exact (touches_setKeep _ _ c).mono fun _ hj => hj ▸ hk
  | unchecked hk h => exact (touches_setKeep _ _ c).mono fun _ hj => hj ▸ hk
  | get hk hrpc hrun => exact touches_sendFor hk _ c
  | put hk hrpc hrun hpassed => exact touches_sendFor hk _ c
  | retry hk hnew => exact { Touches.refl T c with retry := fun _ => List.mem_append_left _ }

/-- **Acts** of some keepalives touch no other. -/
theorem Acts.touches (h : Acts T c d) : Touches T c d :=
  h.keeps (I := Touches T c) (fun hact hc => hc.trans hact.touches) (Touches.refl T c)

theorem touches_active (k : ℕ) (c : EtcdState) : Touches (· = k) c (active e k c) :=
  (acts_active (T := (· = k)) rfl c).touches

theorem touches_retryKeepalive (c : EtcdState) (k : ℕ) : Touches (· = k) c (retryKeepalive e c k) :=
  (acts_retryKeepalive (T := (· = k)) rfl c).touches

theorem touches_renewKeepalive (c : EtcdState) (k : ℕ) : Touches (· = k) c (renewKeepalive e c k) :=
  (acts_renewKeepalive (T := (· = k)) rfl c).touches

/-- the list of retries is all that changes -/
theorem touches_addRetryKeepalive (k : ℕ) (c : EtcdState) : Touches nobody c (addRetryKeepalive e k c) := by
  unfold addRetryKeepalive
  simp only
  split_ifs
  · exact Touches.refl _ c
  · exact Touches.refl _ c
  · exact (acts_enableLease c).touches.trans { Touches.refl _ _ with retry := fun _ => List.mem_append_left _ }

/-- a keepalive that is to be retried is on the list -/
theorem mem_addRetryKeepalive (k : ℕ) (hopen : c.closing = false) :
    k ∈ (addRetryKeepalive e k c).keepaliveRetryActors := by
  unfold addRetryKeepalive
  rw [if_neg (hopen ▸ Bool.false_ne_true)]
  split_ifs with hk
  · exact hk
  · exact List.mem_append_right _ (List.mem_singleton_self k)

/-! ## Deletors -/

theorem touches_removeKeepalivePath (d : Deletor) (delay : Bool) (c : EtcdState) :
    Touches nobody c (removeKeepalivePath e d delay c) := by
  cases delay with
  | true => exact touches_of_eq rfl
  | false =>
    rcases removeKeepalivePath_cases (e := e) d c with ⟨-, h⟩ | ⟨n, m, h⟩ | ⟨n, h⟩ <;> rw [h]
    · exact touches_of_eq rfl
    · exact touches_of_eq rfl
    · exact (touches_sent (fun _ h => nomatch h) (c.starts + 1) c).quiet rfl

theorem touches_retryDeletors (c : EtcdState) : Touches nobody c (retryDeletors e c) :=
  (touches_of_eq rfl : Touches nobody c { c with keepaliveDeletors := [] }).trans
    (touches_foldl_nobody (fun c d => touches_removeKeepalivePath d false c) _ _)

end AtFrame.Etcd
