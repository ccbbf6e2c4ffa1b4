/-
The requests of a cluster.

Requests are numbered in the order in which they are sent and stay. The puts of a keepalive are for its path, and a put is
acknowledged by an answer with success.

- `Did.base`: keepalives keep their paths, and puts are for the paths of their keepalives;
- `Did.sent`: requests stay;
- `Did.acked_cases`: what is acknowledged.
-/
import AtFrame.Etcd.Acts

namespace AtFrame.Etcd

variable {e : EtcdEnv} {c d : EtcdState} {T : ℕ → Prop} {path : ℕ → Bytes}

/-! ## Puts -/

/-- keepalives keep their paths, and puts are for the paths of their keepalives -/
structure Base (path : ℕ → Bytes) (c : EtcdState) : Prop where
  paths : ∀ k, (c.keep k).path = path k
  puts : ∀ s ∈ c.sent, ∀ key value lease, s.ask = .put key value lease → ∃ k, key = path k ∧ s.target = .keepalive k
  actors : c.keepaliveActors.Nodup
  retryActors : c.keepaliveRetryActors.Nodup

theorem Base.setKeep (hb : Base path c) {k : ℕ} {x : Keepalive} (hx : x.path = path k) : Base path (c.setKeep k x) where
  paths j := by
    by_cases hj : j = k
    · rw [hj, setKeep_keep, hx]
    · exact (congrArg Keepalive.path (Function.update_of_ne hj ..)).trans (hb.paths j)
  puts := hb.puts
  actors := hb.actors
  retryActors := hb.retryActors

/-- a request that is no put of a key other than its own keepalive's path -/
theorem Base.send (hb : Base path c) {s : Sent} (n : ℕ)
    (hs : ∀ key value lease, s.ask = .put key value lease → ∃ k, key = path k ∧ s.target = .keepalive k) :
    Base path { c with starts := n, sent := c.sent ++ [s] } where
  paths := hb.paths
  puts s' hs' := by
    rcases List.mem_append.1 hs' with hs' | hs'
    · exact hb.puts s' hs'
    · rw [List.mem_singleton.1 hs']
      exact hs
  actors := hb.actors
  retryActors := hb.retryActors

theorem Base.sendFor (hb : Base path c) {k : ℕ} {ask : Ask}
    (hask : ∀ key value lease, ask = .put key value lease → key = path k) : Base path (c.sendFor k ask) :=
  (hb.send _ fun key value lease h => ⟨k, hask key value lease h, rfl⟩).setKeep (hb.paths k)

theorem Base.quiet (hb : Base path c) (h : d.watched = c.watched) : Base path d := by
  simp only [EtcdState.watched, EtcdState.tracked, Prod.mk.injEq] at h
  obtain ⟨⟨hkeep, hsent, -, -, -, hactors, hretry, -⟩, -⟩ := h
  exact ⟨hkeep ▸ hb.paths, hsent ▸ hb.puts, hactors ▸ hb.actors, hretry ▸ hb.retryActors⟩

theorem Act.base (h : Act T c d) (hb : Base path c) : Base path d := by
  cases h with
  | quiet h => exact hb.quiet h
  | record step => exact ⟨hb.paths, hb.puts, hb.actors, hb.retryActors⟩
  | request host h =>
    refine hb.send _ fun key value lease hask => ?_
    cases hask
    exact h.elim
  | tune hk n a v => exact hb.setKeep (hb.paths _)
  | unchecked hk h => exact hb.setKeep (hb.paths _)
  | get hk hrpc hrun => exact hb.sendFor fun key value lease h => Ask.noConfusion h
  | put hk hrpc hrun hpassed =>
    refine hb.sendFor fun _ _ _ h => ?_
    cases h
    exact hb.paths _
  | retry hk hnew =>
    refine ⟨hb.paths, hb.puts, hb.actors, List.nodup_append.2 ⟨hb.retryActors, List.nodup_singleton _, fun a ha b hb' => ?_⟩⟩
    rw [List.mem_singleton.1 hb']
    rintro rfl
    exact hnew ha

theorem Acts.base (h : Acts T c d) (hb : Base path c) : Base path d := h.keeps (I := Base path) Act.base hb

theorem Move.base (h : Move c d) (hb : Base path c) : Base path d := by
  cases h with
  | acts h => exact h.base hb
  | running => exact ⟨hb.paths, hb.puts, hb.actors, hb.retryActors⟩
  | lease v => exact ⟨hb.paths, hb.puts, hb.actors, hb.retryActors⟩
  | forget => exact ⟨hb.paths, hb.puts, hb.actors, List.nodup_nil⟩

theorem Moves.base (h : Moves c d) (hb : Base path c) : Base path d := h.keeps (I := Base path) Move.base hb

theorem Base.deletors {n m : ℕ} {l : List Deletor} {r : List (ℕ × Deletor)} (hb : Base path c) :
    Base path { c with creates := n, starts := m, keepaliveDeletors := l, deletorRpcs := r } :=
  ⟨hb.paths, hb.puts, hb.actors, hb.retryActors⟩

theorem Base.askDelete (hb : Base path c) (q : Bytes) (n : ℕ) : Base path (c.askDelete q n) :=
  hb.send _ fun _ _ _ h => Ask.noConfusion h

theorem Base.removeKeepalivePath (hb : Base path c) (d : Deletor) (delay : Bool) : Base path (removeKeepalivePath e d delay c) :=
  removeKeepalivePath_induct (I := Base path) (fun _ _ _ _ _ h => h.deletors) (fun _ q n h => h.askDelete q n) d delay hb

theorem Round.base (h : Round e c d) (hb : Base path c) : Base path d :=
  h.keeps (I := Base path) Move.base (fun _ _ _ _ _ h => h.deletors) (fun _ q n h => h.askDelete q n) hb

theorem Act.actors (h : Act T c d) : d.keepaliveActors = c.keepaliveActors := by
  cases h with
  | quiet h =>
    simp only [EtcdState.watched, EtcdState.tracked, Prod.mk.injEq] at h
    exact h.1.2.2.2.2.2.1
  | _ => rfl

theorem Acts.actors (h : Acts T c d) : d.keepaliveActors = c.keepaliveActors :=
  h.keeps (I := fun d => d.keepaliveActors = c.keepaliveActors) (fun hact hc => hact.actors.trans hc) rfl

theorem Base.enlist (hb : Base path c) {k : ℕ} (hnew : k ∉ c.keepaliveActors) : Base path (c.enlist k) := by
  refine ⟨hb.paths, hb.puts, List.nodup_append.2 ⟨hb.actors, List.nodup_singleton _, fun a ha b hb' => ?_⟩, hb.retryActors⟩
  rw [List.mem_singleton.1 hb']
  rintro rfl
  exact hnew ha

theorem Base.delist (hb : Base path c) (k : ℕ) : Base path (c.delist k) :=
  ⟨hb.paths, hb.puts, (swapErase_perm k _).nodup_iff.2 (hb.actors.erase k), (swapErase_perm k _).nodup_iff.2 (hb.retryActors.erase k)⟩

theorem Base.shut (hb : Base path c) : Base path c.shut := by
  refine ⟨fun k => ?_, hb.puts, List.nodup_nil, List.nodup_nil⟩
  simp only [EtcdState.shut]
  split_ifs
  · exact hb.paths k
  · exact hb.paths k

theorem Did.base {ev : EtcdEvent} (h : Did e c ev d) (hb : Base path c) : Base path d := by
  cases h with
  | quiet ev h => exact h.base hb
  | tick h => exact h.base hb
  | add hnew hlease h =>
    exact h.base ((hlease.base hb).enlist (hlease.actors ▸ hnew))
  | remove hfound hdata => exact ((hb.delist _).removeKeepalivePath _ false).setKeep (hb.paths _)
  | drop hfound hdata => exact (hb.delist _).setKeep (hb.paths _)
  | setChecker k fn => exact hb.setKeep (hb.paths k)
  | setValue hvalue h hidle => exact h.base (hb.setKeep (hb.paths _))
  | checkFailed hs hrpc htarget hask h => exact h.base (hb.setKeep (hb.paths _))
  | checked hs hrpc htarget hask hr hfound h => exact h.base (hb.setKeep (hb.paths _))
  | putFailed hs hrpc htarget hask hr h => exact h.base (hb.setKeep (hb.paths _))
  | @acked id k s r d hs hrpc htarget hask hr h =>
    have hacked : Base path { c with acked := c.acked ++ [id] } := ⟨hb.paths, hb.puts, hb.actors, hb.retryActors⟩
    exact h.base (hacked.setKeep (hb.paths k))
  | deleted hp => exact ⟨hb.paths, hb.puts, hb.actors, hb.retryActors⟩
  | @deleteFailed id r p c₁ hp hr h =>
    have hdrop : Base path { c with deletorRpcs := c.deletorRpcs.filter fun p => p.1 ≠ id } :=
      ⟨hb.paths, hb.puts, hb.actors, hb.retryActors⟩
    exact (h.base hdrop).removeKeepalivePath p.2 true
  | answer h => exact h.base hb
  | close h => exact h.moves.base hb.shut

/-! ## Requests stay -/

theorem Act.sent (h : Act T c d) : c.sent <+: d.sent := by
  cases h with
  | quiet h =>
    simp only [EtcdState.watched, EtcdState.tracked, Prod.mk.injEq] at h
    rw [h.1.2.1]
  | record step => exact List.prefix_rfl
  | request host h => exact List.prefix_append ..
  | tune hk n a v => exact List.prefix_rfl
  | unchecked hk h => exact List.prefix_rfl
  | get hk hrpc hrun => exact List.prefix_append ..
  | put hk hrpc hrun hpassed => exact List.prefix_append ..
  | retry hk hnew => exact List.prefix_rfl

theorem Acts.sent (h : Acts T c d) : c.sent <+: d.sent :=
  h.keeps (I := fun d => c.sent <+: d.sent) (fun hact hc => hc.trans hact.sent) List.prefix_rfl

theorem Move.sent (h : Move c d) : c.sent <+: d.sent := by
  cases h with
  | acts h => exact h.sent
  | running => exact List.prefix_rfl
  | lease v => exact List.prefix_rfl
  | forget => exact List.prefix_rfl

theorem Moves.sent (h : Moves c d) : c.sent <+: d.sent :=
  h.keeps (I := fun d => c.sent <+: d.sent) (fun hmove hc => hc.trans hmove.sent) List.prefix_rfl

theorem sent_removeKeepalivePath (x : Deletor) (delay : Bool) (c : EtcdState) :
    c.sent <+: (removeKeepalivePath e x delay c).sent :=
  removeKeepalivePath_induct (I := fun d => c.sent <+: d.sent) (fun _ _ _ _ _ h => h)
    (fun _ _ _ h => h.trans (List.prefix_append ..)) x delay List.prefix_rfl

theorem Round.sent (h : Round e c d) : c.sent <+: d.sent :=
  h.keeps (I := fun d => c.sent <+: d.sent) (fun hmove hc => hc.trans hmove.sent) (fun _ _ _ _ _ h => h)
    (fun _ _ _ h => h.trans (List.prefix_append ..)) List.prefix_rfl

theorem Did.sent {ev : EtcdEvent} (h : Did e c ev d) : c.sent <+: d.sent := by
  cases h with
  | quiet ev h => exact h.sent
  | tick h => exact h.sent
  | add hnew hlease h => exact hlease.sent.trans h.sent
  | remove hfound hdata => exact sent_removeKeepalivePath _ false (c.delist _)
  | drop hfound hdata => exact List.prefix_rfl
  | setChecker k fn => exact List.prefix_rfl
  | setValue hvalue h hidle => exact h.sent
  | checkFailed hs hrpc htarget hask h => exact h.sent
  | checked hs hrpc htarget hask hr hfound h => exact h.sent
  | putFailed hs hrpc htarget hask hr h => exact h.sent
  | acked hs hrpc htarget hask hr h => exact h.sent
  | deleted hp => exact List.prefix_rfl
  | deleteFailed hp hr h => exact h.sent.trans (sent_removeKeepalivePath _ true _)
  | answer h => exact h.sent
  | close h => exact h.moves.sent

/-! ## Acknowledged puts -/

theorem Act.acked (h : Act T c d) : d.acked = c.acked := by
  cases h with
  | quiet h =>
    simp only [EtcdState.watched, EtcdState.tracked, Prod.mk.injEq] at h
    exact h.1.2.2.2.2.2.2.2.1
  | _ => rfl

theorem Acts.acked (h : Acts T c d) : d.acked = c.acked :=
  h.keeps (I := fun d => d.acked = c.acked) (fun hact hc => hact.acked.trans hc) rfl

theorem Move.acked (h : Move c d) : d.acked = c.acked := by
  cases h with
  | acts h => exact h.acked
  | _ => rfl

theorem Moves.acked (h : Moves c d) : d.acked = c.acked :=
  h.keeps (I := fun d => d.acked = c.acked) (fun hmove hc => hmove.acked.trans hc) rfl

theorem acked_removeKeepalivePath (x : Deletor) (delay : Bool) (c : EtcdState) : (removeKeepalivePath e x delay c).acked = c.acked :=
  removeKeepalivePath_induct (I := fun d => d.acked = c.acked) (fun _ _ _ _ _ h => h) (fun _ _ _ h => h) x delay rfl

theorem Round.acked (h : Round e c d) : d.acked = c.acked :=
  h.keeps (I := fun d => d.acked = c.acked) (fun hmove hc => hmove.acked.trans hc) (fun _ _ _ _ _ h => h) (fun _ _ _ h => h) rfl

/-- only a put that is answered with success is acknowledged -/
theorem Did.acked_cases {ev : EtcdEvent} (h : Did e c ev d) : d.acked = c.acked ∨
    ∃ id r s, ev = .complete id r ∧ r.success = true ∧ c.sent[id]? = some s ∧ (∃ key value lease, s.ask = .put key value lease) ∧
      d.acked = c.acked ++ [id] := by
  cases h with
  | quiet ev h => exact .inl h.acked
  | tick h => exact .inl h.acked
  | add hnew hlease h => exact .inl (h.acked.trans hlease.acked)
  | remove hfound hdata => exact .inl (acked_removeKeepalivePath _ false (c.delist _))
  | drop hfound hdata => exact .inl rfl
  | setChecker k fn => exact .inl rfl
  | setValue hvalue h hidle => exact .inl h.acked
  | checkFailed hs hrpc htarget hask h => exact .inl h.acked
  | checked hs hrpc htarget hask hr hfound h => exact .inl h.acked
  | putFailed hs hrpc htarget hask hr h => exact .inl h.acked
  | @acked id k s r d hs hrpc htarget hask hr h => exact .inr ⟨id, r, s, rfl, hr, hs, hask, h.acked⟩
  | deleted hp => exact .inl rfl
  | deleteFailed hp hr h => exact .inl ((acked_removeKeepalivePath _ true _).trans h.acked)
  | answer h => exact .inl h.acked
  | close h => exact .inl h.moves.acked

end AtFrame.Etcd
