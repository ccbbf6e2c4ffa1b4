/-
A path that is registered again behind a removal.

`add_keepalive` drops a deletor of its path that waits. A deletor whose request runs is not on that list: its delete may be executed
behind the new put, and when it fails the deletor comes back and is tried again while the path is held. Where requests for the path
are executed in the order in which they were sent, no delete of it fails while it is held, and no other keepalive of the path is
served, the removal does not reach the new registration.

- `Held.event`: what holds of a keepalive on the list;
- `readded_keeps_key`: the statement over runs;
- `readded_loses_key`, `readded_deletes`: a delete that is executed late, and one that fails.

Premises: `Alone` and `Holds` for the other keepalives of the path and for failed deletes, `InOrder` for what the store executes,
all of them read in the state before each event. Witness `readded_keeps_key_deletedFirst`: the delete is executed before the put
of the new registration.
-/
import AtFrame.Etcd.Removed
import AtFrame.Etcd.Registration

namespace AtFrame.Etcd

open AtFrame.Lib

variable {ι : Type} [DecidableEq ι] {E : ι → EtcdEnv} {n : Net ι} {i : ι} {k N : ℕ} {path : ι → ℕ → Bytes}

/-! ## Statement -/

/-- a delete of a range that the path is in -/
def Ask.Clears (p : Bytes) : Ask → Prop
  | .delete range => range.Covers p
  | _ => False

instance (p : Bytes) : DecidablePred (Ask.Clears p) := by
  rintro (_ | _) <;> dsimp only [Ask.Clears] <;> infer_instance

/-- no other keepalive of the path is on a list or has a request out -/
def Net.Alone (n : Net ι) (i : ι) (k : ℕ) (p : Bytes) : Prop :=
  let c := n.cluster i
  ∀ l, l ≠ k → (c.keep l).path = p → l ∉ c.keepaliveActors ∧ l ∉ c.keepaliveRetryActors ∧ (c.keep l).rpc = none

/-- The keepalive stays on the list, and the lease of the key is not lost. -/
def Holds (i : ι) (k : ℕ) (p : Bytes) (n : Net ι) : NetEvent ι → Prop
  | .client j ev => j = i →
      match ev with
      | .removeKeepalive l => l ≠ k
      | .close => False
      | _ => True
  | .execute j id _ =>
      match n.store p with
      | some v => ¬ n.Sends j (· = .leaseRevoke v.2) id
      | none => True
  | .expire lease => (n.store p).map (fun v => v.2) ≠ some lease

/-- No other keepalive of the path is served, no delete of the path fails, the requests that write it are executed in the order in
which they were sent, and no delete of another range that the path is in is executed. -/
def InOrder (i : ι) (k : ℕ) (p : Bytes) (n : Net ι) : NetEvent ι → Prop
  | .client j ev => j = i →
      match ev with
      | .addKeepalive l => l ≠ k → ((n.cluster i).keep l).path ≠ p
      | .setValue l value => l ≠ k → ((n.cluster i).keep l).path = p →
        ((n.cluster i).keep l).value = value ∨ ¬ ((n.cluster i).running = true ∧ (n.cluster i).conf.lease ≠ 0)
      | .complete id r => r.failsDelete → ∀ x ∈ (n.cluster i).deletorRpcs, x.1 = id → x.2.path ≠ p
      | _ => True
  | .execute j id _ =>
      (j = i → n.Sends i (Ask.Writes p) id → ∀ id', n.Sends i (Ask.Writes p) id' → id < id' → n.outcome i id' = none) ∧
        (n.Sends j (Ask.Clears p) id → j = i ∧ n.Sends i (Ask.Deletes p) id)
  | .expire _ => True

instance (i : ι) (k : ℕ) (p : Bytes) (n : Net ι) (ev : NetEvent ι) : Decidable (Holds i k p n ev) := by
  rcases ev with ⟨_, _ | _⟩ | _ | _ <;> dsimp only [Holds] <;> try infer_instance
  rcases n.store p with _ | _ <;> infer_instance

instance (i : ι) (k : ℕ) (p : Bytes) (n : Net ι) (ev : NetEvent ι) : Decidable (InOrder i k p n ev) := by
  rcases ev with ⟨_, _ | _⟩ | _ | _ <;> dsimp only [InOrder] <;> infer_instance

/-! ## The invariant -/

/-- the other keepalives of the path -/
def Others (path : ι → ℕ → Bytes) (i : ι) (k l : ℕ) : Prop := l ≠ k ∧ path i l = path i k

/-- what holds of a keepalive on the list; `N` requests had been sent before it was added -/
structure HeldPath (i : ι) (k : ℕ) (path : ι → ℕ → Bytes) (N : ℕ) (n : Net ι) : Prop where
  sound : Sound path n
  alone : Idle (Others path i k) N (n.cluster i)
  notOwed : ¬ Owed (path i k) N (n.cluster i)
  stored : ∀ id value lease, N ≤ id → n.ask i id = some (.put (path i k) value lease) → n.outcome i id = some .done →
    n.store (path i k) = some (value, lease) ∨
      ∃ id', id < id' ∧ n.Sends i (Ask.Puts (path i k)) id' ∧ n.outcome i id' ≠ none

/-- an event of a cluster -/
theorem HeldPath.client (h : HeldPath i k path N n) {j : ι} {ev : EtcdEvent} (hallows : n.Allows j ev)
    (hholds : Holds i k (path i k) n (.client j ev)) (horder : InOrder i k (path i k) n (.client j ev)) :
    HeldPath i k path N (netEvent E n (.client j ev)) := by
  have hsound := h.sound.event (E := E) (.client j ev)
  have hrest : (netEvent E n (.client j ev)).outcome = n.outcome ∧ (netEvent E n (.client j ev)).store = n.store := by
    rw [netEvent_client hallows]
    exact ⟨rfl, rfl⟩
  have hstored : ∀ id value lease, N ≤ id → (netEvent E n (.client j ev)).ask i id = some (.put (path i k) value lease) →
      (netEvent E n (.client j ev)).outcome i id = some .done →
      (netEvent E n (.client j ev)).store (path i k) = some (value, lease) ∨
        ∃ id', id < id' ∧ (netEvent E n (.client j ev)).Sends i (Ask.Puts (path i k)) id' ∧
          (netEvent E n (.client j ev)).outcome i id' ≠ none := by
    intro id value lease hid hask ho
    rw [hrest.1] at ho ⊢
    rw [hrest.2]
    have hold : n.ask i id = some (.put (path i k) value lease) := by
      cases ha : n.ask i id with
      | none => exact absurd (ho.symm.trans (h.sound.unsent i id ha)) (Option.some_ne_none _)
      | some a => exact (ask_event ha (.client j ev)).symm.trans hask
    exact (h.stored id value lease hid hold ho).imp (fun hs => hs) fun ⟨id', hlt, hsends, hne⟩ => ⟨id', hlt, sends_event hsends _, hne⟩
  by_cases hj : j = i
  · subst hj
    have hcluster : (netEvent E n (.client j ev)).cluster j = etcdEvent (E j) (n.cluster j) ev := by
      rw [netEvent_client hallows]
      exact Function.update_self ..
    have hpaths := (h.sound.base j).paths
    have hdid := did_event (e := E j) (n.cluster j) ev
    have hleaves : ev.Leaves (Others path j k) (n.cluster j) := by
      cases ev with
      | addKeepalive l => exact fun hl => horder rfl hl.1 ((hpaths l).trans hl.2)
      | setValue l value => exact fun hl => horder rfl hl.1 ((hpaths l).trans hl.2)
      | _ => trivial
    have hasks : ev.AsksNoDelete (path j) (path j k) (n.cluster j) := by
      cases ev with
      | removeKeepalive l => exact fun hl => ⟨h.alone.actors l ⟨hholds rfl, hl⟩, h.alone.retryActors l ⟨hholds rfl, hl⟩⟩
      | complete id r => exact horder rfl
      | _ => trivial
    refine ⟨hsound, ?_, ?_, hstored⟩
    · rw [hcluster]
      exact hdid.idle hleaves h.alone
    · rw [hcluster]
      exact hdid.not_owed (h.sound.base j) hasks h.notOwed
  · have hcluster : (netEvent E n (.client j ev)).cluster i = n.cluster i := by
      rw [netEvent_client hallows]
      exact Function.update_of_ne (Ne.symm hj) ..
    exact ⟨hsound, by rw [hcluster]; exact h.alone, by rw [hcluster]; exact h.notOwed, hstored⟩

/-- why a key disappears -/
theorem store_cleared {ev : NetEvent ι} {key : Bytes} {v : Bytes × ℤ} (hv : n.store key = some v)
    (h : (netEvent E n ev).store key = none) : ev = .expire v.2 ∨
      ∃ j id granted, ev = .execute j id granted ∧ n.outcome j id = none ∧
        (n.Sends j (Ask.Clears key) id ∨ n.Sends j (· = .leaseRevoke v.2) id) := by
  have hdrop : ∀ lease, (n.drop lease).store key = none → lease = v.2 := fun lease h => by
    by_contra hne
    simp only [Net.drop, hv, Option.map_some, Option.some.injEq] at h
    rw [if_neg (Ne.symm hne)] at h
    exact Option.some_ne_none v h
  have hkept : n.store key ≠ none := by
    rw [hv]
    exact Option.some_ne_none v
  cases ev with
  | client j ev =>
    rw [netEvent] at h
    split_ifs at h
    · exact absurd h hkept
    · exact absurd h hkept
  | expire lease => exact .inl (by rw [hdrop lease h])
  | execute j id granted =>
    rw [netEvent] at h
    rcases execute_cases j id granted n with heq | ⟨s, hs, ho, heq⟩ <;> rw [heq] at h
    · exact absurd h hkept
    · refine .inr ⟨j, id, granted, rfl, ho, ?_⟩
      have hask : n.ask j id = some s.ask := by
        rw [Net.ask, hs, Option.map_some]
      cases hs : s.ask with
      | delete range =>
        refine .inl ⟨.delete range, hs ▸ hask, ?_⟩
        by_contra hcovers
        rw [hs] at h
        exact hkept ((if_neg hcovers).symm.trans h)
      | leaseRevoke lease =>
        rw [hs] at h
        exact .inr ⟨.leaseRevoke lease, hs ▸ hask, by rw [hdrop lease h]⟩
      | put key' value lease =>
        rw [hs] at h
        simp only [Net.perform] at h
        split_ifs at h
        · have hupdate : Function.update n.store key' (some (value, lease)) key = none := h
          by_cases hkey : key = key'
          · rw [hkey, Function.update_self] at hupdate
            cases hupdate
          · rw [Function.update_of_ne hkey] at hupdate
            exact absurd hupdate hkept
        · exact absurd h hkept
      | _ =>
        rw [hs] at h
        exact absurd h hkept

/-- an event of the store -/
theorem HeldPath.stored_event (h : HeldPath i k path N n) {ev : NetEvent ι} (hpath : ∀ j l, path j l = path i k → j = i)
    (hholds : Holds i k (path i k) n ev) (horder : InOrder i k (path i k) n ev) (hstore : ∀ j ev', ev ≠ .client j ev') :
    HeldPath i k path N (netEvent E n ev) := by
  have hcluster : (netEvent E n ev).cluster = n.cluster := by
    funext j
    rcases cluster_event (E := E) n ev j with heq | ⟨ev', heq, -⟩
    · exact heq
    · exact absurd heq (hstore j ev')
  refine ⟨h.sound.event ev, by rw [hcluster]; exact h.alone, by rw [hcluster]; exact h.notOwed, fun id value lease hid hask ho => ?_⟩
  have hask' : n.ask i id = some (.put (path i k) value lease) := by
    rw [Net.ask, ← hcluster]
    exact hask
  have hwrites : n.Sends i (Ask.Writes (path i k)) id := ⟨_, hask', .inl ⟨value, lease, rfl⟩⟩
  rcases outcome_event (E := E) n ev i id with hsame | ⟨granted, a, rfl, ha, hnone, hnew⟩
  · -- the put had been executed before
    rw [hsame] at ho
    have hlater : ∀ id', n.Sends i (Ask.Writes (path i k)) id' → n.outcome i id' = none → ∀ granted, ev = .execute i id' granted →
        id < id' := by
      rintro id' hid' hnone granted rfl
      rcases Nat.lt_trichotomy id id' with hlt | rfl | hlt
      · exact hlt
      · exact absurd (hnone.symm.trans ho) (Option.some_ne_none _).symm
      · exact absurd ((horder.1 rfl hid' id hwrites hlt).symm.trans ho) (Option.some_ne_none _).symm
    rcases h.stored id value lease hid hask' ho with hs | ⟨id', hlt, hsends, hne⟩
    · rcases store_event (E := E) n ev (path i k) with heq | hcleared | ⟨j, id', granted, value', lease', rfl, hput, hnone, -⟩
      · exact .inl (heq.trans hs)
      · exfalso
        rcases store_cleared hs hcleared with rfl | ⟨j, id', granted, rfl, hnone, hclears | hrevokes⟩
        · exact hholds (by rw [hs, Option.map_some])
        · obtain ⟨rfl, hdel⟩ := horder.2 hclears
          obtain ⟨a, ha, hdel⟩ := hdel
          have hlt := hlater id' ⟨a, ha, .inr hdel⟩ hnone granted rfl
          obtain ⟨s, hs', rfl⟩ := Option.map_eq_some_iff.1 ha
          exact h.notOwed (.inr ⟨id', s, hid.trans hlt.le, hs', hdel⟩)
        · unfold Holds at hholds
          rw [hs] at hholds
          exact hholds hrevokes
      · have hj : j = i := by
          obtain ⟨s, hs', hsask⟩ := Option.map_eq_some_iff.1 hput
          obtain ⟨l, hl, -⟩ := (h.sound.base j).puts s (List.mem_of_getElem? hs') _ _ _ hsask
          exact hpath j l hl.symm
        subst hj
        refine .inr ⟨id', hlater id' ⟨_, hput, .inl ⟨value', lease', rfl⟩⟩ hnone granted rfl,
          sends_event ⟨_, hput, value', lease', rfl⟩ _, ?_⟩
        rw [netEvent_execute granted hput hnone]
        simp only [Function.update_self]
        exact Option.some_ne_none _
    · obtain ⟨o, ho'⟩ := Option.ne_none_iff_exists'.1 hne
      exact .inr ⟨id', hlt, sends_event hsends ev, by rw [outcome_stays ho' ev]; exact Option.some_ne_none o⟩
  · -- the put is executed
    obtain rfl := Option.some.inj (ha.symm.trans hask')
    rw [hnew] at ho
    refine .inl ?_
    rw [netEvent_execute granted hask' hnone]
    simp only [Net.perform] at ho ⊢
    by_cases halive : n.alive lease = true
    · rw [if_pos halive]
      exact Function.update_self ..
    · rw [if_neg halive] at ho
      cases ho

/-- **A keepalive on the list** keeps what it has put. -/
theorem HeldPath.event (h : HeldPath i k path N n) (hpath : ∀ j l, path j l = path i k → j = i) (ev : NetEvent ι)
    (hholds : Holds i k (path i k) n ev) (horder : InOrder i k (path i k) n ev) : HeldPath i k path N (netEvent E n ev) := by
  cases ev with
  | client j ev =>
    by_cases hallows : n.Allows j ev
    · exact h.client hallows hholds horder
    · rw [netEvent, if_neg hallows]
      exact h
  | execute j id granted => exact h.stored_event hpath hholds horder fun _ _ h => by cases h
  | expire lease => exact h.stored_event hpath hholds horder fun _ _ h => by cases h

/-! ## The addition -/

/-- **The addition** of a keepalive whose path no other keepalive of the cluster is served for. -/
theorem heldPath_added (hs : Sound path n) (hopen : (n.cluster i).closing = false) (hnew : k ∉ (n.cluster i).keepaliveActors)
    (halone : n.Alone i k (path i k)) :
    HeldPath i k path (n.cluster i).sent.length (netEvent E n (.client i (.addKeepalive k))) := by
  have hsound := hs.event (E := E) (.client i (.addKeepalive k))
  have hevent : netEvent E n (.client i (.addKeepalive k)) =
      { n with cluster := Function.update n.cluster i (addKeepalive (E i) k (n.cluster i)) } := netEvent_client (E := E) trivial
  have hcluster : (netEvent E n (.client i (.addKeepalive k))).cluster i = addKeepalive (E i) k (n.cluster i) := by
    rw [hevent]
    exact Function.update_self ..
  have hpaths := (hs.base i).paths
  have hothers : ∀ l, Others path i k l → l ∉ (n.cluster i).keepaliveActors ∧ l ∉ (n.cluster i).keepaliveRetryActors ∧
      ((n.cluster i).keep l).rpc = none := fun l hl => halone l hl.1 ((hpaths l).trans hl.2)
  have hidle : Idle (Others path i k) (n.cluster i).sent.length (n.cluster i) := by
    refine ⟨fun l hl => (hothers l hl).1, fun l hl => (hothers l hl).2.1, fun l hl => (hothers l hl).2.2, fun id s _ hid hsent => ?_⟩
    exact absurd (hsent.symm.trans (List.getElem?_eq_none hid)) (Option.some_ne_none s)
  refine ⟨hsound, ?_, ?_, fun id value lease hid _ ho => ?_⟩
  · rw [hcluster]
    exact (did_addKeepalive (e := E i) k (n.cluster i)).idle (fun hk => hk.1 rfl) hidle
  · rw [hcluster]
    -- deletors of the path that wait are dropped
    have hlisted : ∀ c : EtcdState, (c.keep k).path = path i k → ¬ Asked (path i k) (n.cluster i).sent.length c →
        ¬ Owed (path i k) (n.cluster i).sent.length (c.enlist k) := by
      rintro c hc hasked (⟨x, hx, hp⟩ | hsent)
      · exact absurd (hp.trans hc.symm) (of_decide_eq_true (List.mem_filter.1 hx).2)
      · exact hasked hsent
    have hasked : ¬ Asked (path i k) (n.cluster i).sent.length ((n.cluster i).record (.add k)) := by
      rintro ⟨id, s, hid, hsent, -⟩
      exact absurd (hsent.symm.trans (List.getElem?_eq_none hid)) (Option.some_ne_none s)
    have hlease := acts_enableLease (e := E i) (T := nobody) ((n.cluster i).record (.add k))
    have hbase : Base (path i) ((n.cluster i).record (.add k)) :=
      ⟨hpaths, (hs.base i).puts, (hs.base i).actors, (hs.base i).retryActors⟩
    have hlist := hlisted _ ((hlease.base hbase).paths k) fun h => hasked (hlease.asked.1 h)
    have hopen' : ¬ ((n.cluster i).record (.add k)).closing = true := fun h => Bool.false_ne_true (hopen.symm.trans h)
    have hnew' : k ∉ ((n.cluster i).record (.add k)).keepaliveActors := hnew
    unfold addKeepalive
    simp only
    rw [if_neg hopen', if_neg hnew']
    split_ifs
    · exact fun h => hlist ((acts_active (T := (· = k)) rfl _).owed.1 h)
    · exact hlist
  · have hnone : (netEvent E n (.client i (.addKeepalive k))).outcome i id = none := by
      rw [hevent]
      refine hs.unsent i id ?_
      rw [Net.ask, List.getElem?_eq_none hid]
      rfl
    exact absurd (hnone.symm.trans ho) (Option.some_ne_none _).symm

/-! ## Runs -/

theorem HeldPath.run (h : HeldPath i k path N n) (hpath : ∀ j l, path j l = path i k → j = i) {events : List (NetEvent ι)}
    (hholds : Meets (netEvent E) (Holds i k (path i k)) n events)
    (horder : Meets (netEvent E) (InOrder i k (path i k)) n events) : HeldPath i k path N (netRun E n events) :=
  (hholds.and horder).invariant (fun _ ev h hev => h.event hpath ev hev.1 hev.2) h

omit [DecidableEq ι] in
/-- what the keepalive has put last is in the store -/
theorem HeldPath.kept (h : HeldPath i k path N n) {id : ℕ} {value : Bytes} {lease : ℤ} (hid : N ≤ id)
    (hlast : LastPut (n.cluster i).toCluster k id value lease) (hacked : id ∈ (n.cluster i).acked) :
    n.store (path i k) = some (value, lease) := by
  obtain ⟨⟨host, hsent⟩, hlater⟩ := hlast
  have hask : n.ask i id = some (.put (path i k) value lease) := by
    rw [Net.ask, hsent, Option.map_some, (h.sound.base i).paths k]
  rcases h.stored id value lease hid hask (h.sound.acked i id hacked) with hs | ⟨id', hlt, hsends, -⟩
  · exact hs
  · exfalso
    obtain ⟨s, hs, value', lease', hput⟩ := sends_iff.1 hsends
    obtain ⟨l, hl, htarget⟩ := (h.sound.base i).puts s (List.mem_of_getElem? hs) _ _ _ hput
    by_cases hlk : l = k
    · exact hlater id' s hlt hs (hlk ▸ htarget) _ _ _ hput
    · exact h.alone.puts id' s l (hid.trans hlt.le) hs ⟨hlk, hl.symm⟩ htarget _ _ _ hput

/-- a run from the start, with the addition of the keepalive -/
theorem heldPath_behind {conf : ι → EtcdConf} {checker : ι → ℕ → Option (Bytes → Bool)} {before behind : List (NetEvent ι)}
    (hpath : ∀ j l, path j l = path i k → j = i)
    (hadded : let c := (netRun E (.start conf path checker) before).cluster i
      c.closing = false ∧ k ∉ c.keepaliveActors)
    (halone : (netRun E (.start conf path checker) before).Alone i k (path i k))
    (hholds : Meets (netEvent E) (Holds i k (path i k))
      (netRun E (.start conf path checker) (before ++ [.client i (.addKeepalive k)])) behind)
    (horder : Meets (netEvent E) (InOrder i k (path i k))
      (netRun E (.start conf path checker) (before ++ [.client i (.addKeepalive k)])) behind) :
    HeldPath i k path ((netRun E (.start conf path checker) before).cluster i).sent.length
      (netRun E (.start conf path checker) (before ++ .client i (.addKeepalive k) :: behind)) := by
  have hsplit : ∀ events, netRun E (.start conf path checker) (before ++ .client i (.addKeepalive k) :: events) =
      netRun E (netEvent E (netRun E (.start conf path checker) before) (.client i (.addKeepalive k))) events :=
    fun events => netRun_append _ before _
  have hfirst := heldPath_added (E := E) ((sound_start conf path checker).run before) hadded.1 hadded.2 halone
  rw [hsplit] at hholds horder ⊢
  exact hfirst.run hpath hholds horder

/-- **A new registration is not undone by an earlier removal**, in any run in which the keepalive stays on the list behind its
addition, no other keepalive of its path is served, no delete of the path fails, and the requests for the path are executed in the
order in which they were sent: no delete of it is sent, and the store has what the keepalive put last. -/
theorem readded_keeps_key (E : ι → EtcdEnv) (conf : ι → EtcdConf) (path : ι → ℕ → Bytes)
    (checker : ι → ℕ → Option (Bytes → Bool)) (i : ι) (k : ℕ) (hpath : ∀ j l, path j l = path i k → j = i)
    (before behind : List (NetEvent ι))
    (hadded : let c := (netRun E (.start conf path checker) before).cluster i
      c.closing = false ∧ k ∉ c.keepaliveActors)
    (halone : (netRun E (.start conf path checker) before).Alone i k (path i k))
    (hholds : Meets (netEvent E) (Holds i k (path i k))
      (netRun E (.start conf path checker) (before ++ [.client i (.addKeepalive k)])) behind)
    (horder : Meets (netEvent E) (InOrder i k (path i k))
      (netRun E (.start conf path checker) (before ++ [.client i (.addKeepalive k)])) behind) :
    let n := netRun E (.start conf path checker) (before ++ .client i (.addKeepalive k) :: behind)
    let N := ((netRun E (.start conf path checker) before).cluster i).sent.length
    (∀ id, N ≤ id → ¬ n.Sends i (Ask.Deletes (path i k)) id) ∧
      ∀ id value lease, N ≤ id → LastPut (n.cluster i).toCluster k id value lease → id ∈ (n.cluster i).acked →
        n.store (path i k) = some (value, lease) := by
  intro n N
  have hn : HeldPath i k path N n := heldPath_behind hpath hadded halone hholds horder
  refine ⟨fun id hid hdel => ?_, fun id value lease hid hlast hacked => hn.kept hid hlast hacked⟩
  obtain ⟨s, hs, hdel⟩ := sends_iff.1 hdel
  exact hn.notOwed (.inr ⟨id, s, hid, hs, hdel⟩)

/-- two keepalives for each path -/
def sharedPath (_ : Unit) (k : ℕ) : Bytes := List.replicate (k / 2 + 1) 1

def Net.shared : Net Unit := .start (fun _ => { pathNode := "http://etcd" }) sharedPath fun _ _ => none

/-- a keepalive that is registered, and removed -/
def removed : List (NetEvent Unit) := putAnswered ++ [.client () (.removeKeepalive 0)]

/-- the delete, and then the put of the new keepalive are executed -/
def deletedFirst : List (NetEvent Unit) := [.execute () 2 7, .execute () 3 7, .client () (.complete 3 (.plain 200))]

/-- the put of the new keepalive, and then the delete are executed -/
def deletedLate : List (NetEvent Unit) := [.execute () 3 7, .client () (.complete 3 (.plain 200)), .execute () 2 7]

/-- the delete fails, and is tried again by the next tick -/
def deleteFails : List (NetEvent Unit) := [.client () (.complete 2 (.plain 500)), .client () .tick]

theorem readded_keeps_key_deletedFirst :
    (netRun steadyEnv .shared (removed ++ .client () (.addKeepalive 1) :: deletedFirst)).store (sharedPath () 1) = some ([], 7) := by
  have hadded : let c := (netRun steadyEnv .shared removed).cluster ()
      c.closing = false ∧ 1 ∉ c.keepaliveActors := by decide +kernel
  have hpaths : ∀ l, (((netRun steadyEnv .shared removed).cluster ()).keep l).path = sharedPath () l :=
    (((sound_start _ sharedPath _).run removed).base ()).paths
  have halone : (netRun steadyEnv .shared removed).Alone () 1 (sharedPath () 1) := by
    intro l hl hpath
    rw [hpaths] at hpath
    have hlen := congrArg List.length hpath
    rw [sharedPath, sharedPath, List.length_replicate, List.length_replicate] at hlen
    obtain rfl : l = 0 := by omega
    decide +kernel
  have hlen : ((netRun steadyEnv .shared (removed ++ .client () (.addKeepalive 1) :: deletedFirst)).cluster ()).sent.length = 4 := by
    decide +kernel
  refine (readded_keeps_key steadyEnv _ sharedPath _ () 1 (fun _ _ _ => rfl) removed deletedFirst hadded halone (by decide +kernel)
    (by decide +kernel)).2 3 [] 7 (by decide +kernel) ⟨⟨"http://etcd", by decide +kernel⟩, fun j s hj hs => ?_⟩ (by decide +kernel)
  exact absurd ((List.getElem?_eq_some_iff.1 hs).1.trans_eq hlen) (Nat.not_lt.2 hj)

/-- the delete that was sent for the removal is executed behind the put of the new keepalive: the key is gone -/
theorem readded_loses_key :
    let n := netRun steadyEnv .shared (removed ++ .client () (.addKeepalive 1) :: deletedLate)
    let c := n.cluster ()
    n.Quiet () (sharedPath () 1) ∧ 1 ∈ c.keepaliveActors ∧ 1 ∉ c.keepaliveRetryActors ∧ n.alive 7 = true ∧
      n.ask () 3 = some (.put (sharedPath () 1) [] 7) ∧ c.sent.length = 4 ∧ 3 ∈ c.acked ∧ n.store (sharedPath () 1) = none := by
  refine ⟨by decide +kernel, by decide +kernel, by decide +kernel, by decide +kernel, by decide +kernel, by decide +kernel,
    by decide +kernel, by decide +kernel⟩

/-- a delete that fails is tried again while its path is held -/
theorem readded_deletes :
    let n := netRun steadyEnv .shared (removed ++ .client () (.addKeepalive 1) :: deleteFails)
    1 ∈ (n.cluster ()).keepaliveActors ∧ n.Sends () (Ask.Deletes (sharedPath () 1)) 4 := by
  refine ⟨by decide +kernel, by decide +kernel⟩

end AtFrame.Etcd
