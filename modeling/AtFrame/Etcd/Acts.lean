/-
What the functions of a cluster do, as a list of elementary acts.

`Acts T c d`: `c` becomes `d` by changes of fields that no keepalive depends on, requests of the cluster itself, and acts of the
keepalives in `T`: one that has no request out and no check behind it sends a check, one whose check has passed sends a put, and
one may be put on the retry list. `Turns` adds what happens with a lease, and `Round` one look at what waits to be retried; what
needs to know less of both goes by `Moves`, where any keepalives of the lists may act. What is proved of the acts is proved of
every function.

- `acts_active`: one keepalive is activated;
- `removeKeepalivePath_cases`: a deletor waits, gives up or sends its request;
- `round_tick`, `round_onLeaseKeepalive`, ...: what the cluster does by itself and for the answers to its own requests;
- `Did`: what each event leads to, with what it says of its keepalive and of the request that was answered;
- `did_event`: every event of the cluster does one of these.
-/
import AtFrame.Lib.SwapErase
import AtFrame.Etcd.Cluster

namespace AtFrame.Etcd

variable {e : EtcdEnv} {T T' : ℕ → Prop} {c d : EtcdState}

/-- the fields that keepalives depend on -/
def EtcdState.tracked (c : EtcdState) :=
  (c.keep, c.sent, c.conf.lease, c.closing, c.running, c.keepaliveActors, c.keepaliveRetryActors, c.acked, c.history)

/-- those and the deletors -/
def EtcdState.watched (c : EtcdState) := (c.tracked, c.keepaliveDeletors, c.deletorRpcs)

/-- a request that touches no key -/
def Ask.Own : Ask → Prop
  | .get _ | .put _ _ _ | .delete _ => False
  | _ => True

/-- the state behind a request of a keepalive that was started -/
def EtcdState.sendFor (k : ℕ) (ask : Ask) (c : EtcdState) : EtcdState :=
  EtcdState.setKeep k { c.keep k with rpc := some c.sent.length }
    { c with starts := c.starts + 1, sent := c.sent ++ [⟨c.conf.pathNode, ask, .keepalive k⟩] }

inductive Act (T : ℕ → Prop) : EtcdState → EtcdState → Prop
  | quiet {c d : EtcdState} (h : d.watched = c.watched) : Act T c d
  | record (c : EtcdState) (step : EtcdStep) : Act T c (c.record step)
  | request (c : EtcdState) (host : String) {ask : Ask} (h : ask.Own) :
      Act T c { c with starts := c.starts + 1, sent := c.sent ++ [⟨host, ask, .cluster⟩] }
  | tune (c : EtcdState) {k : ℕ} (hk : T k) (retryTimes : ℕ) (isActived isValueChanged : Bool) :
      Act T c (c.setKeep k { c.keep k with retryTimes := retryTimes, isActived := isActived, isValueChanged := isValueChanged })
  /-- without a checker a check counts as run and passed -/
  | unchecked {c : EtcdState} {k : ℕ} (hk : T k) (h : (c.keep k).checker = none) :
      Act T c (c.setKeep k { c.keep k with isCheckRun := true, isCheckPassed := true })
  | get {c : EtcdState} {k : ℕ} (hk : T k) (hrpc : (c.keep k).rpc = none) (hrun : (c.keep k).isCheckRun = false) :
      Act T c (c.sendFor k (.get (packKeyRange (c.keep k).path [])))
  | put {c : EtcdState} {k : ℕ} (hk : T k) (hrpc : (c.keep k).rpc = none) (hrun : (c.keep k).isCheckRun = true)
      (hpassed : (c.keep k).isCheckPassed = true) :
      Act T c (c.sendFor k (.put (c.keep k).path (c.keep k).value c.conf.lease))
  | retry {c : EtcdState} {k : ℕ} (hk : T k) (hnew : k ∉ c.keepaliveRetryActors) :
      Act T c { c with keepaliveRetryActors := c.keepaliveRetryActors ++ [k] }

def Acts (T : ℕ → Prop) : EtcdState → EtcdState → Prop := Relation.ReflTransGen (Act T)

theorem Acts.refl (T : ℕ → Prop) (c : EtcdState) : Acts T c c := Relation.ReflTransGen.refl

theorem Acts.trans {b : EtcdState} (h : Acts T c d) (h' : Acts T d b) : Acts T c b := Relation.ReflTransGen.trans h h'

theorem Act.acts (h : Act T c d) : Acts T c d := Relation.ReflTransGen.single h

theorem Act.mono (h : Act T c d) (hT : ∀ k, T k → T' k) : Act T' c d := by
  cases h with
  | quiet h => exact .quiet h
  | record step => exact .record c step
  | request host h => exact .request c host h
  | tune hk n a v => exact .tune c (hT _ hk) n a v
  | unchecked hk h => exact .unchecked (hT _ hk) h
  | get hk hrpc hrun => exact .get (hT _ hk) hrpc hrun
  | put hk hrpc hrun hpassed => exact .put (hT _ hk) hrpc hrun hpassed
  | retry hk hnew => exact .retry (hT _ hk) hnew

theorem Acts.mono (h : Acts T c d) (hT : ∀ k, T k → T' k) : Acts T' c d :=
  Relation.ReflTransGen.mono (fun _ _ (h : Act T _ _) => h.mono hT) c d h

/-- no keepalive -/
def nobody : ℕ → Prop := fun _ => False

theorem Acts.none (h : Acts nobody c d) : Acts T c d := h.mono fun _ => False.elim

theorem acts_of_eq (h : d.watched = c.watched) : Acts T c d := (Act.quiet h).acts

/-- what each act keeps is kept -/
theorem Acts.keeps {I : EtcdState → Prop} (h : Acts T c d) (hI : ∀ {c d}, Act T c d → I c → I d) (hc : I c) : I d := by
  induction h with
  | refl => exact hc
  | tail _ hact ih => exact hI hact ih

theorem acts_ite {p : Prop} [Decidable p] {a b : EtcdState} (ha : Acts T c a) (hb : Acts T c b) :
    Acts T c (if p then a else b) := by
  split_ifs
  · exact ha
  · exact hb

/-! ## Requests -/

theorem acts_createHttp (c : EtcdState) : Acts T c (createHttp e c).2 := acts_of_eq rfl

theorem acts_createRequestKv (c : EtcdState) : Acts T c (createRequestKv e c).2 := by
  unfold createRequestKv
  split_ifs
  · exact acts_createHttp c
  · exact Acts.refl _ c

theorem acts_createRequestKvSet (c : EtcdState) : Acts T c (createRequestKvSet e c).2 := by
  unfold createRequestKvSet
  split_ifs
  · exact acts_createHttp c
  · exact Acts.refl _ c

theorem acts_clusterRequest (host : String) {ask : Ask} (h : ask.Own) (c : EtcdState) :
    Acts T c (clusterRequest e host ask c).2 := by
  unfold clusterRequest startHttp
  simp only
  split_ifs
  · exact (acts_createHttp (e := e) c).trans (Act.request _ host h).acts
  · exact (acts_createHttp (e := e) c).trans (acts_of_eq rfl)
  · exact acts_createHttp (e := e) c

theorem acts_setConf {conf : EtcdConf} (h : conf.lease = c.conf.lease) : Acts T c (c.setConf conf) :=
  acts_of_eq (by simp only [EtcdState.watched, EtcdState.tracked, EtcdState.setConf, h])

/-- a request behind a change of the configuration that leaves the lease -/
theorem acts_timedRequest {conf : EtcdConf} (h : conf.lease = c.conf.lease) (host : String) {ask : Ask} (hask : ask.Own) :
    Acts T c (clusterRequest e host ask (c.setConf conf)).2 :=
  (acts_setConf h).trans (acts_clusterRequest host hask _)

theorem Acts.quiet {b : EtcdState} (h : Acts T c d) (heq : b.watched = d.watched) : Acts T c b := h.trans (acts_of_eq heq)

theorem acts_createRequestLeaseGrant (c : EtcdState) : Acts T c (createRequestLeaseGrant e c) := by
  unfold createRequestLeaseGrant
  simp only
  split_ifs
  · exact Acts.refl _ c
  · exact Acts.refl _ c
  · exact Acts.refl _ c
  · exact Acts.quiet (acts_timedRequest (by rfl) _ (by trivial)) rfl

theorem acts_createRequestLeaseKeepalive (c : EtcdState) : Acts T c (createRequestLeaseKeepalive e c) := by
  unfold createRequestLeaseKeepalive
  simp only
  split_ifs
  · exact Acts.refl _ c
  · exact Acts.refl _ c
  · exact Acts.refl _ c
  · exact Acts.refl _ c
  · exact Acts.quiet (acts_timedRequest (by rfl) _ (by trivial)) rfl

theorem acts_enableLease (c : EtcdState) : Acts T c (enableLease e c) := by
  unfold enableLease
  split_ifs
  · exact Acts.refl _ c
  · exact (acts_of_eq rfl : Acts T c { c with enableLease := true }).trans (acts_createRequestLeaseGrant _)

/-! ## One keepalive -/

@[simp] theorem setKeep_keep (k : ℕ) (x : Keepalive) (c : EtcdState) : (c.setKeep k x).keep k = x := Function.update_self ..

@[simp] theorem setKeep_setKeep (k : ℕ) (x y : Keepalive) (c : EtcdState) : (c.setKeep k x).setKeep k y = c.setKeep k y := by
  unfold EtcdState.setKeep
  simp only [Function.update_idem]

/-- the retry list is that of the keepalives that act -/
theorem Acts.retry_eq (h : Acts nobody c d) : d.keepaliveRetryActors = c.keepaliveRetryActors := by
  refine h.keeps (I := fun d => d.keepaliveRetryActors = c.keepaliveRetryActors) (fun hact hc => ?_) rfl
  cases hact with
  | quiet h =>
    simp only [EtcdState.watched, EtcdState.tracked, Prod.mk.injEq] at h
    exact h.1.2.2.2.2.2.2.1.trans hc
  | record step => exact hc
  | request host h => exact hc
  | tune hk => exact hk.elim
  | unchecked hk => exact hk.elim
  | get hk => exact hk.elim
  | put hk => exact hk.elim
  | retry hk => exact hk.elim

theorem acts_addRetryKeepalive {k : ℕ} (hk : T k) (c : EtcdState) : Acts T c (addRetryKeepalive e k c) := by
  unfold addRetryKeepalive
  simp only
  split_ifs with hclosing hmem
  · exact Acts.refl _ c
  · exact Acts.refl _ c
  · have hlease := acts_enableLease (e := e) (T := nobody) c
    exact hlease.none.trans (Act.retry hk (by rw [hlease.retry_eq]; exact hmem)).acts

/-- a request that a keepalive may send is started, or the keepalive is to be retried -/
theorem acts_startKeepalive {k : ℕ} (hk : T k) {ask : Ask} (c : EtcdState)
    (h : ∀ n, Act T { c with starts := n } (EtcdState.sendFor k ask { c with starts := n })) : Acts T c (startKeepalive e k ask c) := by
  unfold startKeepalive startHttp
  split_ifs
  · exact (h c.starts).acts
  · exact (acts_of_eq rfl : Acts T c { c with starts := c.starts + 1 }).trans (acts_addRetryKeepalive hk _)

theorem createRequestKv_keep (c : EtcdState) : (createRequestKv e c).2.keep = c.keep := by
  unfold createRequestKv
  split_ifs <;> rfl

theorem createRequestKvSet_keep (c : EtcdState) : (createRequestKvSet e c).2.keep = c.keep := by
  unfold createRequestKvSet
  split_ifs <;> rfl

theorem acts_processCheck {k : ℕ} (hk : T k) (hrpc : (c.keep k).rpc = none) (hrun : (c.keep k).isCheckRun = false) :
    Acts T c (processCheck e k c) := by
  unfold processCheck
  have hcreate := acts_createRequestKv (e := e) (T := T) c
  have hkeep := createRequestKv_keep (e := e) c
  set c₁ := (createRequestKv e c).2
  simp only
  split_ifs
  · refine hcreate.trans (acts_startKeepalive hk c₁ fun n => ?_)
    exact .get hk (by rw [hkeep]; exact hrpc) (by rw [hkeep]; exact hrun)
  · refine (hcreate.trans ?_).trans (acts_addRetryKeepalive hk _)
    exact (Act.tune c₁ hk _ (c₁.keep k).isActived (c₁.keep k).isValueChanged).acts

theorem acts_processSet {k : ℕ} (hk : T k) (hrpc : (c.keep k).rpc = none) (hrun : (c.keep k).isCheckRun = true)
    (hpassed : (c.keep k).isCheckPassed = true) : Acts T c (processSet e k c) := by
  unfold processSet
  have hcreate := acts_createRequestKvSet (e := e) (T := T) c
  have hkeep := createRequestKvSet_keep (e := e) c
  set c₁ := (createRequestKvSet e c).2
  simp only
  split_ifs
  · refine (hcreate.trans (Act.tune c₁ hk (c₁.keep k).retryTimes (c₁.keep k).isActived false).acts).trans ?_
    set c₂ := c₁.setKeep k { c₁.keep k with isValueChanged := false }
    have hkeep₂ : c₂.keep k = { c.keep k with isValueChanged := false } := by rw [setKeep_keep, hkeep]
    refine acts_startKeepalive hk c₂ fun n => .put hk ?_ ?_ ?_
    · rw [hkeep₂]; exact hrpc
    · rw [hkeep₂]; exact hrun
    · rw [hkeep₂]; exact hpassed
  · exact hcreate.trans (acts_addRetryKeepalive hk _)

theorem prepare_none {x : Keepalive} (h : x.checker = none) :
    x.prepare = { x with isActived := false, isCheckRun := true, isCheckPassed := true, retryTimes := x.retryTimes + 1 } := by
  rw [Keepalive.prepare, h]

theorem prepare_some {x : Keepalive} {fn : Bytes → Bool} (h : x.checker = some fn) : x.prepare = { x with isActived := false } := by
  rw [Keepalive.prepare, h]

/-- the checker is looked at -/
theorem acts_prepare {k : ℕ} (hk : T k) (c : EtcdState) : Acts T c (c.setKeep k (c.keep k).prepare) := by
  cases hchk : (c.keep k).checker with
  | some fn =>
    rw [prepare_some hchk]
    exact (Act.tune c hk (c.keep k).retryTimes false (c.keep k).isValueChanged).acts
  | none =>
    rw [prepare_none hchk]
    have htune := Act.tune c hk ((c.keep k).retryTimes + 1) false (c.keep k).isValueChanged
    have hrun := Act.unchecked (T := T) (k := k) hk (c := c.setKeep k
      { c.keep k with retryTimes := (c.keep k).retryTimes + 1, isActived := false, isValueChanged := (c.keep k).isValueChanged })
      (by rw [setKeep_keep]; exact hchk)
    rw [setKeep_setKeep, setKeep_keep] at hrun
    exact htune.acts.trans hrun.acts

theorem prepare_rpc (x : Keepalive) : x.prepare.rpc = x.rpc := by
  cases hchk : x.checker with
  | none => rw [prepare_none hchk]
  | some fn => rw [prepare_some hchk]

theorem acts_process {k : ℕ} (hk : T k) (c : EtcdState) : Acts T c (process e k c) := by
  unfold process
  have hprepare := acts_prepare hk c
  have hkeep : (c.setKeep k (c.keep k).prepare).keep k = (c.keep k).prepare := setKeep_keep ..
  have hrpc := prepare_rpc (c.keep k)
  simp only [hkeep]
  split_ifs with hsome hrun hset
  · exact Acts.refl _ c
  all_goals rw [Option.not_isSome_iff_eq_none] at hsome
  · exact hprepare.trans (acts_processSet hk (by rw [hkeep, hrpc]; exact hsome) (by rw [hkeep]; exact hrun)
      (by rw [hkeep]; exact hset.1))
  · exact hprepare
  · exact hprepare.trans (acts_processCheck hk (by rw [hkeep, hrpc]; exact hsome)
      (by rw [hkeep]; exact Bool.not_eq_true _ ▸ hrun))

theorem acts_active {k : ℕ} (hk : T k) (c : EtcdState) : Acts T c (active e k c) :=
  (Act.tune c hk (c.keep k).retryTimes true (c.keep k).isValueChanged).acts.trans (acts_process hk _)

theorem acts_resetValueChanged {k : ℕ} (hk : T k) (c : EtcdState) : Acts T c (resetValueChanged k c) :=
  (Act.tune c hk (c.keep k).retryTimes (c.keep k).isActived true).acts

theorem acts_retryKeepalive {k : ℕ} (hk : T k) (c : EtcdState) : Acts T c (retryKeepalive e c k) :=
  ((Act.record c (.retry k)).acts.trans (acts_resetValueChanged hk _)).trans (acts_active hk _)

theorem acts_renewKeepalive {k : ℕ} (hk : T k) (c : EtcdState) : Acts T c (renewKeepalive e c k) :=
  (acts_resetValueChanged hk c).trans (acts_active hk _)

/-- a loop over keepalives -/
theorem acts_foldl {f : EtcdState → ℕ → EtcdState} (hf : ∀ c k, T k → Acts T c (f c k)) {ks : List ℕ} (hks : ∀ k ∈ ks, T k)
    (c : EtcdState) : Acts T c (ks.foldl f c) := by
  induction ks generalizing c with
  | nil => exact Acts.refl _ c
  | cons k ks ih =>
    exact (hf c k (hks k List.mem_cons_self)).trans (ih (fun j hj => hks j (List.mem_cons_of_mem k hj)) (f c k))

/-! ## Members and authorization -/

theorem acts_pickHost (hosts : List String) (c : EtcdState) : Acts T c (pickHost e hosts c).2 := acts_of_eq rfl

/-- a request to a host that is picked behind such a change -/
theorem acts_pickedRequest {conf : EtcdConf} (h : conf.lease = c.conf.lease) (hosts : List String) (host : String) {ask : Ask}
    (hask : ask.Own) : Acts T c (clusterRequest e host ask (pickHost e hosts (c.setConf conf)).2).2 :=
  ((acts_setConf h).trans (acts_pickHost hosts _)).trans (acts_clusterRequest host hask _)

theorem acts_createRequestMemberUpdate (c : EtcdState) : Acts T c (createRequestMemberUpdate e c) := by
  unfold createRequestMemberUpdate
  simp only
  split_ifs
  all_goals try exact Acts.refl _ c
  all_goals exact Acts.quiet (acts_pickedRequest (by rfl) _ _ (by trivial)) rfl

theorem acts_leaveBadHost (badUrl : String) (c : EtcdState) : Acts T c (leaveBadHost e badUrl c) := by
  unfold leaveBadHost
  simp only
  split_ifs
  · exact acts_setConf rfl
  · exact (acts_pickHost _ c).trans (acts_setConf rfl)
  · exact Acts.refl _ c

theorem acts_retryRequestMemberUpdate (badUrl : String) (c : EtcdState) : Acts T c (retryRequestMemberUpdate e badUrl c) := by
  unfold retryRequestMemberUpdate
  simp only
  have hleave := acts_leaveBadHost (e := e) (T := T) badUrl c
  split_ifs
  · exact hleave.trans (acts_setConf rfl)
  · exact hleave
  · exact hleave.trans (acts_createRequestMemberUpdate _)

theorem acts_createRequestAuthAuthenticate (c : EtcdState) : Acts T c (createRequestAuthAuthenticate e c) := by
  unfold createRequestAuthAuthenticate
  simp only
  split_ifs
  all_goals try exact Acts.refl _ c
  · exact acts_setConf rfl
  · exact Acts.quiet (acts_timedRequest (by rfl) _ (by trivial)) rfl

theorem acts_createRequestAuthUserGet (c : EtcdState) : Acts T c (createRequestAuthUserGet e c) := by
  unfold createRequestAuthUserGet
  simp only
  split_ifs
  all_goals try exact Acts.refl _ c
  exact Acts.quiet (acts_timedRequest (by rfl) _ (by trivial)) rfl

theorem acts_checkAuthorizationExpired (r : Reply) (c : EtcdState) : Acts T c (checkAuthorizationExpired r c) := by
  unfold checkAuthorizationExpired
  split_ifs
  · exact acts_setConf rfl
  · exact Acts.refl _ c

theorem acts_clusterFailed (url : String) (r : Reply) (c : EtcdState) : Acts T c (clusterFailed e url r c) := by
  unfold clusterFailed
  split_ifs
  · exact (acts_retryRequestMemberUpdate url c).trans (acts_checkAuthorizationExpired r _)
  · exact acts_checkAuthorizationExpired r c

/-! ## Deletors -/

/-- a deletor without the one of the same path that waits -/
def EtcdState.otherDeletors (c : EtcdState) (path : Bytes) : List Deletor := c.keepaliveDeletors.filter fun d => d.path ≠ path

/-- the state behind the request of a deletor -/
def EtcdState.sendDelete (d : Deletor) (creates : ℕ) (c : EtcdState) : EtcdState :=
  { c with creates := creates, starts := c.starts + 1, keepaliveDeletors := c.otherDeletors d.path,
           sent := c.sent ++ [⟨c.conf.pathNode, .delete (packKeyRange d.path plusOne), .deletor⟩],
           deletorRpcs := c.deletorRpcs ++ [(c.sent.length, d)] }

theorem createRequestKv_eq (c : EtcdState) : ∃ n, (createRequestKv e c).2 = { c with creates := n } := by
  unfold createRequestKv
  split_ifs
  · exact ⟨_, rfl⟩
  · exact ⟨_, rfl⟩

/-- **A deletor** that is tried gives up, waits for the next time or sends its request. -/
theorem removeKeepalivePath_cases (d : Deletor) (c : EtcdState) :
    let tried : Deletor := { d with retryTimes := d.retryTimes + 1 }
    (maxDeleteTimes ≤ d.retryTimes ∧
        removeKeepalivePath e d false c = { c with keepaliveDeletors := c.otherDeletors d.path }) ∨
      (∃ creates starts, removeKeepalivePath e d false c =
        { c with creates := creates, starts := starts, keepaliveDeletors := c.otherDeletors d.path ++ [tried] }) ∨
      ∃ creates, removeKeepalivePath e d false c = c.sendDelete tried creates := by
  intro tried
  unfold removeKeepalivePath
  simp only
  rw [if_neg Bool.false_ne_true]
  obtain ⟨n, hn⟩ := createRequestKv_eq (e := e) { c with keepaliveDeletors := c.keepaliveDeletors.filter fun d' => d'.path ≠ d.path }
  rw [hn]
  split_ifs with htimes hcreate
  · exact .inl ⟨Nat.lt_succ_iff.1 htimes, rfl⟩
  · unfold startHttp
    split_ifs
    · exact .inr (.inr ⟨n, rfl⟩)
    · exact .inr (.inl ⟨n, c.starts + 1, rfl⟩)
  · exact .inr (.inl ⟨n, c.starts, rfl⟩)

/-- a request for the deletion of what starts with `q` -/
def EtcdState.askDelete (q : Bytes) (starts : ℕ) (c : EtcdState) : EtcdState :=
  { c with starts := starts, sent := c.sent ++ [⟨c.conf.pathNode, .delete (packKeyRange q plusOne), .deletor⟩] }

/-- what a change of the deletors and a delete request keep, a deletor that is tried keeps -/
theorem removeKeepalivePath_induct {I : EtcdState → Prop}
    (hdeletors : ∀ c n m l r, I c → I { c with creates := n, starts := m, keepaliveDeletors := l, deletorRpcs := r })
    (hask : ∀ c q n, I c → I (c.askDelete q n)) (d : Deletor) (delay : Bool) (hc : I c) : I (removeKeepalivePath e d delay c) := by
  cases delay with
  | true => exact hdeletors c c.creates c.starts _ c.deletorRpcs hc
  | false =>
    rcases removeKeepalivePath_cases (e := e) d c with ⟨-, h⟩ | ⟨n, m, h⟩ | ⟨n, h⟩ <;> rw [h]
    · exact hdeletors c c.creates c.starts _ c.deletorRpcs hc
    · exact hdeletors c n m _ c.deletorRpcs hc
    · exact hdeletors _ n (c.starts + 1) _ _ (hask c d.path (c.starts + 1) hc)

/-! ## What the cluster does by itself -/

/-- what happens with the lease and the keepalives of the lists -/
inductive Move : EtcdState → EtcdState → Prop
  | acts {c d : EtcdState} (h : Acts (fun k => k ∈ c.keepaliveActors ∨ k ∈ c.keepaliveRetryActors) c d) : Move c d
  | running (c : EtcdState) : Move c { c with running := true }
  | lease (c : EtcdState) (v : ℤ) : Move c (c.setConf { c.conf with lease := v })
  | forget (c : EtcdState) : Move c { c with keepaliveRetryActors := [] }

def Moves : EtcdState → EtcdState → Prop := Relation.ReflTransGen Move

theorem Moves.refl (c : EtcdState) : Moves c c := Relation.ReflTransGen.refl

theorem Moves.trans {b : EtcdState} (h : Moves c d) (h' : Moves d b) : Moves c b := Relation.ReflTransGen.trans h h'

theorem Move.moves (h : Move c d) : Moves c d := Relation.ReflTransGen.single h

theorem Acts.moves (h : Acts nobody c d) : Moves c d := (Move.acts h.none).moves

theorem Moves.keeps {I : EtcdState → Prop} (h : Moves c d) (hI : ∀ {c d}, Move c d → I c → I d) (hc : I c) : I d := by
  induction h with
  | refl => exact hc
  | tail _ hmove ih => exact hI hmove ih

theorem moves_retryKeepalives (c : EtcdState) : Moves c (retryKeepalives e c) := by
  unfold retryKeepalives
  split_ifs
  · have hloop : Acts (fun k => k ∈ c.keepaliveActors ∨ k ∈ c.keepaliveRetryActors) c
        (c.keepaliveRetryActors.foldl (retryKeepalive e) c) :=
      acts_foldl (fun c k hk => acts_retryKeepalive hk c) (fun k hk => .inr hk) c
    exact (Move.acts hloop).moves.trans (Move.forget _).moves
  · exact Moves.refl c

/-- the lease is replaced, and each keepalive puts its value again -/
def EtcdState.renew (e : EtcdEnv) (v : ℤ) (c : EtcdState) : EtcdState :=
  c.keepaliveActors.foldl (renewKeepalive e) { c.setConf { c.conf with lease := v } with keepaliveRetryActors := [] }

/-- what the cluster does by itself, but for the look at what waits -/
inductive Turn (e : EtcdEnv) : EtcdState → EtcdState → Prop
  | acts {c d : EtcdState} (h : Acts nobody c d) : Turn e c d
  | running (c : EtcdState) : Turn e c { c with running := true }
  | renew {c : EtcdState} {v : ℤ} (hv : v ≠ 0) (hrun : c.running = true) : Turn e c (c.renew e v)
  | drop (c : EtcdState) : Turn e c (c.setConf { c.conf with lease := 0 })

def Turns (e : EtcdEnv) : EtcdState → EtcdState → Prop := Relation.ReflTransGen (Turn e)

theorem Turns.trans {b : EtcdState} (h : Turns e c d) (h' : Turns e d b) : Turns e c b := Relation.ReflTransGen.trans h h'

theorem Turn.turns (h : Turn e c d) : Turns e c d := Relation.ReflTransGen.single h

theorem Acts.turns (h : Acts nobody c d) : Turns e c d := (Turn.acts h).turns

theorem turns_of_eq (h : d.watched = c.watched) : Turns e c d := (acts_of_eq h : Acts nobody c d).turns

theorem Turns.keeps {I : EtcdState → Prop} (h : Turns e c d) (hI : ∀ {c d}, Turn e c d → I c → I d) (hc : I c) : I d := by
  induction h with
  | refl => exact hc
  | tail _ hturn ih => exact hI hturn ih

theorem Turn.moves (h : Turn e c d) : Moves c d := by
  cases h with
  | acts h => exact h.moves
  | running => exact (Move.running c).moves
  | @renew v hv hrun =>
    set c₁ : EtcdState := { c.setConf { c.conf with lease := v } with keepaliveRetryActors := [] }
    have hloop : Acts (fun k => k ∈ c₁.keepaliveActors ∨ k ∈ c₁.keepaliveRetryActors) c₁
        (c₁.keepaliveActors.foldl (renewKeepalive e) c₁) :=
      acts_foldl (fun c k hk => acts_renewKeepalive hk c) (fun k hk => .inl hk) c₁
    exact ((Move.lease c v).moves.trans (Move.forget _).moves).trans (Move.acts hloop).moves
  | drop => exact (Move.lease c 0).moves

theorem Turns.moves (h : Turns e c d) : Moves c d := h.keeps (I := Moves c) (fun hturn hc => hc.trans hturn.moves) (Moves.refl c)

/-- turns, at most one look at what waits, and acts of no keepalive -/
def Round (e : EtcdEnv) (c d : EtcdState) : Prop := ∃ b, Turns e c b ∧ (Acts nobody b d ∨ Acts nobody (retryPendingActions e b) d)

/-- moves, at most one look at the deletors that wait, and acts of no keepalive -/
theorem Round.moves (h : Round e c d) : ∃ b, Moves c b ∧ (Acts nobody b d ∨ Acts nobody (retryDeletors e b) d) := by
  obtain ⟨b, hturns, hd | hd⟩ := h
  · exact ⟨b, hturns.moves, .inl hd⟩
  · exact ⟨retryKeepalives e b, hturns.moves.trans (moves_retryKeepalives b), .inr hd⟩

theorem Round.keeps {I : EtcdState → Prop} (h : Round e c d) (hmove : ∀ {c d}, Move c d → I c → I d)
    (hdeletors : ∀ c n m l r, I c → I { c with creates := n, starts := m, keepaliveDeletors := l, deletorRpcs := r })
    (hask : ∀ c q n, I c → I (c.askDelete q n)) (hc : I c) : I d := by
  have hloop : ∀ (ds : List Deletor) (c : EtcdState), I c → I (ds.foldl (fun c d => removeKeepalivePath e d false c) c) := by
    intro ds
    induction ds with
    | nil => exact fun c hc => hc
    | cons x ds ih => exact fun c hc => ih _ (removeKeepalivePath_induct hdeletors hask x false hc)
  have hacts : ∀ {c d}, Acts nobody c d → I c → I d := fun h hc => h.moves.keeps (I := I) hmove hc
  obtain ⟨b, hmoves, hd | hd⟩ := h.moves
  · exact hacts hd (hmoves.keeps (I := I) hmove hc)
  · have hb := hmoves.keeps (I := I) hmove hc
    exact hacts hd (hloop _ _ (hdeletors b b.creates b.starts [] b.deletorRpcs hb))

theorem Acts.round (h : Acts nobody c d) : Round e c d := ⟨c, Relation.ReflTransGen.refl, .inl h⟩

theorem Round.after {b : EtcdState} (h : Round e c d) (h' : Acts nobody d b) : Round e c b := by
  obtain ⟨m, hm, hd⟩ := h
  exact ⟨m, hm, hd.imp (fun hd => hd.trans h') fun hd => hd.trans h'⟩

theorem Round.before {b : EtcdState} (h : Turns e b c) (h' : Round e c d) : Round e b d := by
  obtain ⟨m, hm, hd⟩ := h'
  exact ⟨m, h.trans hm, hd⟩

theorem round_refl (c : EtcdState) : Round e c c := (Acts.refl _ c).round

theorem round_ite {p : Prop} [Decidable p] {a b : EtcdState} (ha : Round e c a) (hb : Round e c b) :
    Round e c (if p then a else b) := by
  split_ifs
  · exact ha
  · exact hb

theorem round_retryPendingActions (c : EtcdState) : Round e c (retryPendingActions e c) :=
  ⟨c, Relation.ReflTransGen.refl, .inr (Acts.refl _ _)⟩

/-- a lease that is not 0 is only set while the cluster runs -/
theorem round_setLease {v : ℤ} (force : Bool) (c : EtcdState) (hrun : v ≠ 0 → c.running = true) : Round e c (setLease e v force c) := by
  unfold setLease
  simp only
  split_ifs with hsame hv
  · obtain ⟨rfl, -, -⟩ := hsame
    exact (round_retryPendingActions _).before (acts_setConf rfl).turns
  · exact (round_retryPendingActions _).before (Turn.renew hv (hrun hv)).turns
  · obtain rfl : v = 0 := not_not.1 hv
    exact (round_refl _).before (Turn.drop c).turns

theorem round_tickLease (c : EtcdState) : Round e c (tickLease e c) := by
  unfold tickLease
  refine round_ite (round_ite ?_ ?_) ?_
  · exact (acts_createRequestLeaseGrant c).round
  · exact (round_retryPendingActions _).before (acts_ite (acts_createRequestLeaseKeepalive c) (Acts.refl _ c)).turns
  · exact (round_retryPendingActions _).before (Turn.running c).turns

theorem round_tick (c : EtcdState) : Round e c (tick e c) := by
  have hmembers : Acts nobody c (if c.conf.etcdMembersNextUpdateTime < c.now then createRequestMemberUpdate e c else c) :=
    acts_ite (acts_createRequestMemberUpdate c) (Acts.refl _ c)
  unfold tick
  refine round_ite (round_refl c) (round_ite (round_refl c) (round_ite hmembers.round (round_ite ?_ ?_)))
  · exact (hmembers.trans (acts_ite (acts_createRequestAuthAuthenticate _) (Acts.refl _ _))).round
  · exact (round_tickLease _).before (hmembers.trans (acts_ite (acts_createRequestAuthUserGet _) (Acts.refl _ _))).turns

theorem setLease_zero (force : Bool) (c : EtcdState) : setLease e 0 force c = c.setConf { c.conf with lease := 0 } := by
  unfold setLease
  simp only
  rw [if_neg fun h => h.2.2 rfl, if_neg fun h => h rfl]

theorem round_onLeaseKeepalive (url : String) (r : Reply) (c : EtcdState) : Round e c (onLeaseKeepalive e url r c) := by
  have hdrop : Turns e c { c with rpcKeepalive := none } := turns_of_eq rfl
  unfold onLeaseKeepalive
  refine Round.before hdrop (round_ite (acts_clusterFailed url r _).round (round_ite (round_refl _) (round_ite ?_ ?_)))
  · refine round_ite (round_refl _) ?_
    rw [setLease_zero]
    exact ((round_refl _).before (Turn.drop _).turns).after (acts_createRequestLeaseGrant _)
  · exact round_ite (round_refl _) ((round_setLease _ _ fun _ => rfl).before (Turn.running _).turns)

theorem round_onAuthAuthenticate (url : String) (r : Reply) (c : EtcdState) : Round e c (onAuthAuthenticate e url r c) := by
  have hdrop : Turns e c { c with rpcAuthenticate := none } := turns_of_eq rfl
  unfold onAuthAuthenticate
  refine Round.before hdrop (round_ite (acts_clusterFailed url r _).round (round_ite (round_refl _) ?_))
  cases r.body.token with
  | none => exact round_refl _
  | some token =>
    have hheader : ∀ (c : EtcdState) text, Turns e c (c.setConf { c.conf with authorizationHeader := text }) :=
      fun _ _ => Acts.turns (acts_setConf rfl)
    have htimer : ∀ (c : EtcdState) t, Acts nobody c (c.setConf { c.conf with authUserGetNextUpdateTime := t }) :=
      fun _ _ => acts_setConf rfl
    exact ((round_retryPendingActions _).before (hheader _ _)).after (htimer _ _)

theorem round_onAuthUserGet (url : String) (r : Reply) (c : EtcdState) : Round e c (onAuthUserGet e url r c) := by
  have hdrop : Turns e c { c with rpcAuthenticate := none } := turns_of_eq rfl
  unfold onAuthUserGet
  exact Round.before hdrop (round_ite (acts_clusterFailed url r _).round (round_refl _))

theorem round_onMemberUpdate (url : String) (r : Reply) (c : EtcdState) : Round e c (onMemberUpdate e url r c) := by
  have hdrop : Turns e c { c with rpcUpdateMembers := none } := turns_of_eq rfl
  unfold onMemberUpdate
  refine Round.before hdrop (round_ite ?_ (round_ite (round_refl _) ?_))
  · exact (acts_ite (acts_retryRequestMemberUpdate url _) (Acts.refl _ _)).round
  cases r.body.members with
  | none => exact round_refl _
  | some members =>
    have hhosts : ∀ (c : EtcdState) hosts, Acts nobody c (c.setConf { c.conf with hosts := hosts }) := fun _ _ => acts_setConf rfl
    have hpath : ∀ (c : EtcdState) host, Acts nobody c (c.setConf { c.conf with pathNode := host }) := fun _ _ => acts_setConf rfl
    refine round_ite ?_ ((round_tick _).before (hhosts _ _).turns)
    exact (round_tick _).before (((hhosts _ _).trans (acts_pickHost _ _)).trans (hpath _ _)).turns

/-! ## Answers for a keepalive -/

/-- the verdict of a checker -/
def Keepalive.passes (x : Keepalive) (value : Bytes) : Bool := x.checker.elim true fun fn => fn value

/-- a check is answered -/
def Keepalive.unanswered (x : Keepalive) : Keepalive := { x with rpc := none, retryTimes := x.retryTimes + 1 }

def Keepalive.judged (x : Keepalive) (value : Bytes) : Keepalive :=
  { x.unanswered with isCheckRun := true, isCheckPassed := x.passes value }

/-- **The check** is answered: the keepalive has its verdict and is activated, or the check is to be made again. -/
theorem onGetData_cases (k : ℕ) (r : Reply) (c : EtcdState) :
    Acts nobody (addRetryKeepalive e k (c.setKeep k (c.keep k).unanswered)) (onGetData e k r c) ∨
      ∃ value, r.success = true ∧ r.body.found = some value ∧
        onGetData e k r c = active e k (c.setKeep k ((c.keep k).judged value)) := by
  unfold onGetData
  simp only
  split_ifs with hsuccess
  · cases r.body.found with
    | none => exact .inl (Acts.refl _ _)
    | some value =>
      refine .inr ⟨value, hsuccess, rfl, ?_⟩
      simp only [setKeep_keep, setKeep_setKeep, Keepalive.judged, Keepalive.unanswered, Keepalive.passes]
      cases (c.keep k).checker <;> rfl
  · exact .inl (acts_checkAuthorizationExpired r _)

/-- **The put** is answered. -/
theorem onSetData_cases (k id : ℕ) (r : Reply) (c : EtcdState) :
    (r.success = false ∧
        Acts nobody (addRetryKeepalive e k (c.setKeep k { c.keep k with rpc := none, isValueChanged := true })) (onSetData e k id r c)) ∨
      r.success = true ∧ onSetData e k id r c =
        active e k ({ c with acked := c.acked ++ [id] }.setKeep k { c.keep k with rpc := none, hasData := true }) := by
  unfold onSetData
  simp only
  split_ifs with hsuccess
  · refine .inr ⟨hsuccess, ?_⟩
    have hset : ({ c.setKeep k { c.keep k with rpc := none } with acked := c.acked ++ [id] } : EtcdState) =
      EtcdState.setKeep k { c.keep k with rpc := none } { c with acked := c.acked ++ [id] } := rfl
    rw [show (c.setKeep k { c.keep k with rpc := none }).acked = c.acked from rfl, hset, setKeep_keep, setKeep_setKeep]
  · refine .inl ⟨Bool.not_eq_true _ ▸ hsuccess, ?_⟩
    rw [setKeep_keep, setKeep_setKeep]
    exact acts_checkAuthorizationExpired r _

/-! ## Events -/

/-- the last object takes the place of the one that is taken out -/
theorem swapErase_perm (k : ℕ) (l : List ℕ) : (swapErase k l).Perm (l.erase k) := by
  unfold swapErase
  cases hidx : l.idxOf? k with
  | none => rw [List.erase_of_not_mem (List.idxOf?_eq_none_iff.1 hidx)]
  | some i =>
    obtain ⟨hi, hk, hbefore⟩ := List.idxOf?_eq_some_iff.1 hidx
    obtain ⟨as, bs, rfl, rfl⟩ : ∃ as bs, l = as ++ k :: bs ∧ i = as.length :=
      ⟨l.take i, l.drop (i + 1), by rw [← hk, ← List.drop_eq_getElem_cons hi, List.take_append_drop],
        (List.length_take_of_le hi.le).symm⟩
    have hnot : k ∉ as := fun hmem => by
      obtain ⟨j, hj, hjk⟩ := List.getElem_of_mem hmem
      exact hbefore j hj (by rw [List.getElem_append_left hj, hjk])
    rw [List.erase_append_right _ hnot, List.erase_cons_head]
    exact Lib.set_last_dropLast_perm k as bs

theorem mem_swapErase_of_ne {k j : ℕ} {l : List ℕ} (hj : j ≠ k) : j ∈ swapErase k l ↔ j ∈ l :=
  (swapErase_perm k l).mem_iff.trans (List.mem_erase_of_ne hj)

theorem not_mem_swapErase {k : ℕ} {l : List ℕ} (hl : l.Nodup) : k ∉ swapErase k l :=
  fun h => hl.not_mem_erase ((swapErase_perm k l).mem_iff.1 h)

/-- a keepalive is on the list, and no deletor of its path waits -/
def EtcdState.enlist (k : ℕ) (c : EtcdState) : EtcdState :=
  { c with keepaliveActors := c.keepaliveActors ++ [k], keepaliveDeletors := c.otherDeletors (c.keep k).path }

def EtcdState.delist (k : ℕ) (c : EtcdState) : EtcdState :=
  { c with keepaliveActors := swapErase k c.keepaliveActors, keepaliveRetryActors := swapErase k c.keepaliveRetryActors }

/-- `close` without its request -/
def EtcdState.shut (c : EtcdState) : EtcdState :=
  { c with closing := true, rpcKeepalive := none, rpcUpdateMembers := none, rpcAuthenticate := none, keepaliveDeletors := [],
           keep := fun k => if k ∈ c.keepaliveActors then (c.keep k).close false else c.keep k,
           keepaliveActors := [], keepaliveRetryActors := [] }

/-- a deletor is to be tried again -/
def Reply.failsDelete (r : Reply) : Prop := r.errorCode ≠ 0 ∨ r.responseCode / 100 ≠ 2 ∧ r.responseCode ≠ 404

instance (r : Reply) : Decidable r.failsDelete := inferInstanceAs (Decidable (_ ∨ _))

/-- What an event leads to. A keepalive acts because it is activated or, where an answer says that its request failed, because it is
put on the retry list. -/
inductive Did (e : EtcdEnv) (c : EtcdState) : EtcdEvent → EtcdState → Prop
  | quiet (ev : EtcdEvent) {d : EtcdState} (h : Acts nobody c d) : Did e c ev d
  | tick {d : EtcdState} (h : Round e c d) : Did e c .tick d
  | add {k : ℕ} {c₁ d : EtcdState} (hnew : k ∉ c.keepaliveActors) (hlease : Acts nobody c c₁)
      (h : Acts (· = k) (c₁.enlist k) d) (hopen : c.closing = false) (hrecord : Acts nobody (c.record (.add k)) c₁)
      (hactive : ¬ (c₁.running = true ∧ c₁.conf.lease ≠ 0) ∧ d = c₁.enlist k ∨ d = active e k (c₁.enlist k)) :
      Did e c (.addKeepalive k) d
  | remove {k : ℕ} (hfound : k ∈ c.keepaliveActors ∨ k ∈ c.keepaliveRetryActors) (hdata : (c.keep k).hasData = true) :
      Did e c (.removeKeepalive k)
        ((removeKeepalivePath e ⟨(c.keep k).path, 0⟩ false (c.delist k)).setKeep k ((c.keep k).close true))
  | drop {k : ℕ} (hfound : k ∈ c.keepaliveActors ∨ k ∈ c.keepaliveRetryActors) (hdata : (c.keep k).hasData = false) :
      Did e c (.removeKeepalive k) ((c.delist k).setKeep k ((c.keep k).close false))
  | setChecker (k : ℕ) (fn : Option (Bytes → Bool)) :
      Did e c (.setChecker k fn) (c.setKeep k { c.keep k with checker := fn })
  | setValue {k : ℕ} {value : Bytes} {d : EtcdState} (hvalue : (c.keep k).value ≠ value)
      (h : Acts (· = k) (c.setKeep k { c.keep k with value := value, isValueChanged := true }) d)
      (hidle : ¬ (c.running = true ∧ c.conf.lease ≠ 0) →
        d = c.setKeep k { c.keep k with value := value, isValueChanged := true })
      (hactive : c.running = true ∧ c.conf.lease ≠ 0 →
        d = active e k (c.setKeep k { c.keep k with value := value, isValueChanged := true })) : Did e c (.setValue k value) d
  /-- the check has to be made again -/
  | checkFailed {id k : ℕ} {s : Sent} {r : Reply} {d : EtcdState} (hs : c.sent[id]? = some s) (hrpc : (c.keep k).rpc = some id)
      (htarget : s.target = .keepalive k) (hask : ∀ key value lease, s.ask ≠ .put key value lease)
      (h : Acts (· = k) (c.setKeep k (c.keep k).unanswered) d)
      (hretry : Acts nobody (addRetryKeepalive e k (c.setKeep k (c.keep k).unanswered)) d) : Did e c (.complete id r) d
  | checked {id k : ℕ} {s : Sent} {r : Reply} {value : Bytes} {d : EtcdState} (hs : c.sent[id]? = some s)
      (hrpc : (c.keep k).rpc = some id) (htarget : s.target = .keepalive k)
      (hask : ∀ key value lease, s.ask ≠ .put key value lease) (hr : r.success = true) (hfound : r.body.found = some value)
      (h : Acts (· = k) (c.setKeep k ((c.keep k).judged value)) d)
      (hactive : d = active e k (c.setKeep k ((c.keep k).judged value))) : Did e c (.complete id r) d
  | putFailed {id k : ℕ} {s : Sent} {r : Reply} {d : EtcdState} (hs : c.sent[id]? = some s) (hrpc : (c.keep k).rpc = some id)
      (htarget : s.target = .keepalive k) (hask : ∃ key value lease, s.ask = .put key value lease) (hr : r.success = false)
      (h : Acts (· = k) (c.setKeep k { c.keep k with rpc := none, isValueChanged := true }) d)
      (hretry : Acts nobody (addRetryKeepalive e k (c.setKeep k { c.keep k with rpc := none, isValueChanged := true })) d) :
      Did e c (.complete id r) d
  | acked {id k : ℕ} {s : Sent} {r : Reply} {d : EtcdState} (hs : c.sent[id]? = some s) (hrpc : (c.keep k).rpc = some id)
      (htarget : s.target = .keepalive k) (hask : ∃ key value lease, s.ask = .put key value lease) (hr : r.success = true)
      (h : Acts (· = k)
        ({ c with acked := c.acked ++ [id] }.setKeep k { c.keep k with rpc := none, hasData := true }) d)
      (hactive : d = active e k
        ({ c with acked := c.acked ++ [id] }.setKeep k { c.keep k with rpc := none, hasData := true })) : Did e c (.complete id r) d
  | deleted {id : ℕ} {r : Reply} {p : ℕ × Deletor} (hp : c.deletorRpcs.find? (fun p => p.1 = id) = some p) :
      Did e c (.complete id r) { c with deletorRpcs := c.deletorRpcs.filter fun p => p.1 ≠ id }
  | deleteFailed {id : ℕ} {r : Reply} {p : ℕ × Deletor} {c₁ : EtcdState}
      (hp : c.deletorRpcs.find? (fun p => p.1 = id) = some p) (hr : r.failsDelete)
      (h : Acts nobody { c with deletorRpcs := c.deletorRpcs.filter fun p => p.1 ≠ id } c₁) :
      Did e c (.complete id r) (removeKeepalivePath e p.2 true c₁)
  | answer {id : ℕ} {r : Reply} {d : EtcdState} (h : Round e c d) : Did e c (.complete id r) d
  | close {d : EtcdState} (h : Turns e c.shut d) : Did e c .close d

theorem did_addKeepalive (k : ℕ) (c : EtcdState) : Did e c (.addKeepalive k) (addKeepalive e k c) := by
  have hrecord : Acts nobody c (c.record (.add k)) := (Act.record c _).acts
  have hlease := hrecord.trans (acts_enableLease (e := e) (c.record (.add k)))
  unfold addKeepalive
  simp only
  split_ifs with hclosing hmem hrun
  · exact .quiet _ hrecord
  · exact .quiet _ hrecord
  all_goals have hopen : c.closing = false := Bool.not_eq_true _ ▸ hclosing
  · exact .add hmem hlease (acts_active (T := (· = k)) rfl _) hopen (acts_enableLease _) (.inr rfl)
  · exact .add hmem hlease (Acts.refl _ _) hopen (acts_enableLease _) (.inl ⟨hrun, rfl⟩)

theorem did_removeKeepalive (k : ℕ) (c : EtcdState) : Did e c (.removeKeepalive k) (removeKeepalive e k c) := by
  unfold removeKeepalive
  simp only
  split_ifs with hfound hdata
  · have hkeep : (removeKeepalivePath e ⟨(c.keep k).path, 0⟩ false (c.delist k)).keep = c.keep := by
      rcases removeKeepalivePath_cases (e := e) ⟨(c.keep k).path, 0⟩ (c.delist k) with ⟨-, h⟩ | ⟨n, m, h⟩ | ⟨n, h⟩ <;> rw [h] <;> rfl
    have hclose : ((removeKeepalivePath e ⟨(c.keep k).path, 0⟩ false (c.delist k)).keep k).close true = (c.keep k).close true := by
      rw [hkeep]
    exact hclose ▸ Did.remove hfound hdata
  · exact .drop hfound (Bool.not_eq_true _ ▸ hdata)
  · exact .quiet _ (Acts.refl _ c)

theorem did_setValue (k : ℕ) (value : Bytes) (c : EtcdState) : Did e c (.setValue k value) (setValue e k value c) := by
  unfold setValue
  simp only
  split_ifs with hsame hrun
  · exact .quiet _ (Acts.refl _ c)
  · exact .setValue hsame (acts_active (T := (· = k)) rfl _) (fun h => absurd hrun h) fun _ => rfl
  · exact .setValue hsame (Acts.refl _ _) (fun _ => rfl) fun h => absurd h hrun

theorem did_complete (id : ℕ) (r : Reply) (c : EtcdState) : Did e c (.complete id r) (complete e id r c) := by
  unfold complete
  cases hs : c.sent[id]? with
  | none => exact .quiet _ (Acts.refl _ c)
  | some s =>
    simp only
    cases htarget : s.target with
    | keepalive k =>
      simp only
      split_ifs with hrpc
      · cases hask : s.ask with
        | put key value lease =>
          rcases onSetData_cases (e := e) k id r c with ⟨hr, h⟩ | ⟨hr, h⟩
          · exact .putFailed hs hrpc htarget ⟨key, value, lease, hask⟩ hr ((acts_addRetryKeepalive (T := (· = k)) rfl _).trans h.none) h
          · refine .acked hs hrpc htarget ⟨key, value, lease, hask⟩ hr ?_ h
            exact h ▸ acts_active (T := (· = k)) rfl _
        | _ =>
          have hput : ∀ key value lease, s.ask ≠ .put key value lease := fun _ _ _ h => by rw [hask] at h; cases h
          rcases onGetData_cases (e := e) k r c with h | ⟨value, hr, hfound, h⟩
          · exact .checkFailed hs hrpc htarget hput ((acts_addRetryKeepalive (T := (· = k)) rfl _).trans h.none) h
          · refine .checked hs hrpc htarget hput hr hfound ?_ h
            exact h ▸ acts_active (T := (· = k)) rfl _
      · exact .quiet _ (Acts.refl _ c)
    | deletor =>
      simp only
      cases hp : c.deletorRpcs.find? fun p => p.1 = id with
      | none => exact .quiet _ (Acts.refl _ c)
      | some p =>
        have hexpired : ∀ c, Acts nobody c (checkAuthorizationExpired r c) := acts_checkAuthorizationExpired r
        unfold onRemoveKeepalivePath
        simp only
        split_ifs with hfails
        · exact .deleteFailed hp hfails ((acts_retryRequestMemberUpdate s.url _).trans (hexpired _))
        · exact .deleteFailed hp hfails (hexpired _)
        · exact .deleted hp
    | cluster =>
      simp only
      split_ifs
      · exact .answer (round_onLeaseKeepalive s.url r c)
      · exact .answer (round_onMemberUpdate s.url r c)
      · exact .answer (round_onAuthUserGet s.url r c)
      · exact .answer (round_onAuthAuthenticate s.url r c)
      · exact .quiet _ (Acts.refl _ c)

theorem did_close (c : EtcdState) : Did e c .close (closeCluster e c) := by
  have hdrop : ∀ d, Turns e c.shut d → Turns e c.shut (if d.curlMulti then d.setConf { d.conf with lease := 0 } else d) := by
    intro d hd
    split_ifs
    · exact hd.trans (Turn.drop d).turns
    · exact hd
  refine .close (hdrop _ (Acts.turns (acts_ite ?_ (Acts.refl _ _))))
  exact acts_clusterRequest _ (by trivial) c.shut

/-- **What each event does.** -/
theorem did_event (c : EtcdState) (ev : EtcdEvent) : Did e c ev (etcdEvent e c ev) := by
  cases ev with
  | addKeepalive k => exact did_addKeepalive k c
  | removeKeepalive k => exact did_removeKeepalive k c
  | setChecker k fn => exact .setChecker k fn
  | setValue k value => exact did_setValue k value c
  | tick => exact .tick (round_tick c)
  | clock now => exact .quiet _ (acts_of_eq rfl)
  | complete id reply => exact did_complete id reply c
  | close => exact did_close c

end AtFrame.Etcd
