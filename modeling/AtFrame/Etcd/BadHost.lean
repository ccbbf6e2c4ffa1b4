/-
What `retry_request_member_update` does to the hosts when a request to one of them has failed.

The loop that drops the host goes on behind the host that it has swapped in, and the host is looked for at the front of the
URL, where another host may begin like it.

- `dropHost_sweep`: the loop;
- `replaces_iff`: the failed host and only this one is dropped exactly if it is not among the last hosts again and the
  path node begins no URL of another;
- `duplicate_host_stays`: a host that is listed twice is still there.

Premise: `random_engine::fast_random_between` stays in its range. Witness `replaces_three`: three hosts, of which the one in use
fails.
-/
import AtFrame.Etcd.Cluster
import AtFrame.Lib.SwapErase

namespace AtFrame.Etcd

open AtFrame.Lib

variable {e : EtcdEnv} {c : EtcdState}

/-! ## The loop -/

theorem dropHost_end {pathNode : String} {n i : ℕ} {hosts : List String} (hi : hosts.length ≤ i) :
    dropHost pathNode n i hosts = hosts := by
  cases n with
  | zero => rfl
  | succ n =>
    unfold dropHost
    rw [List.getElem?_eq_none hi]

theorem dropHost_sweep (pathNode : String) {n : ℕ} {rest : List String} (pre : List String) (hn : rest.length ≤ n) :
    dropHost pathNode n pre.length (pre ++ rest) = pre ++ sweep pathNode rest := by
  induction n generalizing pre rest with
  | zero =>
    rw [List.length_eq_zero_iff.1 (Nat.le_zero.1 hn), sweep_nil]
    rfl
  | succ n ih =>
    cases rest with
    | nil => rw [sweep_nil, List.append_nil, dropHost_end le_rfl]
    | cons a rest =>
      have hget : (pre ++ a :: rest)[pre.length]? = some a := by
        rw [List.getElem?_append_right le_rfl, Nat.sub_self, List.getElem?_cons_zero]
      have hlen : rest.length ≤ n := Nat.le_of_succ_le_succ hn
      have hnext : ∀ (b : String) {tail : List String}, tail.length ≤ n →
          dropHost pathNode n (pre.length + 1) (pre ++ b :: tail) = pre ++ b :: sweep pathNode tail := by
        intro b tail htail
        have h := ih (pre ++ [b]) htail
        rwa [List.length_append, List.length_singleton, List.append_assoc, List.append_assoc] at h
      unfold dropHost
      rw [hget]
      simp only
      split_ifs with ha
      · rw [hnext a hlen, sweep_ne ha]
      · obtain rfl := not_not.1 ha
        rw [set_last_dropLast]
        rcases List.eq_nil_or_concat' rest with rfl | ⟨rest, b, rfl⟩
        · rw [List.getLast?_nil, List.append_nil, sweep_last, List.append_nil, dropHost_end (Nat.le_succ _)]
        · rw [List.getLast?_concat, List.dropLast_concat, sweep_swap]
          exact hnext b ((List.length_append ▸ Nat.le_add_right _ _ : rest.length ≤ (rest ++ [b]).length).trans hlen)

theorem dropHost_eq (pathNode : String) (hosts : List String) :
    dropHost pathNode hosts.length 0 hosts = sweep pathNode hosts := dropHost_sweep pathNode [] le_rfl

/-! ## The path node -/

/-- `UTIL_STRFUNC_STRNCASE_CMP` of the path node and so much of a URL -/
def Begins (pathNode url : String) : Prop :=
  pathNode.toLower = (String.ofList (url.toList.take pathNode.length)).toLower

instance (pathNode url : String) : Decidable (Begins pathNode url) := inferInstanceAs (Decidable (_ = _))

theorem begins_append (host api : String) : Begins host (host ++ api) := by
  unfold Begins
  have htake : (host ++ api).toList.take host.length = host.toList := by
    rw [String.toList_append, ← String.length_toList, List.take_left]
  rw [htake, String.ofList_toList]

theorem pickHost_mem (hrandom : ∀ i n, 0 < n → e.random i n < n) {hosts : List String} (hhosts : hosts ≠ []) (c : EtcdState) :
    (pickHost e hosts c).1 ∈ hosts := by
  have hlt := hrandom c.randoms hosts.length (List.length_pos_iff.2 hhosts)
  unfold pickHost
  simp only [List.getD_eq_getElem?_getD, List.getElem?_eq_getElem hlt, Option.getD_some]
  exact List.getElem_mem hlt

theorem clusterRequest_conf (host : String) (ask : Ask) (c : EtcdState) : (clusterRequest e host ask c).2.conf = c.conf := by
  unfold clusterRequest startHttp createHttp
  simp only
  split_ifs <;> rfl

/-- what the block leaves behind is not touched again -/
theorem retryRequestMemberUpdate_hosts (url : String) (c : EtcdState) :
    (retryRequestMemberUpdate e url c).conf.hosts = (leaveBadHost e url c).conf.hosts ∧
      (retryRequestMemberUpdate e url c).conf.pathNode = (leaveBadHost e url c).conf.pathNode := by
  unfold retryRequestMemberUpdate
  simp only
  split_ifs
  · exact ⟨rfl, rfl⟩
  · exact ⟨rfl, rfl⟩
  · unfold createRequestMemberUpdate
    simp only
    split_ifs
    all_goals first
      | exact ⟨rfl, rfl⟩
      | (simp only [clusterRequest_conf]; exact ⟨rfl, rfl⟩)

theorem leaveBadHost_skip {url : String} (h : c.conf.pathNode = "" ∨ ¬ Begins c.conf.pathNode url) :
    leaveBadHost e url c = c := by
  unfold leaveBadHost
  rw [if_neg]
  rintro ⟨hnode, hbegins⟩
  exact h.elim hnode fun hnot => hnot hbegins

/-- the block: the path node is dropped as far as the loop goes, and another host takes its place -/
theorem leaveBadHost_conf (hrandom : ∀ i n, 0 < n → e.random i n < n) {url : String} (hnode : c.conf.pathNode ≠ "")
    (hbegins : Begins c.conf.pathNode url) :
    (leaveBadHost e url c).conf.hosts = sweep c.conf.pathNode c.conf.hosts ∧
      ((leaveBadHost e url c).conf.pathNode ∈ sweep c.conf.pathNode c.conf.hosts ∨
        (leaveBadHost e url c).conf.pathNode = "" ∧ sweep c.conf.pathNode c.conf.hosts = []) := by
  unfold leaveBadHost
  rw [if_pos ⟨hnode, hbegins⟩]
  simp only [dropHost_eq]
  split_ifs with hempty
  · exact ⟨rfl, .inr ⟨rfl, hempty⟩⟩
  · exact ⟨rfl, .inl (pickHost_mem hrandom hempty c)⟩

/-! ## Replacing a host -/

/-- a host is gone and nothing else, and the path node is one of the hosts that are left -/
structure HostLeft (host : String) (before hosts : List String) (pathNode : String) : Prop where
  gone : host ∉ hosts
  kept : ∀ other ≠ host, hosts.count other = before.count other
  picked : pathNode ∈ hosts ∨ pathNode = "" ∧ hosts = []
  /-- where no host is an empty text the path node is empty only if none is left -/
  empty : "" ∉ before → (pathNode = "" ↔ hosts = [])

/-- what a failed request to a host has to lead to: the hosts and the path node behind it -/
structure HostReplaced (host : String) (before : EtcdConf) (hosts : List String) (pathNode : String) : Prop where
  failed : host = before.pathNode → HostLeft host before.hosts hosts pathNode
  other : host ≠ before.pathNode → hosts = before.hosts ∧ pathNode = before.pathNode

/-- the hosts and the path node are as they should be behind `retry_request_member_update` for the URL of a request -/
def Replaces (e : EtcdEnv) (c : EtcdState) (s : Sent) : Prop :=
  HostReplaced s.host c.conf (retryRequestMemberUpdate e s.url c).conf.hosts (retryRequestMemberUpdate e s.url c).conf.pathNode

/-- the path node has failed, and none of the last hosts is the path node, one fewer than there are of it in all -/
def DropsAll (conf : EtcdConf) : Prop :=
  (conf.pathNode = "" → conf.hosts = []) ∧
    conf.pathNode ∉ conf.hosts.drop (conf.hosts.length - (conf.hosts.count conf.pathNode - 1))

/-- another host has failed, and the path node is not at the front of its URL -/
def LeavesAlone (conf : EtcdConf) (url : String) : Prop := conf.pathNode = "" ∨ ¬ Begins conf.pathNode url

/-- the path node has failed -/
theorem hostLeft_iff (hrandom : ∀ i n, 0 < n → e.random i n < n) {url : String} (hbegins : Begins c.conf.pathNode url) :
    HostLeft c.conf.pathNode c.conf.hosts (leaveBadHost e url c).conf.hosts (leaveBadHost e url c).conf.pathNode ↔
      DropsAll c.conf := by
  by_cases hnode : c.conf.pathNode = ""
  · rw [leaveBadHost_skip (.inl hnode)]
    constructor
    · intro h
      have hnone : c.conf.hosts = [] := (h.picked.resolve_left h.gone).2
      rw [DropsAll, hnone]
      exact ⟨fun _ => rfl, List.not_mem_nil⟩
    · rintro ⟨hempty, -⟩
      rw [hempty hnode, hnode]
      exact ⟨List.not_mem_nil, fun _ _ => rfl, .inr ⟨rfl, rfl⟩, fun _ => iff_of_true rfl rfl⟩
  · obtain ⟨hhosts, hpicked⟩ := leaveBadHost_conf hrandom hnode hbegins
    rw [hhosts, DropsAll, ← not_mem_sweep_iff]
    constructor
    · exact fun h => ⟨fun hempty => absurd hempty hnode, h.gone⟩
    · rintro ⟨-, hgone⟩
      refine ⟨hgone, fun other hother => count_sweep hother _, hpicked, fun hhost => ⟨fun hempty => ?_, fun hnone => ?_⟩⟩
      · refine (hpicked.resolve_left fun hmem => ?_).2
        rw [hempty, ← List.count_pos_iff, count_sweep (Ne.symm hnode), List.count_pos_iff] at hmem
        exact hhost hmem
      · refine (hpicked.resolve_left ?_).1
        rw [hnone]
        exact List.not_mem_nil

/-- another host has failed -/
theorem unchanged_iff (hrandom : ∀ i n, 0 < n → e.random i n < n) (url : String) :
    ((leaveBadHost e url c).conf.hosts = c.conf.hosts ∧ (leaveBadHost e url c).conf.pathNode = c.conf.pathNode) ↔
      LeavesAlone c.conf url := by
  constructor
  · rintro ⟨hsame, hnode⟩
    by_contra hnot
    obtain ⟨hset, hbegins⟩ := not_or.1 hnot
    obtain ⟨hhosts, hpicked⟩ := leaveBadHost_conf hrandom hset (not_not.1 hbegins)
    -- the loop leaves the list only where the path node is not in it, and then another host is picked
    have hmem : c.conf.pathNode ∉ c.conf.hosts := sweep_eq_self_iff.1 (hhosts.symm.trans hsame)
    rw [sweep_of_not_mem hmem, hnode] at hpicked
    exact hpicked.elim hmem fun hempty => hset hempty.1
  · intro h
    rw [leaveBadHost_skip h]
    exact ⟨rfl, rfl⟩

/-- **A failed host is dropped, and only that one**, exactly if none of the last hosts is the same again, counted as many as
there are of it but one, and if the path node does not begin the URL of another host that has failed. -/
theorem replaces_iff (hrandom : ∀ i n, 0 < n → e.random i n < n) (c : EtcdState) (s : Sent) :
    Replaces e c s ↔ (s.host = c.conf.pathNode → DropsAll c.conf) ∧ (s.host ≠ c.conf.pathNode → LeavesAlone c.conf s.url) := by
  obtain ⟨hhosts, hnode⟩ := @retryRequestMemberUpdate_hosts e s.url c
  rw [Replaces, hhosts, hnode]
  have hfailed : s.host = c.conf.pathNode → Begins c.conf.pathNode s.url := by
    intro hhost
    rw [← hhost]
    exact begins_append s.host s.ask.api
  constructor
  · rintro ⟨hleft, hother⟩
    refine ⟨fun hhost => ?_, fun hhost => (unchanged_iff hrandom s.url).1 (hother hhost)⟩
    have h := hleft hhost
    rw [hhost] at h
    exact (hostLeft_iff hrandom (hfailed hhost)).1 h
  · rintro ⟨hdrops, halone⟩
    refine ⟨fun hhost => ?_, fun hhost => (unchanged_iff hrandom s.url).2 (halone hhost)⟩
    rw [hhost]
    exact (hostLeft_iff hrandom (hfailed hhost)).2 (hdrops hhost)

/-- a cluster with these hosts that uses the first of them -/
def clusterOf (hosts : List String) : EtcdState :=
  .start { hosts := hosts, pathNode := hosts.headD "" } (fun _ => []) fun _ => none

/-- two members advertise the same address -/
def sharedAddress : EtcdState :=
  clusterOf ["http://127.0.0.1:2379", "http://10.0.0.2:2379", "http://127.0.0.1:2379"]

/-- a request to the host in use -/
def leaseRequest : Sent := ⟨"http://127.0.0.1:2379", .leaseKeepalive 7, .cluster⟩

theorem replaces_three :
    Replaces EtcdEnv.steady (clusterOf ["http://127.0.0.1:2379", "http://10.0.0.2:2379", "http://10.0.0.3:2379"]) leaseRequest ↔
      (leaseRequest.host = "http://127.0.0.1:2379" →
        DropsAll (clusterOf ["http://127.0.0.1:2379", "http://10.0.0.2:2379", "http://10.0.0.3:2379"]).conf) ∧
      (leaseRequest.host ≠ "http://127.0.0.1:2379" → LeavesAlone
        (clusterOf ["http://127.0.0.1:2379", "http://10.0.0.2:2379", "http://10.0.0.3:2379"]).conf leaseRequest.url) :=
  replaces_iff (fun _ _ hpos => hpos) _ leaseRequest

/-- the address that is listed twice is still there behind a failed request to it -/
theorem duplicate_host_stays : ¬ Replaces EtcdEnv.steady sharedAddress leaseRequest := by
  intro h
  have hgone := (h.failed rfl).gone
  rw [(retryRequestMemberUpdate_hosts leaseRequest.url sharedAddress).1] at hgone
  have hnode : sharedAddress.conf.pathNode ≠ "" := by decide
  have hbegins : Begins sharedAddress.conf.pathNode leaseRequest.url := begins_append leaseRequest.host leaseRequest.ask.api
  have hhosts : (leaveBadHost EtcdEnv.steady leaseRequest.url sharedAddress).conf.hosts =
      dropHost sharedAddress.conf.pathNode 3 0 sharedAddress.conf.hosts :=
    (leaveBadHost_conf (fun _ _ hpos => hpos) hnode hbegins).1.trans (dropHost_eq _ _).symm
  rw [hhosts] at hgone
  exact hgone (by decide)

end AtFrame.Etcd
