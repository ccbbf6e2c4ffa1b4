/-
What the removal of a keepalive deletes.

`remove_keepalive_path` asks for the range "+1" of the keepalive's path, which is every key that starts with it. The paths of
other nodes may: ids are decimal numbers of any length at the end of a path.

- `mem_sent_removeKeepalive`: the only request that a removal sends is this one;
- `removeKeepalive_spares_iff`: it spares a path exactly when the removed one is not a prefix of it.

The state before the removal is any state, and the two paths are of any kinds. Witness `removeKeepalive_spares_iff_other`: the
nodes 3 and 12. In `removeKeepalive_deletes_longer_id` the node 1 leaves, and the delete covers what the node 12 has put.
-/
import AtFrame.Etcd.Cluster

namespace AtFrame.Etcd

variable {e : EtcdEnv}

/-- what is sent on the way from `c` to `c'` -/
def sentSince (c c' : EtcdState) : List Sent := c'.sent.drop c.sent.length

theorem createRequestKv_sent (c : EtcdState) : (createRequestKv e c).2.sent = c.sent := by
  unfold createRequestKv
  split_ifs <;> rfl

theorem startHttp_sent (s : Sent) (c : EtcdState) :
    (startHttp e s c).2.sent = c.sent ∨ (startHttp e s c).2.sent = c.sent ++ [s] := by
  unfold startHttp
  split_ifs
  · exact .inr rfl
  · exact .inl rfl

/-- a deletor sends nothing or asks for the range of its path -/
theorem removeKeepalivePath_sent (d : Deletor) (delay : Bool) (c : EtcdState) :
    (removeKeepalivePath e d delay c).sent = c.sent ∨
      ∃ s, (removeKeepalivePath e d delay c).sent = c.sent ++ [s] ∧ s.ask = .delete (packKeyRange d.path plusOne) := by
  unfold removeKeepalivePath
  simp only
  split_ifs with hdelay htimes hcreate
  · exact .inl rfl
  · exact .inl rfl
  · set c₁ := (createRequestKv e { c with keepaliveDeletors := c.keepaliveDeletors.filter fun d' => d'.path ≠ d.path }).2
    have hc₁ : c₁.sent = c.sent := createRequestKv_sent _
    set s : Sent := ⟨c₁.conf.pathNode, .delete (packKeyRange d.path plusOne), .deletor⟩
    have hs := startHttp_sent (e := e) s c₁
    rw [hc₁] at hs
    rcases (startHttp e s c₁).1 with _ | id
    · exact hs.imp id fun h => ⟨s, h, rfl⟩
    · exact hs.imp (fun h => h) fun h => ⟨s, h, rfl⟩
  · exact .inl (createRequestKv_sent _)

/-- all that a removal sends is the delete request for the keepalive's path -/
theorem mem_sent_removeKeepalive {c : EtcdState} {k : ℕ} {s : Sent} (hs : s ∈ sentSince c (removeKeepalive e k c)) :
    s.ask = .delete (packKeyRange (c.keep k).path plusOne) := by
  have hnone : ∀ c' : EtcdState, c'.sent = c.sent → s ∈ sentSince c c' → s.ask = .delete (packKeyRange (c.keep k).path plusOne) := by
    intro c' hc' hmem
    rw [sentSince, hc', List.drop_length] at hmem
    exact absurd hmem List.not_mem_nil
  unfold removeKeepalive at hs
  simp only at hs
  split_ifs at hs with hfound hdata
  · set c₁ : EtcdState := { c with keepaliveActors := swapErase k c.keepaliveActors,
                                   keepaliveRetryActors := swapErase k c.keepaliveRetryActors }
    rcases removeKeepalivePath_sent (e := e) ⟨(c₁.keep k).path, 0⟩ false c₁ with h | ⟨s', h, hask⟩
    · exact hnone _ h hs
    · have hsent : sentSince c ((removeKeepalivePath e ⟨(c₁.keep k).path, 0⟩ false c₁).setKeep k
          (((removeKeepalivePath e ⟨(c₁.keep k).path, 0⟩ false c₁).keep k).close true)) = [s'] := by
        rw [sentSince, EtcdState.setKeep, h, List.drop_left]
      rw [hsent, List.mem_singleton] at hs
      rw [hs, hask]
  · exact hnone _ rfl hs
  · exact hnone _ rfl hs

/-- **A removal spares a path** exactly when the removed path is not a prefix of it. -/
theorem removeKeepalive_spares_iff (c : EtcdState) (k : ℕ) (n m : Node) (kind kind' : PathKind)
    (hpath : (c.keep k).path = n.path kind) :
    ∀ s ∈ sentSince c (removeKeepalive e k c),
      ∃ r, s.ask = .delete r ∧ (¬ r.Covers (m.path kind') ↔ ¬ n.path kind <+: m.path kind') := by
  intro s hs
  have hask := mem_sent_removeKeepalive hs
  rw [hpath] at hask
  exact ⟨_, hask, not_congr (covers_plusOne_iff (exists_ne_255_nodePath n kind) _)⟩

/-- a running cluster with one keepalive that has put its value -/
def EtcdState.published (path : Bytes) : EtcdState :=
  let c := EtcdState.start { pathNode := "http://etcd" } (fun _ => path) fun _ => none
  { c with keepaliveActors := [0], conf := { c.conf with lease := 7 },
           keep := fun _ => { Keepalive.fresh path none with hasData := true } }

/-- a node that is known by its id alone -/
def Node.ofId (id : UInt64) : Node := ⟨[], id, 0, [], []⟩

/-- the removal of node 3 spares node 12 -/
theorem removeKeepalive_spares_iff_other :
    sentSince (.published (Node.ofId 3).byIdPath) (removeKeepalive .steady 0 (.published (Node.ofId 3).byIdPath)) ≠ [] ∧
      ∀ s ∈ sentSince (.published (Node.ofId 3).byIdPath) (removeKeepalive .steady 0 (.published (Node.ofId 3).byIdPath)),
        ∃ r, s.ask = .delete r ∧
          (¬ r.Covers ((Node.ofId 12).path .byId) ↔ ¬ (Node.ofId 3).path .byId <+: (Node.ofId 12).path .byId) :=
  ⟨by decide, removeKeepalive_spares_iff _ 0 (.ofId 3) (.ofId 12) .byId .byId rfl⟩

/-- the removal of node 1 deletes the path of node 12 -/
theorem removeKeepalive_deletes_longer_id :
    (Node.ofId 1).byIdPath ≠ (Node.ofId 12).byIdPath ∧
      ∃ s ∈ sentSince (.published (Node.ofId 1).byIdPath) (removeKeepalive .steady 0 (.published (Node.ofId 1).byIdPath)),
        ∃ r, s.ask = .delete r ∧ r.Covers (Node.ofId 12).byIdPath := by
  refine ⟨by decide, ⟨"http://etcd", .delete (packKeyRange (Node.ofId 1).byIdPath plusOne), .deletor⟩, by decide, _, rfl, ?_⟩
  decide

end AtFrame.Etcd
