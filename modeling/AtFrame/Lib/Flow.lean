/-
A FIFO channel whose sender changes its key while messages are under way.

The sender protects each payload with the key it has when it sends it, and announces another key by a mark; messages that
depend on no key may stand anywhere. `Flow k ms marks k' xs`: a receiver with the key `k` that reads `ms` in order, and takes
the key of each mark when it reads it, reads the payloads `xs`, each with the key that protects it, and ends with `k'`.

- `Flow.append`: messages that are sent behind others;
- `Flow.head`: the message that is read next.
-/
import Mathlib.Tactic

namespace AtFrame.Lib

variable {K M α : Type} {Carries : K → α → M → Prop} {Idle : M → Prop}

/-- the messages from a sender to a receiver, with the keys that the marks among them announce -/
inductive Flow (Carries : K → α → M → Prop) (Idle : M → Prop) : K → List M → List (M × K) → K → List α → Prop where
  | nil (k : K) : Flow Carries Idle k [] [] k []
  | payload {k k' : K} {m : M} {ms : List M} {marks : List (M × K)} {x : α} {xs : List α} :
    Carries k x m → Flow Carries Idle k ms marks k' xs → Flow Carries Idle k (m :: ms) marks k' (x :: xs)
  | idle {k k' : K} {m : M} {ms : List M} {marks : List (M × K)} {xs : List α} :
    Idle m → Flow Carries Idle k ms marks k' xs → Flow Carries Idle k (m :: ms) marks k' xs
  | mark {k j k' : K} {m : M} {ms : List M} {marks : List (M × K)} {xs : List α} :
    Flow Carries Idle j ms marks k' xs → Flow Carries Idle k (m :: ms) ((m, j) :: marks) k' xs

/-- the key of a sender behind marks -/
def lastKey (k : K) (marks : List (M × K)) : K := marks.foldl (fun _ m => m.2) k

namespace Flow

variable {k k' k'' j : K} {m : M} {ms ms' : List M} {marks marks' : List (M × K)} {x : α} {xs xs' : List α}

theorem append (h : Flow Carries Idle k ms marks k' xs) (h' : Flow Carries Idle k' ms' marks' k'' xs') :
    Flow Carries Idle k (ms ++ ms') (marks ++ marks') k'' (xs ++ xs') := by
  induction h with
  | nil => exact h'
  | payload hm _ ih => exact .payload hm (ih h')
  | idle hm _ ih => exact .idle hm (ih h')
  | mark _ ih => exact .mark (ih h')

/-- a payload is sent -/
theorem send (h : Flow Carries Idle k ms marks k' xs) (hm : Carries k' x m) : Flow Carries Idle k (ms ++ [m]) marks k' (xs ++ [x]) := by
  have happ := h.append (.payload hm (.nil k'))
  rwa [List.append_nil] at happ

/-- a message is sent that depends on no key -/
theorem sendIdle (h : Flow Carries Idle k ms marks k' xs) (hm : Idle m) : Flow Carries Idle k (ms ++ [m]) marks k' xs := by
  have happ := h.append (.idle hm (.nil k'))
  rwa [List.append_nil, List.append_nil] at happ

/-- a mark is sent -/
theorem sendMark (h : Flow Carries Idle k ms marks k' xs) (m : M) (j : K) : Flow Carries Idle k (ms ++ [m]) (marks ++ [(m, j)]) j xs := by
  have happ := h.append (.mark (m := m) (.nil j))
  rwa [List.append_nil] at happ

/-- marks are sent -/
theorem sendMarks (h : Flow Carries Idle k ms marks k' xs) (sent : List (M × K)) :
    Flow Carries Idle k (ms ++ sent.map Prod.fst) (marks ++ sent) (lastKey k' sent) xs := by
  induction sent generalizing ms marks k' with
  | nil => rwa [List.map_nil, List.append_nil, List.append_nil]
  | cons m sent ih =>
    have hnext := ih (h.sendMark m.1 m.2)
    rwa [List.append_assoc, List.append_assoc] at hnext

/-- **The next message** is a payload under the receiver's key, depends on no key, or is the first mark. -/
theorem head (h : Flow Carries Idle k (m :: ms) marks k' xs) :
    (∃ x ys, xs = x :: ys ∧ Carries k x m ∧ Flow Carries Idle k ms marks k' ys) ∨
      (Idle m ∧ Flow Carries Idle k ms marks k' xs) ∨
      ∃ j rest, marks = (m, j) :: rest ∧ Flow Carries Idle j ms rest k' xs := by
  cases h with
  | payload hm h => exact .inl ⟨_, _, rfl, hm, h⟩
  | idle hm h => exact .inr (.inl ⟨hm, h⟩)
  | mark h => exact .inr (.inr ⟨_, _, rfl, h⟩)

/-- messages are sent that depend on no key -/
theorem sendIdles (h : Flow Carries Idle k ms marks k' xs) (hsent : ∀ m ∈ ms', Idle m) :
    Flow Carries Idle k (ms ++ ms') marks k' xs := by
  induction ms' generalizing ms with
  | nil => rwa [List.append_nil]
  | cons m ms' ih =>
    have hnext := ih (h.sendIdle (hsent m List.mem_cons_self)) fun m' hm' => hsent m' (List.mem_cons_of_mem m hm')
    rwa [List.append_assoc] at hnext

theorem nothing (h : Flow Carries Idle k [] marks k' xs) : xs = [] ∧ marks = [] := by
  cases h
  exact ⟨rfl, rfl⟩

end Flow

end AtFrame.Lib
