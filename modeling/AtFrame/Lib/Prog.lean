/-
Programs over a mutable world that may stop at a fault, and the rules to reason about them.

`wp m Q E s`: running `m` in world `s` ends with a value and a world in `Q`, or stops at a fault and a world in `E`. The
world reached is kept at a fault, so a property of everything done so far can be stated there too.

- `wp_bind`, `wp_ite`, ...: the calculus follows the program text;
- `wp_mono`, `wp_and`: consequence and conjunction;
- `Keeps`: a program preserves an invariant, whether it ends or faults; it is closed under sequencing and branching;
- `wp_forM`, `wp_forM_of_not`: an invariant over a run of events, and what holds behind the first event that breaks it;
- `Rounds`: a loop taken apart into its rounds, for invariants that speak of the entries to come.
-/
import Mathlib.Tactic

namespace AtFrame.Lib

/-- a program over the world `σ` with faults in `ε` -/
abbrev Prog (ε σ α : Type) := ExceptT ε (StateM σ) α

variable {ε σ α β : Type}

/-- run `m` in `s` -/
def exec (m : Prog ε σ α) (s : σ) : Except ε α × σ := m s

theorem exec_bind_ok {m : Prog ε σ α} {f : α → Prog ε σ β} {s s' : σ} {a : α} (h : exec m s = (.ok a, s')) :
    exec (m >>= f) s = exec (f a) s' := by
  unfold exec at *
  simp only [bind, ExceptT.bind, ExceptT.mk, StateT.bind, h, ExceptT.bindCont]

theorem exec_bind_error {m : Prog ε σ α} {f : α → Prog ε σ β} {s s' : σ} {e : ε} (h : exec m s = (.error e, s')) :
    exec (m >>= f) s = (.error e, s') := by
  unfold exec at *
  simp only [bind, ExceptT.bind, ExceptT.mk, StateT.bind, h, ExceptT.bindCont]
  rfl

/-- the weakest precondition of `m` for `Q` on a value and `E` on a fault -/
def wp (m : Prog ε σ α) (Q : α → σ → Prop) (E : ε → σ → Prop) (s : σ) : Prop :=
  match exec m s with
  | (.ok a, s') => Q a s'
  | (.error e, s') => E e s'

section calculus

variable {Q Q' : α → σ → Prop} {E E' : ε → σ → Prop} {s : σ}

theorem wp_pure (a : α) : wp (pure a : Prog ε σ α) Q E s ↔ Q a s := Iff.rfl

theorem wp_throw (e : ε) : wp (throw e : Prog ε σ α) Q E s ↔ E e s := Iff.rfl

theorem wp_get {Q : σ → σ → Prop} : wp (get : Prog ε σ σ) Q E s ↔ Q s s := Iff.rfl

theorem wp_set {Q : PUnit → σ → Prop} (s' : σ) : wp (set s' : Prog ε σ PUnit) Q E s ↔ Q ⟨⟩ s' := Iff.rfl

theorem wp_modify {Q : PUnit → σ → Prop} (f : σ → σ) :
    wp (modify f : Prog ε σ PUnit) Q E s ↔ Q ⟨⟩ (f s) := Iff.rfl

theorem wp_bind {Q : β → σ → Prop} (m : Prog ε σ α) (f : α → Prog ε σ β) :
    wp (m >>= f) Q E s ↔ wp m (fun a s' => wp (f a) Q E s') E s := by
  unfold wp
  rcases hm : exec m s with ⟨a | a, s'⟩
  · rw [exec_bind_error hm]
  · rw [exec_bind_ok hm]

theorem wp_map {Q : β → σ → Prop} (m : Prog ε σ α) (f : α → β) :
    wp (f <$> m) Q E s ↔ wp m (fun a s' => Q (f a) s') E s := by
  rw [map_eq_pure_bind, wp_bind]
  rfl

theorem wp_ite (c : Prop) [Decidable c] (m m' : Prog ε σ α) :
    wp (if c then m else m') Q E s ↔ (c → wp m Q E s) ∧ (¬ c → wp m' Q E s) := by
  split_ifs with h <;> simp [h]

theorem wp_mono {m : Prog ε σ α} (h : wp m Q E s) (hQ : ∀ a s', Q a s' → Q' a s') (hE : ∀ e s', E e s' → E' e s') :
    wp m Q' E' s := by
  unfold wp at *
  rcases hm : exec m s with ⟨a | a, s'⟩ <;> rw [hm] at h
  · exact hE _ _ h
  · exact hQ _ _ h

theorem wp_post {m : Prog ε σ α} (h : wp m Q E s) (hQ : ∀ a s', Q a s' → Q' a s') : wp m Q' E s :=
  wp_mono h hQ fun _ _ => id

theorem wp_and {m : Prog ε σ α} (h : wp m Q E s) (h' : wp m Q' E' s) :
    wp m (fun a s' => Q a s' ∧ Q' a s') (fun e s' => E e s' ∧ E' e s') s := by
  unfold wp at *
  rcases hm : exec m s with ⟨a | a, s'⟩ <;> rw [hm] at h h' <;> exact ⟨h, h'⟩

theorem wp_forall {ι : Sort*} [Nonempty ι] {m : Prog ε σ α} {Q : ι → α → σ → Prop} (h : ∀ i, wp m (Q i) E s) :
    wp m (fun a s' => ∀ i, Q i a s') E s := by
  unfold wp at *
  rcases hm : exec m s with ⟨a | a, s'⟩ <;> rw [hm] at h
  · exact h (Classical.arbitrary ι)
  · exact h

theorem wp_trivial (m : Prog ε σ α) (s : σ) : wp m (fun _ _ => True) (fun _ _ => True) s := by
  unfold wp
  rcases exec m s with ⟨a | a, s'⟩ <;> trivial

/-- a postcondition may speak of the run itself -/
theorem wp_exec {m : Prog ε σ α} (h : wp m Q E s) : wp m (fun a s' => Q a s' ∧ exec m s = (.ok a, s')) E s := by
  unfold wp at *
  rcases hm : exec m s with ⟨a | a, s'⟩ <;> rw [hm] at h
  · exact h
  · exact ⟨h, rfl⟩

instance [∀ a s, Decidable (Q a s)] [∀ e s, Decidable (E e s)] (m : Prog ε σ α) (s : σ) : Decidable (wp m Q E s) :=
  match hm : exec m s with
  | (.ok a, s') => decidable_of_iff (Q a s') (by unfold wp; rw [hm])
  | (.error e, s') => decidable_of_iff (E e s') (by unfold wp; rw [hm])

theorem wp_ok {m : Prog ε σ α} {a : α} {s' : σ} (h : wp m Q E s) (hm : exec m s = (.ok a, s')) : Q a s' := by
  unfold wp at h; rw [hm] at h; exact h

/-- a program that does not fault ends with a value -/
theorem wp_total {m : Prog ε σ α} (h : wp m Q (fun _ _ => False) s) : ∃ a s', exec m s = (.ok a, s') ∧ Q a s' := by
  unfold wp at h
  rcases hm : exec m s with ⟨a | a, s'⟩ <;> rw [hm] at h
  · exact h.elim
  · exact ⟨a, s', rfl, h⟩

theorem exec_of_fst {m : Prog ε σ α} {a : α} {s : σ} (h : (exec m s).1 = .ok a) : exec m s = (.ok a, (exec m s).2) :=
  Prod.ext h rfl

theorem wp_error {m : Prog ε σ α} {e : ε} {s' : σ} (h : wp m Q E s) (hm : exec m s = (.error e, s')) : E e s' := by
  unfold wp at h; rw [hm] at h; exact h

end calculus

/-! ## Kept invariants -/

/-- `m` started in `I` stays in `I`, also when it faults; a fault itself is in `E` -/
def Keeps (I : σ → Prop) (E : ε → σ → Prop) (m : Prog ε σ α) : Prop :=
  ∀ s, I s → wp m (fun _ => I) E s

section keeps

variable {I : σ → Prop} {E : ε → σ → Prop}

theorem keeps_pure (a : α) : Keeps I E (pure a : Prog ε σ α) := fun _ h => h

theorem keeps_bind {m : Prog ε σ α} {f : α → Prog ε σ β} (hm : Keeps I E m) (hf : ∀ a, Keeps I E (f a)) :
    Keeps I E (m >>= f) := fun s h => by
  rw [wp_bind]
  exact wp_post (hm s h) fun a s' h' => hf a s' h'

theorem keeps_get {f : σ → Prog ε σ β} (hf : ∀ a, Keeps I E (f a)) : Keeps I E (get >>= f) :=
  keeps_bind (fun _ h => h) hf

theorem keeps_ite {c : Prop} [Decidable c] {m m' : Prog ε σ α} (hm : c → Keeps I E m) (hm' : ¬ c → Keeps I E m') :
    Keeps I E (if c then m else m') := fun s h => by
  rw [wp_ite]
  exact ⟨fun hc => hm hc s h, fun hc => hm' hc s h⟩

theorem keeps_map {m : Prog ε σ α} (f : α → β) (hm : Keeps I E m) : Keeps I E (f <$> m) := fun s h => by
  rw [wp_map]; exact hm s h

theorem keeps_forM {γ : Type} {f : γ → Prog ε σ Unit} (hf : ∀ c, Keeps I E (f c)) (cs : List γ) : Keeps I E (cs.forM f) := by
  induction cs with
  | nil => exact keeps_pure _
  | cons c cs ih => exact keeps_bind (hf c) fun _ => ih

end keeps

/-! ## Runs over a list of events -/

section runs

variable {γ : Type} {f : γ → Prog ε σ Unit} {P : γ → σ → Prop} {I J : σ → Prop} {E F : ε → σ → Prop}

theorem exec_forM_cons_ok {c : γ} {cs : List γ} {s s' : σ} {u : Unit} (h : exec (f c) s = (.ok u, s')) :
    exec ((c :: cs).forM f) s = exec (cs.forM f) s' :=
  exec_bind_ok h

theorem exec_forM_cons_error {c : γ} {cs : List γ} {s s' : σ} {e : ε} (h : exec (f c) s = (.error e, s')) :
    exec ((c :: cs).forM f) s = (.error e, s') :=
  exec_bind_error h

/-- the first part of a run that ends well ended well -/
theorem exec_forM_append {cs ds : List γ} {s : σ} {u : Unit} (h : (exec ((cs ++ ds).forM f) s).1 = .ok u) :
    (exec (cs.forM f) s).1 = .ok () := by
  rw [show (cs ++ ds).forM f = cs.forM f >>= fun _ => ds.forM f from List.forM_append] at h
  rcases hcs : exec (cs.forM f) s with ⟨a | ⟨⟨⟩⟩, s'⟩
  · rw [exec_bind_error hcs] at h
    cases h
  · rfl

/-- every event of the run meets `P` in the world before it -/
def EachMeets (f : γ → Prog ε σ Unit) (P : γ → σ → Prop) : List γ → σ → Prop
  | [], _ => True
  | c :: cs, s => P c s ∧ wp (f c) (fun _ => EachMeets f P cs) (fun _ _ => True) s

instance instDecidableEachMeets [∀ c s, Decidable (P c s)] : ∀ (cs : List γ) (s : σ), Decidable (EachMeets f P cs s)
  | [], _ => .isTrue trivial
  | c :: cs, s =>
    have := instDecidableEachMeets cs
    inferInstanceAs (Decidable (P c s ∧ wp (f c) (fun _ => EachMeets f P cs) (fun _ _ => True) s))

theorem eachMeets_of_forall {cs : List γ} (h : ∀ c ∈ cs, ∀ s, P c s) {s : σ} : EachMeets f P cs s := by
  induction cs generalizing s with
  | nil => trivial
  | cons c cs ih =>
    exact ⟨h c List.mem_cons_self s, wp_post (wp_trivial _ _) fun _ _ _ => ih fun d hd => h d (List.mem_cons_of_mem c hd)⟩

/-- a run whose events meet `P` meets `Q` as well, if that follows where an invariant holds -/
theorem EachMeets.imp {Q : γ → σ → Prop} (hstep : ∀ c s, I s → P c s → Q c s ∧ wp (f c) (fun _ => I) E s) {cs : List γ} {s : σ}
    (hs : I s) (h : EachMeets f P cs s) : EachMeets f Q cs s := by
  induction cs generalizing s with
  | nil => trivial
  | cons c cs ih =>
    obtain ⟨hQ, hI⟩ := hstep c s hs h.1
    exact ⟨hQ, wp_mono (wp_and hI h.2) (fun _ _ h' => ih h'.1 h'.2) fun _ _ _ => trivial⟩

/-- **Runs keep an invariant** that every step keeps on the events that meet `P`. -/
theorem wp_forM (hstep : ∀ c s, I s → P c s → wp (f c) (fun _ => I) E s) {cs : List γ} {s : σ} (hs : I s)
    (hmeets : EachMeets f P cs s) : wp (cs.forM f) (fun _ => I) E s := by
  induction cs generalizing s with
  | nil => exact hs
  | cons c cs ih =>
    refine (wp_bind _ _).2 (wp_mono (wp_and (hstep c s hs hmeets.1) hmeets.2) ?_ ?_)
    · exact fun _ s' h => ih h.1 h.2
    · exact fun _ s' h => h.1

/-- a run with an event that does not meet `P` ends in `J`, if the first such event leads there and every step stays there -/
theorem wp_forM_of_not (hstep : ∀ c s, I s → P c s → wp (f c) (fun _ => I) (fun _ _ => True) s)
    (hbreak : ∀ c s, I s → ¬ P c s → wp (f c) (fun _ => J) F s) (hkeep : ∀ c, Keeps J F (f c)) {cs : List γ} {s : σ}
    (hs : I s) (hnot : ¬ EachMeets f P cs s) : wp (cs.forM f) (fun _ => J) F s := by
  have hrest : ∀ (cs : List γ) s, J s → wp (cs.forM f) (fun _ => J) F s := by
    intro cs
    induction cs with
    | nil => exact fun _ hs => hs
    | cons c cs ih => exact fun s hs => (wp_bind _ _).2 (wp_post (hkeep c s hs) fun _ => ih)
  induction cs generalizing s with
  | nil => exact absurd trivial hnot
  | cons c cs ih =>
    by_cases hc : P c s
    · have hnext : ¬ wp (f c) (fun _ => EachMeets f P cs) (fun _ _ => True) s := fun h => hnot ⟨hc, h⟩
      have hI := hstep c s hs hc
      refine (wp_bind _ _).2 ?_
      unfold wp at hnext hI ⊢
      rcases hf : exec (f c) s with ⟨e | u, s'⟩ <;> rw [hf] at hnext hI
      · exact absurd trivial hnext
      · exact ih hI hnext
    · exact (wp_bind _ _).2 (wp_post (hbreak c s hs hc) fun _ => hrest cs)

/-! ## Loops round by round -/

variable {R : γ → σ → σ → Prop} {cs : List γ} {s s' : σ}

/-- what a loop leads to: one round for each entry of the list -/
inductive Rounds (R : γ → σ → σ → Prop) : List γ → σ → σ → Prop where
  | nil (s : σ) : Rounds R [] s s
  | cons {c : γ} {cs : List γ} {s s₁ s₂ : σ} : R c s s₁ → Rounds R cs s₁ s₂ → Rounds R (c :: cs) s s₂

theorem wp_forM_rounds (hf : ∀ c s, I s → wp (f c) (fun _ s' => R c s s' ∧ I s') E s) (hs : I s) :
    wp (cs.forM f) (fun _ => Rounds R cs s) E s := by
  induction cs generalizing s with
  | nil => exact .nil s
  | cons c cs ih =>
    refine (wp_bind _ _).2 (wp_post (hf c s hs) fun _ s₁ ⟨hround, hs₁⟩ => ?_)
    exact wp_post (ih hs₁) fun _ _ hrest => .cons hround hrest

/-- **Loops keep an invariant** over the entries that are still to come. -/
theorem Rounds.keeps {I : List γ → σ → Prop} (h : Rounds R cs s s') (hs : I cs s)
    (hround : ∀ c cs s s', R c s s' → I (c :: cs) s → I cs s') : I [] s' := by
  induction h with
  | nil => exact hs
  | cons hfirst _ ih => exact ih (hround _ _ _ _ hfirst hs)

end runs

end AtFrame.Lib
