/-
`timestamp_id_allocator<uint64_t>`: concurrent calls of `allocate` on one atomic word.

A call is where its program counter stands (`Pc`): it loads the word, reads the clock when the sequence number of a second is
used up, and exchanges the word, which fails when another call was faster and, in the weak form, also without a reason. Any number
of calls and the clock take steps in any order. The clock never goes back: an event that would set it back does nothing.

- `Inv`: no second in the word lies ahead of the clock, and each call knows what its last reads said;
- `step_inv`, `run_inv`: every step keeps it;
- `allocate_increasing`: ids are positive, they grow with each exchange, and no two calls get the same one;
- `run_next`, `run_roll`, `call_returns`: which id a call returns that nobody disturbs. It takes the next one of the second in the
  word, and past its last sequence number the first one of the clock's second. It waits only where that second is the clock's.
-/
import Mathlib.Tactic

namespace AtFrame.TimestampId

/-! ## Model -/

/-- `value_type` -/
abbrev ValueType := UInt64

/-- "invalid key" -/
def npos : ValueType := 0

/-- `seq_bits` -/
def seqBits : ValueType := 32

/-- `time_mask` -/
def timeMask : ValueType := (1 <<< (64 - seqBits)) - 1

/-- `get_now()`, in the seconds that fit into the time part -/
structure Clock where
  now : ℕ
  pos : 1 ≤ now
  le : now ≤ 2 ^ 32 - 1

/-- what a call of `allocate` does next -/
inductive Pc where
  /-- the start of its loop -/
  | load
  /-- read the clock until it differs from the time part of `res` -/
  | readClock (res : ValueType)
  | exchangeStrong (res nowTime : ValueType)
  | exchangeWeak (res nextRet : ValueType)
  | returned (ret : ValueType)
deriving DecidableEq

structure St where
  /-- `seq_alloc` -/
  word : ValueType
  clock : Clock
  pc : ℕ → Pc
  /-- the exchanges that succeeded: the call and what it stored -/
  exchanges : List (ℕ × ValueType)

inductive Event where
  /-- the next step of a call; `spurious` makes a weak exchange fail -/
  | call (i : ℕ) (spurious : Bool)
  | clock (c : Clock)

def St.goto (s : St) (i : ℕ) (pc : Pc) : St := { s with pc := Function.update s.pc i pc }

/-- an exchange succeeds; the loop ends when the id is valid -/
def St.exchange (s : St) (i : ℕ) (ret : ValueType) : St :=
  { s.goto i (if ret = npos then .load else .returned ret) with word := ret, exchanges := s.exchanges ++ [(i, ret)] }

/-- behind `seq_alloc.load()`: is a new second needed -/
def afterLoad (res : ValueType) : Pc :=
  let timePart := res >>> seqBits
  let nextRet := res + 1
  if 0 = timePart ∨ timePart ≠ nextRet >>> seqBits then .readClock res else .exchangeWeak res nextRet

def callStep (s : St) (i : ℕ) (spurious : Bool) : St :=
  match s.pc i with
  | .load => s.goto i (afterLoad s.word)
  | .readClock res =>
    let nowTime := UInt64.ofNat s.clock.now &&& timeMask
    if res >>> seqBits = nowTime then s else s.goto i (.exchangeStrong res nowTime)
  | .exchangeStrong res nowTime => if s.word = res then s.exchange i (nowTime <<< seqBits) else s.goto i .load
  | .exchangeWeak res nextRet => if s.word = res ∧ spurious = false then s.exchange i nextRet else s.goto i .load
  | .returned _ => s

def step (s : St) : Event → St
  | .call i spurious => callStep s i spurious
  | .clock c => if s.clock.now ≤ c.now then { s with clock := c } else s

def run (s : St) (events : List Event) : St := events.foldl step s

/-- no call has loaded the word yet -/
def St.start (c : Clock) : St := ⟨255, c, fun _ => .load, []⟩

/-! ## The parts of an id -/

theorem toNat_time (x : ValueType) : (x >>> seqBits).toNat = x.toNat / 2 ^ 32 := by
  rw [UInt64.toNat_shiftRight, Nat.shiftRight_eq_div_pow]
  rfl

/-- a clock in range passes the mask as it is -/
theorem toNat_nowTime (c : Clock) : (UInt64.ofNat c.now &&& timeMask).toNat = c.now := by
  have hle := c.le
  have hmask : timeMask.toNat = 2 ^ 32 - 1 := by decide
  rw [UInt64.toNat_and, hmask, Nat.and_two_pow_sub_one_eq_mod, UInt64.toNat_ofNat']
  omega

theorem toNat_shiftTime {t : ValueType} (h : t.toNat < 2 ^ 32) : (t <<< seqBits).toNat = t.toNat * 2 ^ 32 := by
  rw [UInt64.toNat_shiftLeft, Nat.shiftLeft_eq]
  have hbits : seqBits.toNat % 64 = 32 := by decide
  rw [hbits]
  omega

theorem time_eq_iff {x y : ValueType} : x >>> seqBits = y >>> seqBits ↔ x.toNat / 2 ^ 32 = y.toNat / 2 ^ 32 := by
  rw [← UInt64.toNat_inj, toNat_time, toNat_time]

/-! ## Invariant -/

/-- what a call knows -/
def Pc.Knows (c : Clock) : Pc → Prop
  | .load | .returned _ => True
  | .readClock res => res.toNat / 2 ^ 32 ≤ c.now
  | .exchangeStrong res nowTime => res.toNat / 2 ^ 32 < nowTime.toNat ∧ nowTime.toNat ≤ c.now
  | .exchangeWeak res nextRet => nextRet.toNat = res.toNat + 1 ∧ nextRet.toNat / 2 ^ 32 = res.toNat / 2 ^ 32

structure Inv (s : St) : Prop where
  /-- the second of the word is not ahead of the clock -/
  time : s.word.toNat / 2 ^ 32 ≤ s.clock.now
  /-- every id is behind the word or in it -/
  behind : ∀ x ∈ s.exchanges, 0 < x.2.toNat ∧ x.2.toNat ≤ s.word.toNat
  sorted : (s.exchanges.map Prod.snd).Pairwise (· < ·)
  once : (s.exchanges.map Prod.fst).Nodup
  returns : ∀ i id, s.pc i = .returned id ↔ (i, id) ∈ s.exchanges
  knows : ∀ i, (s.pc i).Knows s.clock

variable {s : St} {i : ℕ}

theorem Pc.Knows.mono {c c' : Clock} (h : c.now ≤ c'.now) {pc : Pc} (hpc : pc.Knows c) : pc.Knows c' := by
  cases pc with
  | load | returned => trivial
  | readClock res => exact le_trans hpc h
  | exchangeStrong res nowTime => exact ⟨hpc.1, hpc.2.trans h⟩
  | exchangeWeak res nextRet => exact hpc

/-- what a load finds out -/
theorem afterLoad_knows {c : Clock} {res : ValueType} (h : res.toNat / 2 ^ 32 ≤ c.now) : (afterLoad res).Knows c := by
  unfold afterLoad
  simp only
  split_ifs with hnew
  · exact h
  · push Not at hnew
    obtain ⟨hzero, hsame⟩ := hnew
    have htime := time_eq_iff.1 hsame
    have hpos : res.toNat / 2 ^ 32 ≠ 0 := fun h0 => hzero (UInt64.toNat_inj.1 (by rw [toNat_time, h0]; rfl))
    have hadd : (res + 1).toNat = (res.toNat + 1) % 2 ^ 64 := UInt64.toNat_add ..
    have hlt := res.toNat_lt
    -- the sequence number did not roll over, so neither did the word
    have hnext : (res + 1).toNat = res.toNat + 1 := by omega
    exact ⟨hnext, htime.symm⟩

@[simp] theorem St.goto_pc (s : St) (i : ℕ) (pc : Pc) : (s.goto i pc).pc i = pc := Function.update_self ..

theorem St.goto_pc_ne {i j : ℕ} (h : j ≠ i) (s : St) (pc : Pc) : (s.goto i pc).pc j = s.pc j := Function.update_of_ne h ..

theorem St.exchange_pc {ret : ValueType} (h : ret ≠ npos) (s : St) (i : ℕ) : (s.exchange i ret).pc i = .returned ret := by
  unfold St.exchange
  rw [St.goto_pc, if_neg h]

theorem St.exchange_pc_ne {i j : ℕ} (h : j ≠ i) (s : St) (ret : ValueType) : (s.exchange i ret).pc j = s.pc j :=
  St.goto_pc_ne h s _

theorem Inv.not_returned (h : Inv s) (hpc : ∀ id, s.pc i ≠ .returned id) : i ∉ s.exchanges.map Prod.fst := by
  intro hmem
  obtain ⟨⟨j, id⟩, hx, rfl⟩ := List.mem_map.1 hmem
  exact hpc id ((h.returns j id).2 hx)

/-- a step of a call that has not returned and exchanges nothing -/
theorem Inv.goto (h : Inv s) {pc : Pc} (hpc : ∀ id, s.pc i ≠ .returned id) (hnew : ∀ id, pc ≠ .returned id)
    (hknows : pc.Knows s.clock) : Inv (s.goto i pc) := by
  refine ⟨h.time, h.behind, h.sorted, h.once, fun j id => ?_, fun j => ?_⟩
  · by_cases hji : j = i
    · subst hji
      rw [St.goto_pc]
      exact ⟨fun hr => absurd hr (hnew id), fun hx => absurd ((h.returns j id).2 hx) (hpc id)⟩
    · rw [St.goto_pc_ne hji]
      exact h.returns j id
  · by_cases hji : j = i
    · subst hji
      rw [St.goto_pc]
      exact hknows
    · rw [St.goto_pc_ne hji]
      exact h.knows j

/-- **An exchange** that stores more than the word held, and no second of the future. -/
theorem Inv.exchange (h : Inv s) (hpc : ∀ id, s.pc i ≠ .returned id) {ret : ValueType} (hmore : s.word.toNat < ret.toNat)
    (htime : ret.toNat / 2 ^ 32 ≤ s.clock.now) : Inv (s.exchange i ret) := by
  have hne : ret ≠ npos := fun h0 => by
    rw [h0] at hmore
    exact absurd hmore (Nat.not_lt_zero _)
  have hlist : (s.exchange i ret).exchanges = s.exchanges ++ [(i, ret)] := rfl
  refine ⟨htime, fun x hx => ?_, ?_, ?_, fun j id => ?_, fun j => ?_⟩
  · rcases List.mem_append.1 hx with hx | hx
    · exact ⟨(h.behind x hx).1, (h.behind x hx).2.trans hmore.le⟩
    · rw [List.mem_singleton.1 hx]
      exact ⟨Nat.zero_lt_of_lt hmore, le_rfl⟩
  · rw [hlist, List.map_append, List.pairwise_append]
    refine ⟨h.sorted, List.pairwise_singleton _ _, fun id hid id' hid' => ?_⟩
    obtain ⟨x, hx, rfl⟩ := List.mem_map.1 hid
    rw [List.map_singleton, List.mem_singleton] at hid'
    rw [hid']
    exact UInt64.lt_iff_toNat_lt.2 ((h.behind x hx).2.trans_lt hmore)
  · rw [hlist, List.map_append, List.map_singleton, List.nodup_append]
    refine ⟨h.once, List.nodup_singleton _, fun j hj k hk hjk => h.not_returned hpc ?_⟩
    have hji : j = i := hjk.trans (List.mem_singleton.1 hk)
    exact hji ▸ hj
  · rw [hlist, List.mem_append, List.mem_singleton, Prod.mk.injEq]
    by_cases hji : j = i
    · subst hji
      have hout : (j, id) ∉ s.exchanges := fun hx => hpc id ((h.returns j id).2 hx)
      rw [St.exchange_pc hne, Pc.returned.injEq]
      exact ⟨fun hr => .inr ⟨rfl, hr.symm⟩, fun hr => (hr.resolve_left hout).2.symm⟩
    · rw [St.exchange_pc_ne hji, h.returns j id]
      exact ⟨.inl, fun hr => hr.resolve_right fun hc => hji hc.1⟩
  · by_cases hji : j = i
    · subst hji
      rw [St.exchange_pc hne]
      trivial
    · rw [St.exchange_pc_ne hji]
      exact h.knows j

theorem callStep_inv (h : Inv s) (i : ℕ) (spurious : Bool) : Inv (callStep s i spurious) := by
  have hknows := h.knows i
  unfold callStep
  cases hpc : s.pc i with
  | load =>
    refine h.goto (fun id hr => nomatch hpc.symm.trans hr) (fun id hr => ?_) (afterLoad_knows h.time)
    unfold afterLoad at hr
    simp only at hr
    split_ifs at hr
  | readClock res =>
    rw [hpc] at hknows
    simp only
    split_ifs with hsame
    · exact h
    · refine h.goto (fun id hr => nomatch hpc.symm.trans hr) (fun id hr => nomatch hr) ?_
      -- the word was not ahead of the clock when it was loaded
      rw [← UInt64.toNat_inj, toNat_time, toNat_nowTime] at hsame
      refine ⟨?_, ?_⟩ <;> rw [toNat_nowTime]
      exact lt_of_le_of_ne hknows hsame
  | exchangeStrong res nowTime =>
    rw [hpc] at hknows
    obtain ⟨hahead, hclock⟩ := hknows
    simp only
    split_ifs with hword
    · have hshift : (nowTime <<< seqBits).toNat = nowTime.toNat * 2 ^ 32 :=
        toNat_shiftTime (lt_of_le_of_lt (hclock.trans s.clock.le) (by decide))
      refine h.exchange (fun id hr => nomatch hpc.symm.trans hr) ?_ ?_ <;> rw [hshift]
      · rw [hword]
        omega
      · omega
    · exact h.goto (fun id hr => nomatch hpc.symm.trans hr) (fun id hr => nomatch hr) trivial
  | exchangeWeak res nextRet =>
    rw [hpc] at hknows
    obtain ⟨hnext, htime⟩ := hknows
    simp only
    split_ifs with hword
    · refine h.exchange (fun id hr => nomatch hpc.symm.trans hr) ?_ ?_
      · rw [hword.1, hnext]
        exact Nat.lt_succ_self _
      · rw [htime, ← hword.1]
        exact h.time
    · exact h.goto (fun id hr => nomatch hpc.symm.trans hr) (fun id hr => nomatch hr) trivial
  | returned ret => exact h

theorem step_inv (h : Inv s) (ev : Event) : Inv (step s ev) := by
  cases ev with
  | call i spurious => exact callStep_inv h i spurious
  | clock c =>
    simp only [step]
    split_ifs with hle
    · exact { h with time := h.time.trans hle, knows := fun i => (h.knows i).mono hle }
    · exact h

theorem run_inv (h : Inv s) (events : List Event) : Inv (run s events) := by
  induction events generalizing s with
  | nil => exact h
  | cons ev events ih => exact ih (step_inv h ev)

theorem inv_start (c : Clock) : Inv (St.start c) where
  time := (show 255 / 2 ^ 32 ≤ c.now from Nat.zero_le _)
  behind _ hx := absurd hx List.not_mem_nil
  sorted := List.Pairwise.nil
  once := List.nodup_nil
  returns _ _ := ⟨fun hr => (nomatch hr), fun hx => absurd hx List.not_mem_nil⟩
  knows _ := trivial

/-- **Ids never repeat**: the ids that calls returned are not zero, no two calls returned the same one, and the exchanges that
made them stored growing values. -/
theorem allocate_increasing (c : Clock) (events : List Event) :
    ((run (St.start c) events).exchanges.map Prod.snd).Pairwise (· < ·) ∧
      (∀ i id, (run (St.start c) events).pc i = .returned id ↔ (i, id) ∈ (run (St.start c) events).exchanges) ∧
      ∀ i id, (run (St.start c) events).pc i = .returned id →
        id ≠ npos ∧ ∀ j, (run (St.start c) events).pc j = .returned id → j = i := by
  have h := run_inv (inv_start c) events
  refine ⟨h.sorted, h.returns, fun i id hi => ⟨fun h0 => ?_, fun j hj => ?_⟩⟩
  · have hpos := (h.behind _ ((h.returns i id).1 hi)).1
    rw [h0] at hpos
    exact absurd hpos (Nat.lt_irrefl 0)
  · have hids : ((run (St.start c) events).exchanges.map Prod.snd).Nodup := 
      h.sorted.imp fun hlt heq => absurd (heq ▸ hlt) (UInt64.lt_irrefl _)
    have hsame := List.inj_on_of_nodup_map hids ((h.returns j id).1 hj) ((h.returns i id).1 hi) rfl
    exact congrArg Prod.fst hsame

/-! ## Calls that return -/

/-- a call that nobody disturbs takes the next id of the second in the word -/
theorem run_next (hpc : s.pc i = .load) (htime : s.word >>> seqBits ≠ 0) (hroom : (s.word + 1) >>> seqBits = s.word >>> seqBits) :
    (run s [.call i false, .call i false]).pc i = .returned (s.word + 1) := by
  have hload : afterLoad s.word = .exchangeWeak s.word (s.word + 1) :=
    if_neg (not_or.2 ⟨htime.symm, not_not.2 hroom.symm⟩)
  have hvalid : s.word + 1 ≠ npos := fun h0 => htime (by rw [← hroom, h0]; decide)
  have hfirst : step s (.call i false) = s.goto i (.exchangeWeak s.word (s.word + 1)) := by
    simp only [step, callStep, hpc, hload]
  have hsecond : step (s.goto i (.exchangeWeak s.word (s.word + 1))) (.call i false) =
      (s.goto i (.exchangeWeak s.word (s.word + 1))).exchange i (s.word + 1) := by
    simp only [step, callStep, St.goto, Function.update_self, and_self, if_true]
  rw [run, List.foldl_cons, List.foldl_cons, List.foldl_nil, hfirst, hsecond, St.exchange_pc hvalid]

/-- past the last sequence number of that second, and where no second is in the word yet, it takes the first id of the clock's second -/
theorem run_roll (hpc : s.pc i = .load) (hfull : s.word >>> seqBits = 0 ∨ (s.word + 1) >>> seqBits ≠ s.word >>> seqBits)
    (hclock : (s.word >>> seqBits).toNat ≠ s.clock.now) :
    (run s [.call i false, .call i false, .call i false]).pc i = .returned ((UInt64.ofNat s.clock.now &&& timeMask) <<< seqBits) := by
  have hnow := toNat_nowTime s.clock
  obtain ⟨t, ht⟩ : ∃ t, t = UInt64.ofNat s.clock.now &&& timeMask := ⟨_, rfl⟩
  rw [← ht] at hnow ⊢
  have hload : afterLoad s.word = .readClock s.word := if_pos (hfull.imp Eq.symm Ne.symm)
  have hvalid : t <<< seqBits ≠ npos := fun h0 => by
    have hshift := toNat_shiftTime (hnow ▸ Nat.lt_of_le_of_lt s.clock.le (by decide) : t.toNat < 2 ^ 32)
    rw [h0, hnow] at hshift
    exact absurd (Nat.mul_pos s.clock.pos (by decide)) (Nat.not_lt.2 (le_of_eq hshift.symm))
  have hother : ¬ s.word >>> seqBits = t := fun hsame => hclock (hsame ▸ hnow)
  have hfirst : step s (.call i false) = s.goto i (.readClock s.word) := by
    simp only [step, callStep, hpc, hload]
  have hsecond : step (s.goto i (.readClock s.word)) (.call i false) = s.goto i (.exchangeStrong s.word t) := by
    simp only [step, callStep, St.goto, Function.update_self, ← ht, hother, if_false, Function.update_idem]
  have hthird : step (s.goto i (.exchangeStrong s.word t)) (.call i false) =
      (s.goto i (.exchangeStrong s.word t)).exchange i (t <<< seqBits) := by
    simp only [step, callStep, St.goto, Function.update_self, if_true]
  rw [run, List.foldl_cons, List.foldl_cons, List.foldl_cons, List.foldl_nil, hfirst, hsecond, hthird, St.exchange_pc hvalid]

/-- **A call returns** in three steps of its own, from every state in which the clock has left the second of the word. -/
theorem call_returns (hpc : s.pc i = .load) (hclock : s.word.toNat / 2 ^ 32 < s.clock.now) :
    ∃ k ≤ 3, ∃ id, (run s (List.replicate k (.call i false))).pc i = .returned id := by
  by_cases hroom : s.word >>> seqBits ≠ 0 ∧ (s.word + 1) >>> seqBits = s.word >>> seqBits
  · exact ⟨2, by decide, _, run_next hpc hroom.1 hroom.2⟩
  · refine ⟨3, le_rfl, _, run_roll hpc (not_and_or.1 hroom |>.imp not_not.1 id) ?_⟩
    rw [toNat_time]
    exact hclock.ne

example :
    let s := run (St.start ⟨5, by decide, by decide⟩) [.call 0 false, .call 1 false, .call 0 false, .call 1 false, .call 0 false,
      .call 1 false, .call 1 false, .call 1 true, .call 1 false, .call 1 false]
    s.pc 0 = .returned 0x500000000 ∧ s.pc 1 = .returned 0x500000001 := by decide +kernel

example :
    let full : St := { St.start ⟨6, by decide, by decide⟩ with word := 0x5ffffffff }
    let s := run full [.call 0 false, .call 1 false, .call 0 false, .call 0 false, .call 1 false, .call 1 false, .call 1 false,
      .call 1 false]
    s.pc 0 = .returned 0x600000000 ∧ s.pc 1 = .returned 0x600000001 := by decide +kernel

end AtFrame.TimestampId
