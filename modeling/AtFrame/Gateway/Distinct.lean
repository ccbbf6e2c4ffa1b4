/-
Which session an id belongs to, and what `reconnect` hands over.

Ids are numbers of `timestamp_id_allocator`, so that two sessions have the same one only behind a reconnect: the old one is
`reconnected` then and has no socket. `Core.Distinct` says this together with what it needs about the maps.

- `Walk.distinct`: the invariant, where the ids that were allocated are different;
- `Walk.orderly`: each `reconnect` that succeeds checked the session that it takes over, and takes over all of it;
- `run_reconnected`: both for every run.

Premise: the allocator does not give the same id twice (`Ids.TimestampId`: `allocate_increasing`). The secrets may be any, and so
may the ids that a client claims. Witness `run_reconnected_comeBack`: a client that is cut off comes back and takes its session
over.
-/
import AtFrame.Lib.Past
import AtFrame.Gateway.NullOwner

namespace AtFrame.Gateway

open AtFrame.Lib

/-- a session is active under one id, or it waits for a reconnect -/
structure Core.Parted (w : Core) : Prop where
  single : ∀ j k s, w.actived.lookup j = some s → w.actived.lookup k = some s → j = k
  apart : ∀ k s, w.reconnectCache.lookup k = some s → ∀ j, w.actived.lookup j ≠ some s

/-- `allocate` gives the ids, and an id belongs to one session that was not reconnected -/
structure Core.Distinct (allocate : ℕ → UInt64) (w : Core) : Prop extends w.Parted where
  ids : ∀ s, (w.sess s).id ≠ 0 → ∃ n < w.allocated, (w.sess s).id = allocate n
  unique : ∀ s t, (w.sess s).id = (w.sess t).id → (w.sess s).id ≠ 0 → (w.sess s).flags.reconnected = false →
    (w.sess t).flags.reconnected = false → s = t
  keys : ∀ k s, w.actived.lookup k = some s → k ≠ 0 → ∃ n < w.allocated, k = allocate n
  holder : ∀ k s, w.actived.lookup k = some s → k ≠ 0 → ∀ t, (w.sess t).id = k → t = s ∨ (w.sess t).flags.reconnected = true
  /-- a session that was reconnected is in no map -/
  gone : ∀ s, (w.sess s).flags.reconnected = true →
    (∀ k, w.actived.lookup k ≠ some s) ∧ ∀ k, w.reconnectCache.lookup k ≠ some s

variable {e : GwEnv} {P : Permit} {a : ℕ → UInt64} {S : Set ℕ} {w w' : World} {s : ℕ}

/-! ## Closings -/

/-- a session that closings put into the cache is not active behind them -/
theorem Shut.cached_out (h : Shut S w w') (hsingle : ∀ j k s, w.actived.lookup j = some s → w.actived.lookup k = some s → j = k)
    {k : UInt64} (hk : w'.reconnectCache.lookup k = some s) :
    w.reconnectCache.lookup k = some s ∨ ∀ j, w'.actived.lookup j ≠ some s := by
  obtain ⟨new, hnew⟩ := h.waiting
  rcases hnew.cached k s hk with hk | ⟨due, ht⟩
  · exact .inl hk
  · exact .inr (hnew.out hsingle _ ht)

theorem Core.Parted.fewer {w w' : Core} (h : w.Parted)
    (hactived : ∀ k s, w'.actived.lookup k = some s → w.actived.lookup k = some s)
    (hcached : ∀ k s, w'.reconnectCache.lookup k = some s → w.reconnectCache.lookup k = some s ∨
      ∀ j, w'.actived.lookup j ≠ some s) : w'.Parted where
  single j k s hj hk := h.single j k s (hactived j s hj) (hactived k s hk)
  apart k s hk j hj := by
    rcases hcached k s hk with hk | hout
    · exact h.apart k s hk j (hactived j s hj)
    · exact hout j hj

theorem Shut.parted (h : Shut S w w') (hw : w.Parted) : w'.Parted :=
  hw.fewer h.older.actived fun _ _ hk => h.cached_out hw.single hk

/-- nothing changes but what becomes of the sessions in the maps -/
theorem Core.Distinct.of_kept {w w' : Core} (h : w.Distinct a) (hid : ∀ s, (w'.sess s).id = (w.sess s).id)
    (hrec : ∀ s, (w'.sess s).flags.reconnected = (w.sess s).flags.reconnected) (halloc : w.allocated ≤ w'.allocated)
    (hactived : ∀ k s, w'.actived.lookup k = some s → w.actived.lookup k = some s)
    (hcached : ∀ k s, w'.reconnectCache.lookup k = some s → w.reconnectCache.lookup k = some s ∨
      (∃ j, w.actived.lookup j = some s) ∧ ∀ j, w'.actived.lookup j ≠ some s) : w'.Distinct a where
  toParted := h.toParted.fewer hactived fun k s hk => (hcached k s hk).imp_right And.right
  ids s hs := by
    rw [hid] at hs ⊢
    obtain ⟨n, hn, hns⟩ := h.ids s hs
    exact ⟨n, hn.trans_le halloc, hns⟩
  unique s t := by
    rw [hid, hid, hrec, hrec]
    exact h.unique s t
  keys k s hk hne := by
    obtain ⟨n, hn, hnk⟩ := h.keys k s (hactived k s hk) hne
    exact ⟨n, hn.trans_le halloc, hnk⟩
  holder k s hk hne t := by
    rw [hid, hrec]
    exact h.holder k s (hactived k s hk) hne t
  gone s hs := by
    rw [hrec] at hs
    refine ⟨fun k hk => (h.gone s hs).1 k (hactived k s hk), fun k hk => ?_⟩
    rcases hcached k s hk with hk | ⟨⟨j, hj⟩, -⟩
    · exact (h.gone s hs).2 k hk
    · exact (h.gone s hs).1 j hj

/-- a change of one session -/
theorem Core.Distinct.setSess (h : w.Distinct a) {x : Session} (hid : x.id = (w.sess s).id)
    (hrec : x.flags.reconnected = (w.sess s).flags.reconnected) : (w.setSess s x).Distinct a := by
  refine h.of_kept (fun t => ?_) (fun t => ?_) le_rfl (fun _ _ hk => hk) fun _ _ hk => .inl hk
  · by_cases hts : t = s
    · subst hts
      rw [World.setSess_sess, hid]
    · rw [World.setSess_sess_ne hts]
  · by_cases hts : t = s
    · subst hts
      rw [World.setSess_sess, hrec]
    · rw [World.setSess_sess_ne hts]

/-- the maps only lose entries -/
theorem Core.Distinct.fewer {w w' : Core} (h : w.Distinct a) (hsess : w'.sess = w.sess) (halloc : w'.allocated = w.allocated)
    (hactived : ∀ k s, w'.actived.lookup k = some s → w.actived.lookup k = some s)
    (hcached : ∀ k s, w'.reconnectCache.lookup k = some s → w.reconnectCache.lookup k = some s) : w'.Distinct a :=
  h.of_kept (fun _ => by rw [hsess]) (fun _ => by rw [hsess]) halloc.ge hactived fun k s hk => .inl (hcached k s hk)

theorem Core.Distinct.noticed (h : w.Distinct a) (s : ℕ) (body : SsBody) (len : ℕ) (ret : ℤ) :
    (w.noticed s body len ret).Distinct a := by
  have hset : (w.modSess s fun x => x.setLimit (x.limit.addRecv len)).Distinct a := h.setSess rfl rfl
  exact hset.fewer rfl rfl (fun _ _ hk => hk) fun _ _ hk => hk

theorem Shut.distinct (h : Shut S w w') (hw : w.Distinct a) : w'.Distinct a := by
  refine hw.of_kept (fun s => (h.kept s).id) (fun s => (h.kept s).reconnected) h.older.allocated.ge h.older.actived fun k s hk => ?_
  rcases h.cached_out hw.single hk with hk' | hout
  · exact .inl hk'
  · exact (h.older.cached k s hk).imp_right fun ⟨_, _, _, hj⟩ => ⟨hj, hout⟩

/-! ## Messages -/

/-- the session gets an id that nobody has -/
theorem Core.Distinct.startNew (h : w.Distinct e.allocate)
    (hinj : Set.InjOn e.allocate (Set.Iio (w.allocated + 1))) (router : UInt64) : (w.startNew e s router).Distinct e.allocate := by
  have hnew : ∀ {n}, n < w.allocated → e.allocate n ≠ e.allocate w.allocated := fun hn hsame =>
    hn.ne (hinj (Set.mem_Iio.2 (hn.trans (Nat.lt_succ_self _))) (Set.mem_Iio.2 (Nat.lt_succ_self _)) hsame)
  have hother : ∀ t, (w.sess t).id ≠ e.allocate w.allocated := fun t hid => by
    obtain ⟨n, hn, hnt⟩ := h.ids t (hid ▸ e.allocate_ne _)
    exact hnew hn (hnt.symm.trans hid)
  have hrec : ∀ t, ((w.startNew e s router).sess t).flags.reconnected = (w.sess t).flags.reconnected := fun t => by
    by_cases hts : t = s
    · subst hts
      rw [World.startNew_sess]
      rfl
    · rw [World.startNew_sess_ne e hts]
  have hself : ((w.startNew e s router).sess s).id = e.allocate w.allocated := congrArg Session.id (World.startNew_sess e s router w)
  have hsame : ∀ {t}, t ≠ s → ((w.startNew e s router).sess t).id = (w.sess t).id := fun hts =>
    congrArg Session.id (World.startNew_sess_ne e hts router w)
  refine ⟨⟨h.single, h.apart⟩, fun t ht => ?_, fun t u htu hne hrt hru => ?_, fun k t hk hne => ?_, fun k t hk hne u hu => ?_, fun t ht => ?_⟩
  · by_cases hts : t = s
    · exact ⟨w.allocated, Nat.lt_succ_self _, hts ▸ hself⟩
    · rw [hsame hts] at ht ⊢
      obtain ⟨n, hn, hnt⟩ := h.ids t ht
      exact ⟨n, hn.trans (Nat.lt_succ_self _), hnt⟩
  · rw [hrec] at hrt hru
    by_cases hts : t = s
    · by_cases hus : u = s
      · exact hts.trans hus.symm
      · rw [hts, hself, hsame hus] at htu
        exact absurd htu.symm (hother u)
    · by_cases hus : u = s
      · rw [hus, hself, hsame hts] at htu
        exact absurd htu (hother t)
      · rw [hsame hts, hsame hus] at htu
        rw [hsame hts] at hne
        exact h.unique t u htu hne hrt hru
  · obtain ⟨n, hn, hnk⟩ := h.keys k t hk hne
    exact ⟨n, hn.trans (Nat.lt_succ_self _), hnk⟩
  · rw [hrec]
    by_cases hus : u = s
    · obtain ⟨n, hn, hnk⟩ := h.keys k t hk hne
      rw [hus, hself] at hu
      exact absurd (hnk.symm.trans hu.symm) (hnew hn)
    · rw [hsame hus] at hu
      exact h.holder k t hk hne u hu
  · rw [hrec] at ht
    exact h.gone t ht

theorem lookup_enrolled {k : UInt64} {t : ℕ} (hk : (w.enrolled s).actived.lookup k = some t) :
    k = (w.sess s).id ∧ t = s ∨ k ≠ (w.sess s).id ∧ w.actived.lookup k = some t := by
  by_cases hid : k = (w.sess s).id
  · subst hid
    rw [World.enrolled, AList.lookup_insert] at hk
    cases hk
    exact .inl ⟨rfl, rfl⟩
  · exact .inr ⟨hid, (AList.lookup_insert_ne hid).symm.trans hk⟩

theorem Core.Parted.enrolled (h : w.Parted) (hs : s ∉ w.listed) : (w.enrolled s).Parted := by
  have hout : ∀ k, w.actived.lookup k ≠ some s := fun k hk => hs ⟨k, .inl hk⟩
  refine ⟨fun j k t hj hk => ?_, fun k t hk j hj => ?_⟩
  · rcases lookup_enrolled hj with ⟨rfl, rfl⟩ | ⟨-, hj⟩ <;> rcases lookup_enrolled hk with ⟨rfl, hts⟩ | ⟨-, hk⟩
    · rfl
    · exact absurd hk (hout k)
    · exact absurd (hts ▸ hj) (hout j)
    · exact h.single j k t hj hk
  · rcases lookup_enrolled hj with ⟨rfl, rfl⟩ | ⟨-, hj⟩
    · exact hs ⟨k, .inr hk⟩
    · exact h.apart k t hk j hj

/-- the end of `active_session` -/
theorem Core.Distinct.enrolled (h : w.Distinct a) (hrec : (w.sess s).flags.reconnected = false) (hs : s ∉ w.listed) :
    (w.enrolled s).Distinct a := by
  refine ⟨h.toParted.enrolled hs, h.ids, h.unique, fun k t hk hne => ?_, fun k t hk hne u hu => ?_, fun t ht =>
    ⟨fun k hk => ?_, (h.gone t ht).2⟩⟩
  · rcases lookup_enrolled hk with ⟨rfl, rfl⟩ | ⟨-, hk⟩
    · exact h.ids _ hne
    · exact h.keys k t hk hne
  · rcases lookup_enrolled hk with ⟨rfl, rfl⟩ | ⟨-, hk⟩
    · cases hru : (w.sess u).flags.reconnected with
      | true => exact .inr hru
      | false => exact .inl (h.unique u _ hu (hu ▸ hne) hru hrec)
    · exact h.holder k t hk hne u hu
  · rcases lookup_enrolled hk with ⟨rfl, rfl⟩ | ⟨-, hk⟩
    · exact Bool.false_ne_true (hrec.symm.trans ht)
    · exact (h.gone t ht).1 k hk

/-- the end of `reconnect`: the id moves to another session -/
theorem Core.Distinct.takenOver {old : ℕ} {oldId : UInt64} (h : w.Distinct a) (hsound : w.Sound) (halive : (w.sess s).Alive)
    (hlook : w.reconnectCache.lookup oldId = some old) (hrec : (w.sess old).flags.reconnected = false) :
    (w.takenOver s old oldId).Distinct a := by
  obtain ⟨-, -, hid, hlost⟩ := hsound.cached oldId old hlook
  have hne : old ≠ s := fun hos => Bool.false_ne_true (hlost.symm.trans (hos ▸ halive.1))
  have hnew : ((w.takenOver s old oldId).sess s).id = (w.sess old).id := by
    rw [World.takenOver_new hne]
    rfl
  have hsame : ∀ {t}, t ≠ s → ((w.takenOver s old oldId).sess t).id = (w.sess t).id := fun {t} hts => by
    by_cases hto : t = old
    · subst hto
      rw [World.takenOver_old hne]
      rfl
    · exact congrArg Session.id (World.takenOver_other hts hto)
  have hgone : ((w.takenOver s old oldId).sess old).flags.reconnected = true :=
    congrArg (fun x => x.flags.reconnected) (World.takenOver_old hne)
  have hrecs : ∀ {t}, t ≠ old → ((w.takenOver s old oldId).sess t).flags.reconnected = (w.sess t).flags.reconnected := fun {t} hto => by
    by_cases hts : t = s
    · subst hts
      exact congrArg (fun x => x.flags.reconnected) (World.takenOver_new hne)
    · exact congrArg (fun x => x.flags.reconnected) (World.takenOver_other hts hto)
  -- another session with the id was reconnected
  have hrival : ∀ t, t ≠ s → (w.sess t).id = (w.sess old).id → (w.sess old).id ≠ 0 →
      ((w.takenOver s old oldId).sess t).flags.reconnected = true := fun t hts htid hne0 => by
    by_cases hto : t = old
    · exact hto ▸ hgone
    · rw [hrecs hto]
      exact Bool.not_eq_false _ ▸ fun hrt => hto (h.unique t old htid (htid ▸ hne0) hrt hrec)
  have hparted : (w.takenOver s old oldId).Parted :=
    h.toParted.fewer (fun _ _ hk => hk) fun _ _ hk => .inl (lookup_of_erase hk).2
  refine ⟨hparted, fun t ht => ?_, fun t u htu hne0 hrt hru => ?_, h.keys, fun k t hk hne0 u hu => ?_, fun t ht => ?_⟩
  · by_cases hts : t = s
    · rw [hts, hnew] at ht ⊢
      exact h.ids old ht
    · rw [hsame hts] at ht ⊢
      exact h.ids t ht
  · by_cases hts : t = s <;> by_cases hus : u = s
    · exact hts.trans hus.symm
    · rw [hts, hnew, hsame hus] at htu
      rw [hts, hnew] at hne0
      exact absurd (hrival u hus htu.symm hne0) (by rw [hru]; exact Bool.false_ne_true)
    · rw [hus, hnew, hsame hts] at htu
      rw [hsame hts] at hne0
      exact absurd (hrival t hts htu (htu ▸ hne0)) (by rw [hrt]; exact Bool.false_ne_true)
    · have hto : t ≠ old := fun hto => Bool.false_ne_true (hrt.symm.trans (hto ▸ hgone))
      have huo : u ≠ old := fun huo => Bool.false_ne_true (hru.symm.trans (huo ▸ hgone))
      rw [hsame hts, hsame hus] at htu
      rw [hsame hts] at hne0
      rw [hrecs hto] at hrt
      rw [hrecs huo] at hru
      exact h.unique t u htu hne0 hrt hru
  · by_cases hus : u = s
    · -- no session is active under the id of one that is cached
      rw [hus, hnew] at hu
      rcases h.holder k t hk hne0 old hu with hot | hr
      · exact absurd (hot ▸ hk) (h.apart oldId old hlook k)
      · exact absurd (hrec.symm.trans hr) Bool.false_ne_true
    · rw [hsame hus] at hu
      by_cases huo : u = old
      · exact .inr (huo ▸ hgone)
      · rw [hrecs huo]
        exact h.holder k t hk hne0 u hu
  · by_cases hto : t = old
    · refine ⟨fun k => hto ▸ h.apart oldId old hlook k, fun k hk => (lookup_of_erase hk).1 ?_⟩
      rw [← (hsound.cached k t (lookup_of_erase hk).2).2.2.1, hto, hid]
    · rw [hrecs hto] at ht
      exact ⟨(h.gone t ht).1, fun k hk => (h.gone t ht).2 k (lookup_of_erase hk).2⟩

theorem Path.parted (h : Path e w w') (hw : w.Parted) : w'.Parted := by
  induction h with
  | refl w => exact hw
  | trans _ _ ih ih' => exact ih' (ih hw)
  | shut h | unheard _ _ h => exact h.parted (hw.fewer (fun _ _ hk => hk) fun _ _ hk => .inl hk)
  | @announce w w₁ s len hs _ _ _ h =>
    have h₁ : w₁.Parted := h.shut.parted (hw.fewer (fun _ _ hk => hk) fun _ _ hk => .inl hk)
    have hset : (w₁.modSess s (Session.setRegistered true)).Parted := h₁.fewer (fun _ _ hk => hk) fun _ _ hk => .inl hk
    exact hset.enrolled (hs.announced h.shut).unlisted
  | enroll hs => exact hw.enrolled hs.unlisted
  | resume => exact hw.fewer (fun _ _ hk => hk) fun _ _ hk => .inl (lookup_of_erase hk).2
  | _ => exact hw.fewer (fun _ _ hk => hk) fun _ _ hk => .inl hk

theorem Path.distinct (h : Path e w w') (hsound : w.Sound) (hw : w.Distinct e.allocate)
    (hinj : Set.InjOn e.allocate (Set.Iio w'.allocated)) : w'.Distinct e.allocate := by
  induction h with
  | refl w => exact hw
  | trans h h' ih ih' => exact ih' (h.sound hsound) (ih hsound hw (hinj.mono (Set.Iio_subset_Iio h'.later.allocated))) hinj
  | shut h => exact h.distinct hw
  | record | current | post => exact hw.fewer rfl rfl (fun _ _ hk => hk) fun _ _ hk => hk
  | object | done => exact hw.setSess rfl rfl
  | start router => exact hw.startNew hinj router
  | @announce w w₁ s len hs _ _ hrec h =>
    have hset : (w₁.modSess s (Session.setRegistered true)).Distinct e.allocate :=
      (h.shut.distinct (hw.noticed s _ len 0)).setSess rfl rfl
    refine hset.enrolled ?_ (hs.announced h.shut).unlisted
    rw [World.modSess_sess]
    exact ((World.kept_modSess (Session.kept_noticed len) w s s).trans (h.shut.kept s)).reconnected.trans hrec
  | unheard _ _ h => exact h.distinct (hw.noticed _ _ _ _)
  | enroll hs _ _ hrec => exact hw.enrolled hrec hs.unlisted
  | resume halive _ hlook hrec _ => exact (hw.takenOver hsound halive hlook hrec).fewer rfl rfl (fun _ _ hk => hk) fun _ _ hk => hk

/-! ## Runs -/

theorem Walk.allocated (h : Walk e P w w') : w.allocated ≤ w'.allocated := by
  induction h with
  | trans _ _ ih ih' => exact ih.trans ih'
  | path h => exact h.later.allocated
  | giveUp _ _ h _ | expire _ _ h => exact h.older.allocated.ge
  | _ => exact le_rfl

theorem Core.Distinct.accepted (h : w.Distinct a) (seed : ℕ) (fd : Bool) (peer : Peer) :
    (w.accepted e seed fd peer).Distinct a := by
  have hnew : (w.accepted e seed fd peer).sess w.count = Session.accepted e w.conf seed fd peer := World.joined_sess _
  have hsame : ∀ {t}, t ≠ w.count → (w.accepted e seed fd peer).sess t = w.sess t := fun ht => World.accepted_sess_ne ht seed fd peer
  -- the new session has no id and is in no map
  have hid : ∀ {t}, ((w.accepted e seed fd peer).sess t).id ≠ 0 → t ≠ w.count := fun ht htc => ht (by rw [htc, hnew]; rfl)
  refine ⟨⟨h.single, h.apart⟩, fun t ht => ?_, fun t u htu hne hrt hru => ?_, h.keys, fun k t hk hne u hu => ?_, fun t ht => ?_⟩
  · have htc := hid ht
    rw [hsame htc] at ht ⊢
    exact h.ids t ht
  · have htc := hid hne
    have huc := hid (htu ▸ hne)
    rw [hsame htc] at htu hne hrt
    rw [hsame huc] at htu hru
    exact h.unique t u htu hne hrt hru
  · have huc := hid (hu ▸ hne)
    rw [hsame huc] at hu ⊢
    exact h.holder k t hk hne u hu
  · by_cases htc : t = w.count
    · rw [htc, hnew] at ht
      exact nomatch ht
    · rw [hsame htc] at ht
      exact h.gone t ht

theorem Walk.parted (h : Walk e P w w') (hw : w.Parted) : w'.Parted := by
  induction h with
  | refl w => exact hw
  | trans _ _ ih ih' => exact ih' (ih hw)
  | path h => exact h.parted hw
  | giveUp _ _ h _ =>
    refine (h.parted (hw.fewer (fun _ _ hk => hk) fun _ _ hk => .inl hk)).fewer (fun _ _ hk => hk) fun _ _ hk => .inl hk
  | expire _ _ h =>
    refine (h.parted (hw.fewer (fun _ _ hk => hk) fun _ _ hk => .inl (lookup_of_erase hk).2)).fewer (fun _ _ hk => hk)
      fun _ _ hk => .inl hk
  | clearActived => exact hw.fewer (fun _ _ hk => SessionMap.empty_elim hk) fun _ _ hk => .inl hk
  | clearCache => exact hw.fewer (fun _ _ hk => hk) fun _ _ hk => SessionMap.empty_elim hk
  | _ => exact hw.fewer (fun _ _ hk => hk) fun _ _ hk => .inl hk

theorem Walk.distinct (h : Walk e P w w') (hsound : w.Sound) (hw : w.Distinct e.allocate)
    (hinj : Set.InjOn e.allocate (Set.Iio w'.allocated)) : w'.Distinct e.allocate := by
  induction h with
  | refl w => exact hw
  | trans h h' ih ih' => exact ih' (h.sound hsound) (ih hsound hw (hinj.mono (Set.Iio_subset_Iio h'.allocated))) hinj
  | path h => exact h.distinct hsound hw hinj
  | accept => exact hw.accepted _ _ _
  | @listen w s due _ _ =>
    have hset : (w.modSess s (Session.setReading true)).Distinct e.allocate := hw.setSess rfl rfl
    exact hset.fewer rfl rfl (fun _ _ hk => hk) fun _ _ hk => hk
  | stream | router => exact hw.setSess rfl rfl
  | @giveUp w w₁ s _ _ h _ =>
    have hlose : ((w.recorded (.allocRead s)).modSess s Session.loseFd).Distinct e.allocate :=
      Core.Distinct.setSess (w := w.recorded (.allocRead s)) hw rfl rfl
    exact (h.distinct hlose).setSess rfl rfl
  | @expire w w₁ t _ _ _ h =>
    have hdrop : ((w.recorded (.expireReconnect t.2)).dropCached (w.sess t.2).id).Distinct e.allocate :=
      hw.fewer rfl rfl (fun _ _ hk => hk) fun _ _ hk => (lookup_of_erase hk).2
    have hexpired : (w.expired t.2).Distinct e.allocate := hdrop.setSess rfl rfl
    exact (h.distinct hexpired).fewer rfl rfl (fun _ _ hk => hk) fun _ _ hk => hk
  | clearActived _ => exact hw.fewer rfl rfl (fun _ _ hk => SessionMap.empty_elim hk) fun _ _ hk => hk
  | clearCache _ => exact hw.fewer rfl rfl (fun _ _ hk => hk) fun _ _ hk => SessionMap.empty_elim hk
  | _ => exact hw.fewer rfl rfl (fun _ _ hk => hk) fun _ _ hk => hk

/-! ## What `reconnect` hands over -/

/-- the close of an active session leads to no other session -/
def Core.Lone (old : ℕ) (w : Core) : Prop :=
  ∀ k, w.actived.lookup k = some old → w.reconnectCache.lookup k = none → w.Scope {old}

theorem Core.Distinct.lone (h : w.Distinct a) (hsound : w.Sound) (old : ℕ) : w.Lone old := by
  intro k hk hfree y hy x hx
  rw [Set.mem_singleton_iff] at hy ⊢
  subst hy
  have hrec : (w.sess y).flags.reconnected = false := Bool.eq_false_iff.2 fun hr => (h.gone y hr).1 k hk
  by_cases hid : (w.sess y).id = 0
  · have hk0 : k = 0 := not_not.1 fun hne => ((hsound.actived k y hk).2.2 hne).2 hid
    rw [hid, ← hk0, hfree] at hx
    rcases hx with hx | hx
    · exact Option.some.inj (hx.symm.trans hk)
    · exact nomatch hx
  · rcases hx with hx | hx
    · rcases h.holder _ x hx hid y rfl with hyx | hr
      · exact hyx.symm
      · exact absurd (hrec.symm.trans hr) Bool.false_ne_true
    · have hxid := (hsound.cached _ x hx).2.2.1
      have hxrec : (w.sess x).flags.reconnected = false := Bool.eq_false_iff.2 fun hr => (h.gone x hr).2 _ hx
      exact h.unique x y hxid (hxid ▸ hid) hxrec hrec

/-- what a session `s` of `c` took over from the session `old` of `c₁`, which has no socket any more -/
structure TookOver (c₁ c : Core) (s old : ℕ) : Prop where
  lost : (c.sess old).flags.hasFd = false
  id : (c.sess s).id = (c₁.sess old).id
  router : (c.sess s).router = (c₁.sess old).router
  privateData : (c.sess s).privateData = (c₁.sess old).privateData
  limit : (c.sess s).limit =
    { (c₁.sess old).limit with updateHandshakeTimepoint := (c.sess s).limit.updateHandshakeTimepoint }
  registered : (c.sess s).flags.registered = (c₁.sess old).flags.registered

/-- a `reconnect` that succeeds: in that call `check_reconnect` returned true for the session that was taken over -/
def Justified (pre : List (Core × Step)) : Core × Step → Prop
  | (c, .reconnected s oldId) => ∃ pre₁ c₀ mid c₁ c₂ old,
      pre = pre₁ ++ (c₀, .reconnect s oldId) :: mid ++ [(c₁, .initReconnect s old)] ∧ (∀ x ∈ mid, ¬ x.2.IsReconnect) ∧
        (c₂, .checkReconnect s old true) ∈ mid ∧ (c₁.sess old).id = oldId ∧ TookOver c₁ c s old
  | _ => True

theorem World.takenOver_tookOver {old : ℕ} {oldId : UInt64} (hne : old ≠ s) (hlost : (w.sess old).flags.hasFd = false) :
    TookOver w.toCore (w.takenOver s old oldId).toCore s old := by
  have hold : ((w.takenOver s old oldId).sess old).flags.hasFd = false := by
    rw [World.takenOver_old hne]
    exact hlost
  refine ⟨hold, ?_, ?_, ?_, ?_, ?_⟩ <;> rw [World.takenOver_new hne] <;> rfl

structure World.Orderly (w : World) : Prop where
  lone : ∀ c s old ok, (c, Step.checkReconnect s old ok) ∈ w.history → c.Lone old
  reconnects : EachPast Justified w.history

theorem World.Orderly.of_history (h : w.Orderly) (hh : w'.history = w.history) : w'.Orderly := by
  refine ⟨?_, ?_⟩ <;> rw [hh]
  · exact h.lone
  · exact h.reconnects

/-- a step is recorded that is neither a check nor the end of a reconnect -/
theorem World.Orderly.snoc (h : w.Orderly) {x : Core × Step} (hx : ∀ s old ok, x.2 = .checkReconnect s old ok → x.1.Lone old)
    (hj : Justified w.history x) (hh : w'.history = w.history ++ [x]) : w'.Orderly := by
  refine ⟨fun c s old ok hc => ?_, ?_⟩
  · rw [hh] at hc
    rcases List.mem_append.1 hc with hc | hc
    · exact h.lone c s old ok hc
    · obtain rfl := List.mem_singleton.1 hc
      exact hx s old ok rfl
  · rw [hh, eachPast_snoc]
    exact ⟨h.reconnects, hj⟩

theorem Shut.orderly (h : Shut S w w') (hw : w.Orderly) : w'.Orderly := by
  obtain ⟨new, hnew, hrec⟩ := h.recorded
  refine ⟨fun c s old ok hc => ?_, ?_⟩
  · rw [hnew] at hc
    rcases List.mem_append.1 hc with hc | hc
    · exact hw.lone c s old ok hc
    · exact (hrec _ hc).1.elim
  · rw [hnew]
    refine hw.reconnects.append fun x hx pre => ?_
    obtain ⟨c, step⟩ := x
    cases step with
    | reconnected => exact (hrec _ hx).1.elim
    | _ => trivial

theorem World.Orderly.resume {old : ℕ} {oldId : UInt64} (h : w.Orderly) (hsound : w.Sound) (halive : (w.sess s).Alive)
    (hlook : w.reconnectCache.lookup oldId = some old) (hchecked : w.Checked s old oldId) :
    ((w.takenOver s old oldId).recorded (.reconnected s oldId)).Orderly := by
  obtain ⟨-, -, hid, hlost⟩ := hsound.cached oldId old hlook
  have hne : old ≠ s := fun hos => Bool.false_ne_true (hlost.symm.trans (hos ▸ halive.1))
  have hinit : (w.takenOver s old oldId).Orderly :=
    h.snoc (x := (w.toCore, .initReconnect s old)) (fun _ _ _ h => nomatch h) trivial rfl
  refine hinit.snoc (x := ((w.takenOver s old oldId).toCore, .reconnected s oldId)) (fun _ _ _ h => nomatch h) ?_ rfl
  obtain ⟨pre, c₀, mid, hmid, hno, c₂, old', hcheck, hsame⟩ := hchecked
  have hmem : (c₂, Step.checkReconnect s old' true) ∈ w.history := by
    rw [hmid]
    exact List.mem_append_right _ (List.mem_cons_of_mem _ hcheck)
  have hold : old' = old := by
    rcases hsame with hsame | ⟨hactived, hfree, hscope⟩
    · exact hsame
    · exact (hscope {old'} (h.lone _ _ _ _ hmem oldId hactived hfree) rfl).symm
  refine ⟨pre, c₀, mid, w.toCore, c₂, old, ?_, hno, hold ▸ hcheck, hid, World.takenOver_tookOver hne hlost⟩
  rw [← hmid]
  rfl

theorem Path.orderly (h : Path e w w') (hsound : w.Sound) (hw : w.Distinct e.allocate)
    (hinj : Set.InjOn e.allocate (Set.Iio w'.allocated)) (hord : w.Orderly) : w'.Orderly := by
  induction h with
  | refl w => exact hord
  | trans h h' ih ih' =>
    have hinj₁ := hinj.mono (Set.Iio_subset_Iio h'.later.allocated)
    exact ih' (h.sound hsound) (h.distinct hsound hw hinj₁) hinj (ih hsound hw hinj₁ hord)
  | shut h => exact h.orderly hord
  | @record w step hallow =>
    refine hord.snoc (x := (w.toCore, step)) (fun s old ok _ => hw.lone hsound old) ?_ rfl
    cases step with
    | reconnected => exact hallow.elim
    | _ => trivial
  | object | done | current | post | enroll => exact hord.of_history rfl
  | @start w s => exact hord.snoc (x := (w.toCore, .initNewSession s)) (fun _ _ _ h => nomatch h) trivial rfl
  | announce _ _ _ _ h => exact (h.shut.orderly (hord.of_history rfl)).of_history rfl
  | unheard _ _ h => exact h.orderly (hord.of_history rfl)
  | resume halive _ hlook _ hchecked => exact hord.resume hsound halive hlook hchecked

theorem Walk.orderly (h : Walk e P w w') (hsound : w.Sound) (hw : w.Distinct e.allocate)
    (hinj : Set.InjOn e.allocate (Set.Iio w'.allocated)) (hord : w.Orderly) : w'.Orderly := by
  induction h with
  | refl w => exact hord
  | trans h h' ih ih' =>
    have hinj₁ := hinj.mono (Set.Iio_subset_Iio h'.allocated)
    exact ih' (h.sound hsound) (h.distinct hsound hw hinj₁) hinj (ih hsound hw hinj₁ hord)
  | path h => exact h.orderly hsound hw hinj hord
  | @giveUp w w₁ s _ _ h _ =>
    have hstart : ((w.recorded (.allocRead s)).modSess s Session.loseFd).Orderly :=
      hord.snoc (x := (w.toCore, .allocRead s)) (fun _ _ _ h => nomatch h) trivial rfl
    exact (h.orderly hstart).of_history rfl
  | @expire w w₁ t _ _ _ h =>
    have hstart : (w.expired t.2).Orderly :=
      hord.snoc (x := (w.toCore, .expireReconnect t.2)) (fun _ _ _ h => nomatch h) trivial rfl
    exact (h.orderly hstart).of_history rfl
  | @tick w => exact hord.snoc (x := (w.toCore, .tick)) (fun _ _ _ h => nomatch h) trivial rfl
  | reset w => exact hord.snoc (x := (w.toCore, .reset)) (fun _ _ _ h => nomatch h) trivial rfl
  | @clearCache w => exact hord.snoc (x := (w.toCore, .cleared)) (fun _ _ _ h => nomatch h) trivial rfl
  | _ => exact hord.of_history rfl

theorem World.start_distinct (allocate : ℕ → UInt64) (conf : GwConf) (now : ℤ) (current : Option CryptGlobal) :
    (World.start conf now current).Distinct allocate := by
  exact ⟨⟨fun _ _ _ h => SessionMap.empty_elim h, fun _ _ h => SessionMap.empty_elim h⟩, fun _ h => absurd rfl h, fun _ _ _ h => absurd rfl h,
    fun _ _ h => SessionMap.empty_elim h, fun _ _ h => SessionMap.empty_elim h, fun _ h => absurd h Bool.false_ne_true⟩

/-- **One live connection for an id**, and `reconnect` moves an id only to a session that was checked against its last one. -/
theorem run_reconnected (e : GwEnv) (conf : GwConf) (now : ℤ) (current : Option CryptGlobal) (events : List GwEvent) {w : World}
    (hrun : exec (gwRun e events) (World.start conf now current) = (.ok (), w))
    (hfresh : Set.InjOn e.allocate (Set.Iio w.allocated)) :
    (∀ s t, (w.sess s).id = (w.sess t).id → (w.sess s).id ≠ 0 → (w.sess s).flags.hasFd = true →
      (w.sess t).flags.hasFd = true → s = t) ∧ EachPast Justified w.history := by
  have hstart := World.start_sound conf now current
  have hdistinct := World.start_distinct e.allocate conf now current
  have hwalk := (wp_ok (run_went e conf now current events) hrun).walk
  have hw := hwalk.distinct hstart hdistinct hfresh
  have hconnected : ∀ s, (w.sess s).flags.hasFd = true → (w.sess s).flags.reconnected = false := fun s hfd =>
    Bool.eq_false_iff.2 fun hrec => Bool.false_ne_true ((((hwalk.sound hstart).sess s).gone hrec).symm.trans hfd)
  refine ⟨fun s t hid hne hs ht => hw.unique s t hid hne (hconnected s hs) (hconnected t ht), ?_⟩
  refine (hwalk.orderly hstart hdistinct hfresh ⟨fun _ _ _ _ h => absurd h List.not_mem_nil, eachPast_nil⟩).reconnects


theorem run_reconnected_comeBack : EachPast Justified
    (exec (gwRun (scriptEnv [plainStartReq, plainReconnectReq] 2) (startOne ++ comeBack)) (World.start openConf 1500000000 none)).2.history :=
  (run_reconnected _ _ _ _ _ (exec_of_fst (by decide +kernel)) (scriptEnv_fresh _ _ (by decide +kernel))).2

end AtFrame.Gateway
