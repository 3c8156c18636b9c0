import Mathlib.Order.Basic

/-! # Stable samples

A watch samples until enough of the latest samples are good and the same, or
until its time is up. It compares each sample with the one before it and counts;
what it counts is the length of a run in the history of the samples.
-/

namespace Stability

universe u

variable {α : Type u}

section Runs

variable (good : α → Bool) (sample : Nat → α)

/-- The latest samples up to a position are one good value. -/
def IsRun (n k : Nat) (a : α) : Prop :=
  n ≤ k + 1 ∧ good a = true ∧ ∀ i < n, sample (k - i) = a

/-- The first position at which such a run ends. -/
def FirstRun (n k : Nat) (a : α) : Prop :=
  IsRun good sample n k a ∧ ∀ j < k, ∀ b, ¬ IsRun good sample n j b

variable [DecidableEq α]

def runLength : Nat → Nat
  | 0 => if good (sample 0) then 1 else 0
  | k + 1 =>
    if good (sample (k + 1)) then
      if sample (k + 1) = sample k then runLength k + 1 else 1
    else 0

variable {good sample} {n k : Nat} {a : α}

omit [DecidableEq α] in
theorem IsRun.eq_sample (h : IsRun good sample n k a) (hn : 0 < n) : sample k = a :=
  h.2.2 0 hn

omit [DecidableEq α] in
theorem isRun_one : IsRun good sample 1 k (sample k) ↔ good (sample k) = true := by
  constructor
  · exact fun h => h.2.1
  · intro h
    refine ⟨by omega, h, fun i hi => ?_⟩
    obtain rfl : i = 0 := by omega
    rfl

omit [DecidableEq α] in
/-- A longer run is one that goes on. -/
theorem isRun_succ : IsRun good sample (n + 2) (k + 1) a ↔
    sample (k + 1) = a ∧ IsRun good sample (n + 1) k a := by
  constructor
  · rintro ⟨hle, hgood, hsame⟩
    refine ⟨hsame 0 (by omega), by omega, hgood, fun i hi => ?_⟩
    have hstep := hsame (i + 1) (by omega)
    rwa [Nat.add_sub_add_right] at hstep
  · rintro ⟨hlast, hle, hgood, hsame⟩
    refine ⟨by omega, hgood, fun i hi => ?_⟩
    cases i with
    | zero => exact hlast
    | succ i =>
      rw [Nat.add_sub_add_right]
      exact hsame i (by omega)

/-- The run at a position has at least a length exactly if it is a run of that length. -/
theorem le_runLength_iff : n + 1 ≤ runLength good sample k ↔
    IsRun good sample (n + 1) k (sample k) := by
  induction k generalizing n with
  | zero =>
    rw [runLength]
    cases n with
    | zero =>
      rw [isRun_one]
      split <;> simp_all
    | succ n =>
      refine iff_of_false ?_ fun h => absurd h.1 (by omega)
      split <;> omega
  | succ k ih =>
    rw [runLength]
    cases n with
    | zero =>
      rw [isRun_one]
      split
      · split <;> simp_all
      · simp_all
    | succ n =>
      rw [isRun_succ]
      split
      · rename_i hgood
        split
        · rename_i hsame
          rw [Nat.add_le_add_iff_right, ih, hsame]
          simp
        · rename_i hdiffers
          refine iff_of_false (by omega) fun h => hdiffers ?_
          exact (h.2.eq_sample (Nat.succ_pos n)).symm
      · rename_i hbad
        exact iff_of_false (by omega) fun h => hbad h.2.2.1

end Runs

section Watch

variable [DecidableEq α] (good : α → Bool) (fresh required : Nat) (sample : Nat → α)

/-- What a watch remembers: the sample before the latest one, and its count. -/
structure Watch (α : Type u) where
  previous : Option α
  stable : Nat

/-- A good sample which differs from the one before it starts the count anew. -/
def Watch.observe (w : Watch α) (latest : α) : Watch α where
  previous := some latest
  stable :=
    if good latest then (if some latest = w.previous then w.stable + 1 else fresh) else 0

def Watch.start : Watch α := ⟨none, 0⟩

def watchBefore : Nat → Watch α
  | 0 => .start
  | k + 1 => (watchBefore k).observe good fresh (sample k)

/-- The watch is satisfied with the sample at a position. -/
def Done (k : Nat) : Prop :=
  good (sample k) = true ∧ required ≤ (watchBefore good fresh sample (k + 1)).stable

instance (k : Nat) : Decidable (Done good fresh required sample k) := by
  unfold Done
  infer_instance

variable {good fresh required sample} {k : Nat}

theorem previous_watchBefore :
    (watchBefore good fresh sample (k + 1)).previous = some (sample k) := rfl

/-- The count is the length of the run, less one if a fresh value counts nothing. -/
theorem stable_watchBefore : (watchBefore good fresh sample (k + 1)).stable =
    if good (sample k) then runLength good sample k - 1 + fresh else 0 := by
  induction k with
  | zero =>
    rw [watchBefore, watchBefore, Watch.observe, runLength]
    split
    · simp [Watch.start]
    · rfl
  | succ k ih =>
    rw [watchBefore, Watch.observe, previous_watchBefore, runLength]
    by_cases hgood : good (sample (k + 1)) = true
    · rw [if_pos hgood, if_pos hgood, if_pos hgood]
      by_cases hsame : sample (k + 1) = sample k
      · have hbefore : good (sample k) = true := hsame ▸ hgood
        have hpos : 0 + 1 ≤ runLength good sample k := le_runLength_iff.mpr (isRun_one.mpr hbefore)
        rw [if_pos (congrArg some hsame), if_pos hsame, ih, if_pos hbefore]
        dsimp only
        omega
      · rw [if_neg (mt Option.some.inj hsame), if_neg hsame]
        dsimp only
        omega
    · rw [if_neg hgood, if_neg hgood]

/-- A watch is satisfied exactly at the end of a run which is longer by one if a fresh value counts
nothing. -/
theorem done_iff (hfresh : fresh ≤ 1) (hrequired : 0 < required) :
    Done good fresh required sample k ↔
      IsRun good sample (required + 1 - fresh) k (sample k) := by
  obtain ⟨n, hn⟩ : ∃ n, required + 1 - fresh = n + 1 := ⟨required - fresh, by omega⟩
  rw [Done, stable_watchBefore, hn, ← le_runLength_iff]
  constructor
  · rintro ⟨hgood, hle⟩
    rw [if_pos hgood] at hle
    have hpos : 0 + 1 ≤ runLength good sample k := le_runLength_iff.mpr (isRun_one.mpr hgood)
    omega
  · intro hle
    have hgood := (le_runLength_iff.mp hle).2.1
    rw [if_pos hgood]
    exact ⟨hgood, by omega⟩

/-- The first end of a run is the first position with which the watch is satisfied. -/
theorem firstRun_iff (hfresh : fresh ≤ 1) (hrequired : 0 < required) {a : α} :
    FirstRun good sample (required + 1 - fresh) k a ↔ Done good fresh required sample k ∧
      (∀ j < k, ¬ Done good fresh required sample j) ∧ a = sample k := by
  have hpos : 0 < required + 1 - fresh := by omega
  simp only [done_iff hfresh hrequired]
  constructor
  · rintro ⟨hrun, hnone⟩
    have hlast := hrun.eq_sample hpos
    exact ⟨hlast ▸ hrun, fun j hj => hnone j hj _, hlast.symm⟩
  · rintro ⟨hrun, hnone, rfl⟩
    refine ⟨hrun, fun j hj b hb => hnone j hj ?_⟩
    rw [hb.eq_sample hpos]
    exact hb

end Watch

section Loops

variable [DecidableEq α] (good : α → Bool) (fresh required : Nat) (sample : Nat → α)
  (inTime : Nat → Bool)

/-- Sample as long as there is time. The loop ends satisfied with a sample and its count, or without
time and with the latest sample, if there is one. -/
def watchUntil : Nat → Nat → Option α → Watch α → Option (Except (Option α) (α × Nat))
  | 0, _, _, _ => none
  | fuel + 1, i, latest, w =>
    if inTime i then
      let next := w.observe good fresh (sample i)
      if good (sample i) ∧ required ≤ next.stable then some (.ok (sample i, next.stable))
      else watchUntil fuel (i + 1) (some (sample i)) next
    else some (.error latest)

/-- Sample at least once, and again as long as there is time. The loop ends with the latest sample. -/
def watchLatest : Nat → Nat → Watch α → Option α
  | 0, _, _ => none
  | fuel + 1, i, w =>
    let next := w.observe good fresh (sample i)
    if good (sample i) ∧ required ≤ next.stable then some (sample i)
    else if inTime i then watchLatest fuel (i + 1) next
    else some (sample i)

def latestBefore : Nat → Option α
  | 0 => none
  | k + 1 => some (sample k)

variable {good fresh required sample inTime} {fuel i : Nat}

def countAt (good : α → Bool) (fresh : Nat) (sample : Nat → α) (k : Nat) : Nat :=
  (watchBefore good fresh sample (k + 1)).stable

theorem watchUntil_eq_some {r : Except (Option α) (α × Nat)} :
    watchUntil good fresh required sample inTime fuel i (latestBefore sample i)
      (watchBefore good fresh sample i) = some r ↔
    ∃ k, i ≤ k ∧ k < i + fuel ∧
      (∀ j, i ≤ j → j < k → inTime j = true ∧ ¬ Done good fresh required sample j) ∧
      ((inTime k = true ∧ Done good fresh required sample k ∧
          r = .ok (sample k, countAt good fresh sample k)) ∨
        (inTime k = false ∧ r = .error (latestBefore sample k))) := by
  induction fuel generalizing i with
  | zero =>
    constructor
    · exact fun h => nomatch h
    · rintro ⟨k, hle, hlt, -⟩
      omega
  | succ fuel ih =>
    rw [watchUntil]
    by_cases htime : inTime i = true
    · rw [if_pos htime]
      dsimp only
      by_cases hdone : Done good fresh required sample i
      · have hstop : good (sample i) = true ∧
            required ≤ ((watchBefore good fresh sample i).observe good fresh (sample i)).stable :=
          hdone
        rw [if_pos hstop]
        constructor
        · intro h
          exact ⟨i, Nat.le_refl _, by omega, fun j hj hj' => by omega,
            .inl ⟨htime, hdone, (Option.some.inj h).symm⟩⟩
        · rintro ⟨k, hle, -, hbefore, hend⟩
          obtain rfl : i = k := by
            by_contra hne
            exact (hbefore i (Nat.le_refl _) (by omega)).2 hdone
          obtain ⟨-, -, rfl⟩ | ⟨hout, -⟩ := hend
          · rfl
          · rw [htime] at hout
            cases hout
      · have hgo : ¬ (good (sample i) = true ∧
            required ≤ ((watchBefore good fresh sample i).observe good fresh (sample i)).stable) :=
          hdone
        rw [if_neg hgo]
        refine (@ih (i + 1)).trans ?_
        constructor
        · rintro ⟨k, hle, hlt, hbefore, hend⟩
          refine ⟨k, by omega, by omega, fun j hj hj' => ?_, hend⟩
          obtain rfl | hj := Nat.eq_or_lt_of_le hj
          · exact ⟨htime, hdone⟩
          · exact hbefore j hj hj'
        · rintro ⟨k, hle, hlt, hbefore, hend⟩
          have hne : i ≠ k := by
            rintro rfl
            obtain ⟨-, hdone', -⟩ | ⟨hout, -⟩ := hend
            · exact hdone hdone'
            · rw [htime] at hout
              cases hout
          exact ⟨k, by omega, by omega, fun j hj hj' => hbefore j (by omega) hj', hend⟩
    · rw [if_neg htime]
      have hout : inTime i = false := Bool.eq_false_iff.mpr htime
      constructor
      · intro h
        exact ⟨i, Nat.le_refl _, by omega, fun j hj hj' => by omega,
          .inr ⟨hout, (Option.some.inj h).symm⟩⟩
      · rintro ⟨k, hle, -, hbefore, hend⟩
        obtain rfl : i = k := by
          by_contra hne
          exact htime (hbefore i (Nat.le_refl _) (by omega)).1
        obtain ⟨hin, -, -⟩ | ⟨-, rfl⟩ := hend
        · exact absurd hin htime
        · rfl

theorem watchLatest_eq_some {a : α} :
    watchLatest good fresh required sample inTime fuel i (watchBefore good fresh sample i) = some a ↔
    ∃ k, i ≤ k ∧ k < i + fuel ∧
      (∀ j, i ≤ j → j < k → inTime j = true ∧ ¬ Done good fresh required sample j) ∧
      (Done good fresh required sample k ∨ inTime k = false) ∧ a = sample k := by
  induction fuel generalizing i with
  | zero =>
    constructor
    · exact fun h => nomatch h
    · rintro ⟨k, hle, hlt, -⟩
      omega
  | succ fuel ih =>
    rw [watchLatest]
    -- The loop ends here if it is satisfied or has no time left.
    have hends : ∀ hend : Done good fresh required sample i ∨ inTime i = false,
        some (sample i) = some a ↔ ∃ k, i ≤ k ∧ k < i + (fuel + 1) ∧
          (∀ j, i ≤ j → j < k → inTime j = true ∧ ¬ Done good fresh required sample j) ∧
          (Done good fresh required sample k ∨ inTime k = false) ∧ a = sample k := by
      intro hend
      constructor
      · intro h
        exact ⟨i, Nat.le_refl _, by omega, fun j hj hj' => by omega, hend, (Option.some.inj h).symm⟩
      · rintro ⟨k, hle, -, hbefore, -, rfl⟩
        obtain rfl : i = k := by
          by_contra hne
          obtain ⟨hin, hnot⟩ := hbefore i (Nat.le_refl _) (by omega)
          obtain hdone | hout := hend
          · exact hnot hdone
          · rw [hin] at hout
            cases hout
        rfl
    by_cases hdone : Done good fresh required sample i
    · have hstop : good (sample i) = true ∧
          required ≤ ((watchBefore good fresh sample i).observe good fresh (sample i)).stable :=
        hdone
      rw [if_pos hstop]
      exact hends (.inl hdone)
    · have hgo : ¬ (good (sample i) = true ∧
          required ≤ ((watchBefore good fresh sample i).observe good fresh (sample i)).stable) :=
        hdone
      rw [if_neg hgo]
      by_cases htime : inTime i = true
      · rw [if_pos htime]
        refine (@ih (i + 1)).trans ?_
        constructor
        · rintro ⟨k, hle, hlt, hbefore, hend⟩
          refine ⟨k, by omega, by omega, fun j hj hj' => ?_, hend⟩
          obtain rfl | hj := Nat.eq_or_lt_of_le hj
          · exact ⟨htime, hdone⟩
          · exact hbefore j hj hj'
        · rintro ⟨k, hle, hlt, hbefore, hend, rfl⟩
          have hne : i ≠ k := by
            rintro rfl
            obtain hdone' | hout := hend
            · exact hdone hdone'
            · rw [htime] at hout
              cases hout
          exact ⟨k, by omega, by omega, fun j hj hj' => hbefore j (by omega) hj', hend, rfl⟩
      · rw [if_neg htime]
        exact hends (.inr (Bool.eq_false_iff.mpr htime))

end Loops

section Results

variable [DecidableEq α] {good : α → Bool} {fresh required : Nat} {sample : Nat → α}
  {inTime : Nat → Bool} {a : α}

/-- The first time that a watch which starts from nothing is satisfied its count is just enough. -/
theorem countAt_of_first (hrequired : 0 < required) {k : Nat}
    (hdone : Done good 0 required sample k) (hfirst : ∀ j < k, ¬ Done good 0 required sample j) :
    countAt good 0 sample k = required := by
  have hle := hdone.2
  rw [countAt]
  cases k with
  | zero =>
    rw [stable_watchBefore, runLength] at hle ⊢
    rw [if_pos hdone.1, if_pos hdone.1] at hle ⊢
    omega
  | succ k =>
    have hstep : (watchBefore good 0 sample (k + 1 + 1)).stable =
        if good (sample (k + 1)) then
          (if some (sample (k + 1)) = some (sample k) then
            (watchBefore good 0 sample (k + 1)).stable + 1 else 0)
        else 0 := rfl
    rw [hstep, if_pos hdone.1] at hle ⊢
    by_cases hsame : some (sample (k + 1)) = some (sample k)
    · rw [if_pos hsame] at hle ⊢
      have hgood : good (sample k) = true := Option.some.inj hsame ▸ hdone.1
      have hbefore : ¬ required ≤ (watchBefore good 0 sample (k + 1)).stable := fun hlt =>
        hfirst k (Nat.lt_succ_self k) ⟨hgood, hlt⟩
      omega
    · rw [if_neg hsame] at hle
      omega

/-- The loop returns exactly the value of the first run which ends in time. -/
theorem watchUntil_ok_iff (hfresh : fresh ≤ 1) (hrequired : 0 < required) {n : Nat} :
    (∃ fuel, watchUntil good fresh required sample inTime fuel 0 none .start = some (.ok (a, n))) ↔
    ∃ k, FirstRun good sample (required + 1 - fresh) k a ∧ (∀ j ≤ k, inTime j = true) ∧
      n = countAt good fresh sample k := by
  have hspec := fun fuel => @watchUntil_eq_some _ _ good fresh required sample inTime fuel 0
    (.ok (a, n))
  constructor
  · rintro ⟨fuel, h⟩
    obtain ⟨k, -, -, hbefore, ⟨htime, hdone, hresult⟩ | ⟨-, hresult⟩⟩ := (hspec fuel).mp h
    · obtain ⟨ha, hn⟩ := Prod.mk.inj (Except.ok.inj hresult)
      refine ⟨k, (firstRun_iff hfresh hrequired).mpr
        ⟨hdone, fun j hj => (hbefore j (Nat.zero_le j) hj).2, ha⟩, fun j hj => ?_, hn⟩
      obtain rfl | hj := Nat.eq_or_lt_of_le hj
      · exact htime
      · exact (hbefore j (Nat.zero_le j) hj).1
    · cases hresult
  · rintro ⟨k, hrun, htime, rfl⟩
    obtain ⟨hdone, hfirst, rfl⟩ := (firstRun_iff hfresh hrequired).mp hrun
    exact ⟨k + 1, (hspec (k + 1)).mpr ⟨k, Nat.zero_le k, by omega,
      fun j _ hj => ⟨htime j (Nat.le_of_lt hj), hfirst j hj⟩, .inl ⟨htime k (Nat.le_refl k), hdone, rfl⟩⟩⟩

/-- Without a run in time it ends with the latest sample before the time was up. -/
theorem watchUntil_error_iff (hfresh : fresh ≤ 1) (hrequired : 0 < required) {latest : Option α} :
    (∃ fuel, watchUntil good fresh required sample inTime fuel 0 none .start =
      some (.error latest)) ↔
    ∃ k, inTime k = false ∧ (∀ j < k, inTime j = true) ∧
      (∀ j < k, ∀ b, ¬ IsRun good sample (required + 1 - fresh) j b) ∧
      latest = latestBefore sample k := by
  have hpos : 0 < required + 1 - fresh := by omega
  have hspec := fun fuel => @watchUntil_eq_some _ _ good fresh required sample inTime fuel 0
    (.error latest)
  simp only [done_iff hfresh hrequired] at hspec
  constructor
  · rintro ⟨fuel, h⟩
    obtain ⟨k, -, -, hbefore, ⟨-, -, hresult⟩ | ⟨hout, hresult⟩⟩ := (hspec fuel).mp h
    · cases hresult
    · refine ⟨k, hout, fun j hj => (hbefore j (Nat.zero_le j) hj).1, fun j hj b hb => ?_,
        Except.error.inj hresult⟩
      refine (hbefore j (Nat.zero_le j) hj).2 ?_
      rw [hb.eq_sample hpos]
      exact hb
  · rintro ⟨k, hout, htime, hnone, rfl⟩
    exact ⟨k + 1, (hspec (k + 1)).mpr ⟨k, Nat.zero_le k, by omega,
      fun j _ hj => ⟨htime j hj, hnone j hj _⟩, .inr ⟨hout, rfl⟩⟩⟩

/-- The other loop returns the value of the first such run, or the latest sample. -/
theorem watchLatest_iff (hfresh : fresh ≤ 1) (hrequired : 0 < required) :
    (∃ fuel, watchLatest good fresh required sample inTime fuel 0 .start = some a) ↔
    (∃ k, FirstRun good sample (required + 1 - fresh) k a ∧ ∀ j < k, inTime j = true) ∨
    ∃ k, inTime k = false ∧ (∀ j < k, inTime j = true) ∧
      (∀ j ≤ k, ∀ b, ¬ IsRun good sample (required + 1 - fresh) j b) ∧ a = sample k := by
  have hpos : 0 < required + 1 - fresh := by omega
  have hspec := fun fuel => @watchLatest_eq_some _ _ good fresh required sample inTime fuel 0 a
  constructor
  · rintro ⟨fuel, h⟩
    obtain ⟨k, -, -, hbefore, hend, ha⟩ := (hspec fuel).mp h
    by_cases hdone : Done good fresh required sample k
    · exact .inl ⟨k, (firstRun_iff hfresh hrequired).mpr
        ⟨hdone, fun j hj => (hbefore j (Nat.zero_le j) hj).2, ha⟩,
        fun j hj => (hbefore j (Nat.zero_le j) hj).1⟩
    · refine .inr ⟨k, hend.resolve_left hdone, fun j hj => (hbefore j (Nat.zero_le j) hj).1,
        fun j hj b hb => ?_, ha⟩
      have hrun : Done good fresh required sample j := by
        rw [done_iff hfresh hrequired, hb.eq_sample hpos]
        exact hb
      obtain rfl | hj := Nat.eq_or_lt_of_le hj
      · exact hdone hrun
      · exact (hbefore j (Nat.zero_le j) hj).2 hrun
  · rintro (⟨k, hrun, htime⟩ | ⟨k, hout, htime, hnone, rfl⟩)
    · obtain ⟨hdone, hfirst, rfl⟩ := (firstRun_iff hfresh hrequired).mp hrun
      exact ⟨k + 1, (hspec (k + 1)).mpr ⟨k, Nat.zero_le k, by omega,
        fun j _ hj => ⟨htime j hj, hfirst j hj⟩, .inl hdone, rfl⟩⟩
    · refine ⟨k + 1, (hspec (k + 1)).mpr ⟨k, Nat.zero_le k, by omega,
        fun j _ hj => ⟨htime j hj, fun hdone => ?_⟩, .inr hout, rfl⟩⟩
      exact hnone j (Nat.le_of_lt hj) _ ((done_iff hfresh hrequired).mp hdone)

end Results

end Stability
