import Osns.Verification.Timers.Schedule

/-! Sums and differences of times, in nanoseconds. -/

namespace Osns

open SystemTime

def SystemTime.value (t : SystemTime) : ℤ := t.sec * systemTimeNsecMax + t.nsec

abbrev SystemTime.Normalised (t : SystemTime) : Prop := t.nsec < systemTimeNsecMax

def SystemTime.Is (t : SystemTime) (value : ℤ) : Prop := t.Normalised ∧ t.value = value

def TimeUnit.nsecs : TimeUnit → ℕ
  | .deci => 10 ^ 8
  | .centi => 10 ^ 7
  | .milli => 10 ^ 6
  | .micro => 10 ^ 3
  | .nano => 1
  | .zero => 10 ^ 9
  | .deca => 10 ^ 10
  | .hecto => 10 ^ 11
  | .kilo => 10 ^ 12
  | .mega => 10 ^ 15
  | .giga => 10 ^ 18

/-- The sums and differences are exact and normalised, and the comparison follows the exact values. -/
structure TimesRight (now t u : SystemTime) (what : TimeUnit) (count : ℕ) : Prop where
  add : (systemTimeAdd t what count).Is (t.value + (what.nsecs * count : ℕ))
  addTime : (systemTimeAddTime t u).Is (t.value + u.value)
  substractTime : (systemTimeSubstractTime t u).Is (t.value - u.value)
  expired : (getExpiredTimeSystemTime now t).Is (now.value - t.value)
  back : systemTimeSubstractTime (systemTimeAddTime t u) u = t
  earlier : 0 < systemTimeTestEarlier t u ↔ t.value < u.value
  later : systemTimeTestEarlier t u < 0 ↔ u.value < t.value

/-- What is added is below 2^32, and below a second the time has no nanoseconds of its own. -/
def TimeUnit.Exact (what : TimeUnit) (t : SystemTime) (count : ℕ) : Prop :=
  if what.nsecs < systemTimeNsecMax then t.nsec = 0 ∧ what.nsecs * count < 2 ^ 32
  else what.nsecs / systemTimeNsecMax * count < 2 ^ 32

instance (what : TimeUnit) (t : SystemTime) (count : ℕ) : Decidable (what.Exact t count) :=
  inferInstanceAs (Decidable (ite _ _ _))

variable {now t u : SystemTime} {what : TimeUnit} {count : ℕ}

theorem SystemTime.is_iff {value : ℤ} :
    t.Is value ↔ t.nsec < 1000000000 ∧ t.sec * 1000000000 + t.nsec = value := Iff.rfl

section

variable (ht : t.nsec < 1000000000)

include ht

theorem correctNsecCheckBound_is_iff (base : ℕ) :
    (correctNsecCheckBound t base count).Is (t.value + (base * count : ℕ)) ↔
      t.nsec = 0 ∧ base * count < 2 ^ 32 := by
  unfold correctNsecCheckBound
  generalize base * count = n
  generalize hsum : u32 (t.nsec + u32 n) = sum
  have hparts := Nat.div_add_mod sum systemTimeNsecMax
  simp only [is_iff, value, u32, systemTimeNsecMax] at *
  rw [Nat.mod_eq_of_lt (by omega : t.nsec + sum % 1000000000 < 2 ^ 32)]
  omega

theorem systemTimeAdd_is_iff (hcount : count < 2 ^ 32) :
    (systemTimeAdd t what count).Is (t.value + (what.nsecs * count : ℕ)) ↔ what.Exact t count := by
  cases what with
  | deci | centi | milli | micro | nano => exact correctNsecCheckBound_is_iff ht _
  | zero | deca | hecto | kilo | mega | giga =>
    simp [is_iff, value, systemTimeNsecMax, u32, systemTimeAdd, TimeUnit.nsecs,
      TimeUnit.Exact]
    omega

variable (hu : u.nsec < 1000000000)

include hu

theorem systemTimeAddTime_is_iff :
    (systemTimeAddTime t u).Is (t.value + u.value) ↔ t.nsec + u.nsec ≠ systemTimeNsecMax := by
  have hsum : u32 (t.nsec + u.nsec) = t.nsec + u.nsec := u32_of_lt (by omega)
  simp only [systemTimeAddTime, hsum, value, systemTimeNsecMax]
  split <;> rw [is_iff] <;> simp only <;> omega

theorem systemTimeSubstractTime_is : (systemTimeSubstractTime t u).Is (t.value - u.value) := by
  simp only [systemTimeSubstractTime, value, systemTimeNsecMax, u32, u32Sub]
  split <;> rw [is_iff] <;> simp only <;> omega

theorem getExpiredTimeSystemTime_is_iff :
    (getExpiredTimeSystemTime u t).Is (u.value - t.value) ↔
      (u.nsec < t.nsec → 2 * (t.nsec - u.nsec) = systemTimeNsecMax) := by
  simp only [getExpiredTimeSystemTime, value, systemTimeNsecMax]
  split <;> rw [is_iff] <;> simp only <;> omega

theorem systemTimeSubstractTime_addTime : systemTimeSubstractTime (systemTimeAddTime t u) u = t := by
  obtain ⟨sec, nsec⟩ := t
  have hnsec : nsec < 1000000000 := ht
  have hsum : u32 (nsec + u.nsec) = nsec + u.nsec := u32_of_lt (by omega)
  simp only [systemTimeAddTime, hsum, systemTimeNsecMax]
  split <;> simp only [systemTimeSubstractTime, systemTimeNsecMax, u32, u32Sub] <;> split <;>
    simp only [mk.injEq] <;> omega

theorem value_lt_iff : t.value < u.value ↔ t < u := by
  rw [lt_iff, value, value, systemTimeNsecMax]
  omega

end

/-- With normalised times a sum is right when nothing is lost in 32 bits and no nanoseconds are added
twice, the carry is not forgotten at the bound, and the time that has expired borrows nothing. -/
theorem timesRight_iff (now t u : SystemTime) (what : TimeUnit) (count : ℕ) (hnow : now.Normalised)
    (ht : t.Normalised) (hu : u.Normalised) (hcount : count < 2 ^ 32) :
    TimesRight now t u what count ↔ what.Exact t count ∧ t.nsec + u.nsec ≠ systemTimeNsecMax ∧
      (now.nsec < t.nsec → 2 * (t.nsec - now.nsec) = systemTimeNsecMax) := by
  rw [← systemTimeAdd_is_iff ht hcount, ← systemTimeAddTime_is_iff ht hu,
    ← getExpiredTimeSystemTime_is_iff ht hnow]
  refine ⟨fun h => ⟨h.add, h.addTime, h.expired⟩, fun ⟨hadd, haddTime, hexpired⟩ => ?_⟩
  exact ⟨hadd, haddTime, systemTimeSubstractTime_is ht hu, hexpired,
    systemTimeSubstractTime_addTime ht hu, systemTimeTestEarlier_pos.trans (value_lt_iff ht hu).symm,
    systemTimeTestEarlier_neg.trans (value_lt_iff hu ht).symm⟩

theorem timesRight_milli : TimesRight ⟨5, 7⟩ ⟨3, 0⟩ ⟨1, 5⟩ .milli 1500 :=
  (timesRight_iff _ _ _ _ _ (by decide) (by decide) (by decide) (by decide)).mpr (by decide)

/-- A nanosecond behind another makes three of them. -/
theorem timesRight_nano :
    systemTimeAdd ⟨0, 1⟩ .nano 1 = ⟨0, 3⟩ ∧ ¬ TimesRight ⟨5, 7⟩ ⟨0, 1⟩ ⟨1, 5⟩ .nano 1 := by
  refine ⟨rfl, fun h => absurd h.add.2 (by decide)⟩

end Osns
