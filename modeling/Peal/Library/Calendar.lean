import Mathlib.Tactic

namespace Peal.Calendar

/-! # The Gregorian calendar, by counting days -/

def isLeap (y : Nat) : Bool := y % 4 = 0 && (y % 100 ≠ 0 || y % 400 = 0)

def yearLength (y : Nat) : Nat := if isLeap y then 366 else 365

def monthLength (y m : Nat) : Nat :=
  if m = 2 then (if isLeap y then 29 else 28) else if m = 4 ∨ m = 6 ∨ m = 9 ∨ m = 11 then 30 else 31

def beforeYear : Nat → Nat
  | 0 => 0
  | y + 1 => beforeYear y + yearLength y

def beforeMonth (y : Nat) : Nat → Nat
  | 0 => 0
  | 1 => 0
  | m + 2 => beforeMonth y (m + 1) + monthLength y (m + 1)

/-- Days since the first of January of year 0. -/
def dayNumber (y m d : Nat) : Nat := beforeYear y + beforeMonth y m + (d - 1)

/-- The day is one the calendar has. -/
def IsDate (y m d : Nat) : Prop := (1 ≤ m ∧ m ≤ 12) ∧ 1 ≤ d ∧ d ≤ monthLength y m

/-- Unix seconds. -/
def instant (y m d hour minute second : Nat) : Int :=
  ((dayNumber y m d : Int) - dayNumber 1970 1 1) * 86400 + hour * 3600 + minute * 60 + second

/-! ### Days from a date, in eras of 400 years -/

/-- Years that begin in March make the leap day the last of its year. -/
def daysFromCivil (y m d : Int) : Int :=
  let ya := if m ≤ 2 then y - 1 else y
  let era := (if ya ≥ 0 then ya else ya - 399).tdiv 400
  let yoe := ya - era * 400
  let doy := (153 * (if m > 2 then m - 3 else m + 9) + 2).tdiv 5 + d - 1
  let doe := yoe * 365 + yoe.tdiv 4 - yoe.tdiv 100 + doy
  era * 146097 + doe - 719468

lemma beforeYear_eq (y : Nat) : beforeYear y + (y + 99) / 100 = 365 * y + (y + 3) / 4 + (y + 399) / 400 := by
  induction y with
  | zero => rfl
  | succ y ih =>
    have hlength : yearLength y + (y + 100) / 100 - (y + 99) / 100 =
        365 + (y + 4) / 4 - (y + 3) / 4 + ((y + 400) / 400 - (y + 399) / 400) := by
      simp only [yearLength, isLeap, Bool.and_eq_true, Bool.or_eq_true, decide_eq_true_eq]
      split_ifs <;> omega
    rw [beforeYear]
    omega

lemma era_eq (ya : Int) : (if ya ≥ 0 then ya else ya - 399).tdiv 400 = ya / 400 := by
  split_ifs with h
  · exact Int.tdiv_eq_ediv_of_nonneg h
  · have hsign : Int.sign 400 = 1 := rfl
    rw [Int.tdiv_eq_ediv, hsign]
    omega

lemma daysFromCivil_year {y m d ya doy : Int} (hya : (if m ≤ 2 then y - 1 else y) = ya)
    (hdoy : (153 * (if m > 2 then m - 3 else m + 9) + 2).tdiv 5 = doy) :
    daysFromCivil y m d = 365 * ya + ya / 4 - ya / 100 + ya / 400 + doy + d - 1 - 719468 := by
  unfold daysFromCivil
  dsimp only
  rw [hya, hdoy, era_eq, Int.tdiv_eq_ediv_of_nonneg (by omega), Int.tdiv_eq_ediv_of_nonneg (by omega)]
  omega

lemma february_eq (y : Nat) : (if isLeap y then 29 else 28) + (y + 3) / 4 + (y + 399) / 400 + y / 100 =
    29 + (y + 99) / 100 + y / 4 + y / 400 := by
  simp only [isLeap, Bool.and_eq_true, Bool.or_eq_true, decide_eq_true_eq]
  split_ifs <;> omega

lemma beforeMonth_eq {y m : Nat} (hm : 3 ≤ m ∧ m ≤ 12) :
    beforeMonth y m = 31 + (if isLeap y then 29 else 28) + (153 * (m - 3) + 2) / 5 := by
  obtain ⟨hlow, hhigh⟩ := hm
  interval_cases m <;> simp [beforeMonth, monthLength]

lemma epoch_eq : dayNumber 1970 1 1 = 719528 := by decide +kernel

lemma daysFromCivil_late {y m d : Nat} (hm : 3 ≤ m ∧ m ≤ 12) (hd : 1 ≤ d) :
    daysFromCivil y m d = (dayNumber y m d : Int) - dayNumber 1970 1 1 := by
  obtain ⟨k, rfl⟩ : ∃ k, m = k + 3 := ⟨m - 3, by omega⟩
  have hya : (if ((k + 3 : Nat) : Int) ≤ 2 then (y : Int) - 1 else y) = y := if_neg (by omega)
  have hdoy : (153 * (if ((k + 3 : Nat) : Int) > 2 then ((k + 3 : Nat) : Int) - 3 else (k + 3 : Nat) + 9) + 2).tdiv 5 =
      ((153 * k + 2) / 5 : Nat) := by
    rw [if_pos (by omega), Int.tdiv_eq_ediv_of_nonneg (by omega)]
    push_cast
    congr 2
    ring
  rw [epoch_eq, dayNumber, daysFromCivil_year hya hdoy, beforeMonth_eq hm, Nat.add_sub_cancel]
  have hyear := beforeYear_eq y
  have hleap := february_eq y
  generalize (153 * k + 2) / 5 = doy
  generalize (if isLeap y then 29 else 28 : Nat) = february at hleap ⊢
  -- linear in the quotients of the year
  zify at hyear hleap
  push_cast [Nat.cast_sub hd]
  linarith

lemma daysFromCivil_early {y m d : Nat} (hm : m = 1 ∨ m = 2) (hd : 1 ≤ d) :
    daysFromCivil y m d = (dayNumber y m d : Int) - dayNumber 1970 1 1 := by
  have hyear := beforeYear_eq y
  rw [epoch_eq, dayNumber]
  rcases hm with rfl | rfl
  · rw [daysFromCivil_year (show _ = (y : Int) - 1 from rfl) (show _ = (306 : Int) from rfl), beforeMonth]
    omega
  · rw [daysFromCivil_year (show _ = (y : Int) - 1 from rfl) (show _ = (337 : Int) from rfl), show beforeMonth y 2 = 31 from rfl]
    omega

theorem daysFromCivil_eq {y m d : Nat} (hm : 1 ≤ m ∧ m ≤ 12) (hd : 1 ≤ d) :
    daysFromCivil y m d = (dayNumber y m d : Int) - dayNumber 1970 1 1 := by
  by_cases hearly : m ≤ 2
  · exact daysFromCivil_early (by omega) hd
  · exact daysFromCivil_late (by omega) hd

/-! ### The date of a day -/

/-- The first day of a year of an era, whose years begin in March. -/
def yearStart (k : Nat) : Nat := 365 * k + k / 4 - k / 100 + k / 400

/-- A day of an era, its leap days taken out. -/
def unleaped (doe : Nat) : Nat := doe - doe / 1460 + doe / 36524 - doe / 146096

lemma unleaped_mono : Monotone unleaped := by
  refine monotone_nat_of_le_succ fun doe => ?_
  unfold unleaped
  omega

lemma unleaped_bounds : ∀ k < 400, unleaped (yearStart k) / 365 = k ∧ unleaped (yearStart (k + 1) - 1) / 365 = k := by
  decide +kernel

lemma yearStart_mono : Monotone yearStart := by
  refine monotone_nat_of_le_succ fun k => ?_
  unfold yearStart
  omega

lemma yearStart_succ (k : Nat) : yearStart (k + 1) ≤ yearStart k + 366 := by
  unfold yearStart
  omega

lemma yearStart_le {doe k : Nat} (hdoe : doe < 146097) (hk : unleaped doe / 365 = k) :
    yearStart k ≤ doe ∧ doe < yearStart (k + 1) ∧ k < 400 := by
  have hlast : unleaped doe ≤ unleaped 146096 := unleaped_mono (by omega)
  have hbound : unleaped 146096 = 145999 := by decide +kernel
  have hlt : k < 400 := by omega
  refine ⟨?_, ?_, hlt⟩
  · by_contra hlow
    have hpos : k ≠ 0 := by
      rintro rfl
      exact hlow (Nat.zero_le _)
    obtain ⟨j, rfl⟩ : ∃ j, k = j + 1 := ⟨k - 1, by omega⟩
    have hprev := (unleaped_bounds j (by omega)).2
    have hle : unleaped doe ≤ unleaped (yearStart (j + 1) - 1) := unleaped_mono (by omega)
    have hdiv := Nat.div_le_div_right (c := 365) hle
    omega
  · by_contra hhigh
    by_cases hend : k + 1 < 400
    · have hnext := (unleaped_bounds (k + 1) hend).1
      have hdiv := Nat.div_le_div_right (c := 365) (unleaped_mono (not_lt.mp hhigh))
      omega
    · have htotal : yearStart (k + 1) = 146097 := by
        obtain rfl : k = 399 := by omega
        decide +kernel
      omega

/-- Year, month and day. -/
def civilFromDays (days : Int) : Int × Int × Int :=
  let z := days + 719468
  let era := (if 0 ≤ z then z else z - 146096).tdiv 146097
  let doe := z - era * 146097
  let yoe := (doe - doe.tdiv 1460 + doe.tdiv 36524 - doe.tdiv 146096).tdiv 365
  let doy := doe - (365 * yoe + yoe.tdiv 4 - yoe.tdiv 100)
  let mp := (5 * doy + 2).tdiv 153
  let d := doy - (153 * mp + 2).tdiv 5 + 1
  let m := if mp < 10 then mp + 3 else mp - 9
  (if m ≤ 2 then yoe + era * 400 + 1 else yoe + era * 400, m, d)

lemma wholeEra_eq (z : Int) : (if 0 ≤ z then z else z - 146096).tdiv 146097 = z / 146097 := by
  split_ifs with h
  · exact Int.tdiv_eq_ediv_of_nonneg h
  · have hsign : Int.sign 146097 = 1 := rfl
    rw [Int.tdiv_eq_ediv, hsign]
    omega

lemma yearOfEra_eq (n : Nat) :
    ((n : Int) - (n : Int).tdiv 1460 + (n : Int).tdiv 36524 - (n : Int).tdiv 146096).tdiv 365 =
      (unleaped n / 365 : Nat) := by
  have hsum : (n : Int) - (n : Int).tdiv 1460 + (n : Int).tdiv 36524 - (n : Int).tdiv 146096 = (unleaped n : Nat) := by
    simp only [Int.tdiv_eq_ediv_of_nonneg (Int.natCast_nonneg n), unleaped]
    omega
  rw [hsum, Int.tdiv_eq_ediv_of_nonneg (Int.natCast_nonneg _)]
  rfl

lemma civilFromDays_eq (days : Int) : ∃ (era : Int) (k doy mp : Nat), k < 400 ∧ doy < 366 ∧ mp = (5 * doy + 2) / 153 ∧
    days + 719468 = era * 146097 + yearStart k + doy ∧
    civilFromDays days = (if mp < 10 then k + era * 400 else k + era * 400 + 1, if mp < 10 then (mp : Int) + 3 else mp - 9,
      (doy : Int) - ((153 * mp + 2) / 5 : Nat) + 1) := by
  obtain ⟨n, hn⟩ := Int.eq_ofNat_of_zero_le (show 0 ≤ (days + 719468) % 146097 by omega)
  have hlt : n < 146097 := by omega
  obtain ⟨hlow, hhigh, hk⟩ := yearStart_le hlt rfl
  generalize hkdef : unleaped n / 365 = k at hlow hhigh hk
  have hdoe : days + 719468 - (days + 719468) / 146097 * 146097 = n := by omega
  have hdoy : (n : Int) - (365 * (k : Int) + (k : Int).tdiv 4 - (k : Int).tdiv 100) = (n - yearStart k : Nat) := by
    rw [Int.tdiv_eq_ediv_of_nonneg (Int.natCast_nonneg k), Int.tdiv_eq_ediv_of_nonneg (Int.natCast_nonneg k)]
    unfold yearStart at hlow ⊢
    omega
  have hshort : n - yearStart k < 366 := by
    have hnext := yearStart_succ k
    omega
  generalize hdoyDef : n - yearStart k = doy at hdoy hshort
  refine ⟨(days + 719468) / 146097, k, doy, (5 * doy + 2) / 153, hk, hshort, rfl, by omega, ?_⟩
  have hmp : (5 * (doy : Int) + 2).tdiv 153 = ((5 * doy + 2) / 153 : Nat) := by
    rw [Int.tdiv_eq_ediv_of_nonneg (by omega)]
    rfl
  unfold civilFromDays
  dsimp only
  rw [wholeEra_eq, hdoe, yearOfEra_eq, hkdef, hdoy, hmp]
  have hlast : (5 * doy + 2) / 153 ≤ 11 := by omega
  generalize (5 * doy + 2) / 153 = mp at hlast ⊢
  have hstart : (153 * (mp : Int) + 2).tdiv 5 = ((153 * mp + 2) / 5 : Nat) := by
    rw [Int.tdiv_eq_ediv_of_nonneg (by omega)]
    rfl
  rw [hstart]
  by_cases hearly : mp < 10
  · have hcast : (mp : Int) < 10 := by exact_mod_cast hearly
    rw [if_pos hearly, if_pos hearly, if_pos hcast, if_neg (by omega)]
  · have hcast : ¬(mp : Int) < 10 := by exact_mod_cast hearly
    rw [if_neg hearly, if_neg hearly, if_neg hcast, if_pos (by omega)]

/-- The date of a day is one whose day it is, in a year of the common era when the day is. -/
theorem daysFromCivil_civilFromDays (days : Int) :
    (1 ≤ (civilFromDays days).2.1 ∧ (civilFromDays days).2.1 ≤ 12) ∧
    (1 ≤ (civilFromDays days).2.2 ∧ (civilFromDays days).2.2 ≤ 31) ∧
    daysFromCivil (civilFromDays days).1 (civilFromDays days).2.1 (civilFromDays days).2.2 = days ∧
    (0 ≤ days + dayNumber 1970 1 1 → 0 ≤ (civilFromDays days).1) ∧
    (days + dayNumber 1970 1 1 < dayNumber 10000 1 1 → (civilFromDays days).1 ≤ 9999) := by
  obtain ⟨era, k, doy, mp, hk, hdoy, hmp, hdays, heq⟩ := civilFromDays_eq days
  have hfirst : dayNumber 10000 1 1 = 3652425 := by decide +kernel
  have hlast : mp ≤ 11 := by omega
  have hday : (153 * mp + 2) / 5 ≤ doy ∧ doy < (153 * mp + 2) / 5 + 31 := by omega
  rw [heq, epoch_eq, hfirst]
  dsimp only
  refine ⟨by split_ifs <;> omega, by omega, ?_, ?_⟩
  · have hya : (if (if mp < 10 then (mp : Int) + 3 else mp - 9) ≤ 2 then
        (if mp < 10 then (k : Int) + era * 400 else k + era * 400 + 1) - 1
        else if mp < 10 then (k : Int) + era * 400 else k + era * 400 + 1) = k + era * 400 := by
      split_ifs <;> omega
    have hstart : (153 * (if (if mp < 10 then (mp : Int) + 3 else mp - 9) > 2 then
        (if mp < 10 then (mp : Int) + 3 else mp - 9) - 3 else (if mp < 10 then (mp : Int) + 3 else mp - 9) + 9) +
        2).tdiv 5 = ((153 * mp + 2) / 5 : Nat) := by
      have hmp' : (if (if mp < 10 then (mp : Int) + 3 else mp - 9) > 2 then
          (if mp < 10 then (mp : Int) + 3 else mp - 9) - 3 else (if mp < 10 then (mp : Int) + 3 else mp - 9) + 9) =
            mp := by
        split_ifs <;> omega
      rw [hmp', Int.tdiv_eq_ediv_of_nonneg (by omega)]
      rfl
    rw [daysFromCivil_year hya hstart]
    have hera : (365 * (k + era * 400) + (k + era * 400) / 4 - (k + era * 400) / 100 + (k + era * 400) / 400 : Int) =
        era * 146097 + yearStart k := by
      unfold yearStart
      omega
    rw [hera]
    generalize (153 * mp + 2) / 5 = start
    omega
  · -- only the last two months of an era's last year belong to the next era
    have hspan : yearStart k + doy < 146097 ∧ (k ≠ 399 ∨ mp < 10 → yearStart k + doy < 146037) := by
      by_cases hend : k = 399
      · have hstart : yearStart k = 145731 := by
          rw [hend]
          decide +kernel
        omega
      · have hstart : yearStart k ≤ 145366 := yearStart_mono (show k ≤ 398 by omega)
        omega
    have hlate : k = 399 → 10 ≤ mp → 146037 ≤ yearStart k + doy := by
      intro hend hmonth
      have hstart : yearStart k = 145731 := by
        rw [hend]
        decide +kernel
      omega
    have htotal : days + 719468 = era * 146097 + (yearStart k + doy : Nat) := by omega
    generalize yearStart k + doy = s at hspan hlate htotal
    clear hdays hday heq hmp hdoy
    split_ifs with hmonth <;> omega

end Peal.Calendar
