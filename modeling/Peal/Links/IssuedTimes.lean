import Peal.Coordinator.Timestamps

namespace Peal.Links.Auth
open Peal.Calendar Peal.Numerals
open Peal.Coordinator (Stamp)

/-! # The timestamps of a sign-in message -/

/-- The result of an operation on signed words of 64 bits, which wraps around. -/
def i64 (x : Int) : Int := x.bmod (2 ^ 64)

def digits (s : Text) : Option Int := if s ≠ [] ∧ s.all Char.isDigit then some (value s) else none

/-- A sign is accepted, and so are leading zeros. -/
def parseI64 (s : Text) : Option Int :=
  let n := match s with
    | '+' :: rest => digits rest
    | '-' :: rest => (digits rest).map fun n => -n
    | s => digits s
  n.filter fun n => -2 ^ 63 ≤ n ∧ n < 2 ^ 63

/-- What comes after a third part is left aside. -/
def firstThree (sep : Char) (s : Text) : Option (Int × Int × Int) :=
  match s.splitOn sep with
  | first :: second :: third :: _ => do return (← parseI64 first, ← parseI64 second, ← parseI64 third)
  | _ => none

def secondsOf (y mo da h mi se : Int) : Int :=
  let y2 := if mo ≤ 2 then i64 (y - 1) else y
  let era := (if y2 ≥ 0 then y2 else i64 (y2 - 399)).tdiv 400
  let yoe := i64 (y2 - i64 (era * 400))
  let doy := i64 (i64 ((i64 (i64 (153 * i64 (mo + if mo > 2 then -3 else 9)) + 2)).tdiv 5 + da) - 1)
  let doe := i64 (i64 (i64 (i64 (yoe * 365) + yoe.tdiv 4) - yoe.tdiv 100) + doy)
  let days := i64 (i64 (i64 (era * 146097) + doe) - 719468)
  i64 (i64 (i64 (i64 (days * 86400) + i64 (h * 3600)) + i64 (mi * 60)) + se)

def parseRfc3339 (s : Text) : Option Nat := do
  let (date, time) ← cut 'T' (s.rdropWhile (· = 'Z'))
  let (y, mo, da) ← firstThree '-' date
  let time ← (time.splitOn '.').head?
  let (h, mi, se) ← firstThree ':' time
  if 0 ≤ secondsOf y mo da h mi se then some (secondsOf y mo da h mi se).toNat else none

/-! ### Timestamps and what they stand for -/

/-- A zone and the minutes it is ahead. -/
inductive Zone : Text → Int → Prop
  | zulu : Zone ['Z'] 0
  | small : Zone ['z'] 0
  | ahead {h m : Text} (hour : AllDigits h ∧ h.length = 2 ∧ value h ≤ 23) (minute : AllDigits m ∧ m.length = 2 ∧ value m ≤ 59) :
      Zone ('+' :: h ++ ':' :: m) (60 * value h + value m)
  | behind {h m : Text} (hour : AllDigits h ∧ h.length = 2 ∧ value h ≤ 23)
      (minute : AllDigits m ∧ m.length = 2 ∧ value m ≤ 59) : Zone ('-' :: h ++ ':' :: m) (-(60 * value h + value m))

/-- RFC 3339, of a day the calendar has. A leap second is the one before July or January begins. -/
structure Rfc3339 (p : Stamp) (offset : Int) : Prop where
  year : AllDigits p.year ∧ p.year.length = 4
  fields : ∀ f ∈ p.fields, AllDigits f ∧ f.length = 2
  separator : p.separator ∈ ['T', 't', ' ']
  fraction : p.fraction = [] ∨ ∃ digits, digits ≠ [] ∧ AllDigits digits ∧ p.fraction = '.' :: digits
  zone : Zone p.zone offset
  date : IsDate (value p.year) (value p.month) (value p.day)
  time : value p.hour ≤ 23 ∧ value p.minute ≤ 59
  second : value p.second ≤ 59 ∨ value p.second = 60 ∧
    ∃ y, p.instant - 60 * offset = instant y 7 1 0 0 0 ∨ p.instant - 60 * offset = instant y 1 1 0 0 0

/-- The text is a timestamp of the second. -/
def DateTime (s : Text) (unix : Int) : Prop := ∃ p offset, Rfc3339 p offset ∧ s = p.text ∧ unix = p.instant - 60 * offset

/-- The text is a timestamp in UTC. -/
def Utc (s : Text) : Prop := ∃ p, Rfc3339 p 0 ∧ s = p.text

/-! ### Numbers -/

lemma i64_eq {x : Int} (h : -2 ^ 63 ≤ x ∧ x < 2 ^ 63) : i64 x = x := by
  unfold i64
  rw [Int.bmod_eq_of_le (by omega) (by omega)]

lemma secondsOf_eq {y mo da h mi se : Int} (hy : 0 ≤ y ∧ y ≤ 9999) (hmo : 1 ≤ mo ∧ mo ≤ 12) (hda : 1 ≤ da ∧ da ≤ 31)
    (hh : 0 ≤ h ∧ h ≤ 99) (hmi : 0 ≤ mi ∧ mi ≤ 99) (hse : 0 ≤ se ∧ se ≤ 99) :
    secondsOf y mo da h mi se = daysFromCivil y mo da * 86400 + h * 3600 + mi * 60 + se := by
  have hmonth : i64 (mo + if mo > 2 then -3 else 9) = if mo > 2 then mo - 3 else mo + 9 := by
    rw [i64_eq (by split_ifs <;> omega)]
    split_ifs <;> omega
  have hyear : (if mo ≤ 2 then i64 (y - 1) else y) = if mo ≤ 2 then y - 1 else y := by
    rw [i64_eq (by omega)]
  obtain ⟨mp, hmp⟩ : ∃ mp, (if mo > 2 then mo - 3 else mo + 9) = mp := ⟨_, rfl⟩
  obtain ⟨ya, hya⟩ : ∃ ya, (if mo ≤ 2 then y - 1 else y) = ya := ⟨_, rfl⟩
  have hmpRange : 0 ≤ mp ∧ mp ≤ 11 := by split_ifs at hmp <;> omega
  have hyaRange : -1 ≤ ya ∧ ya ≤ 9999 := by split_ifs at hya <;> omega
  have hera : (if ya ≥ 0 then ya else i64 (ya - 399)).tdiv 400 = ya / 400 := by
    rw [i64_eq (by omega), era_eq]
  unfold secondsOf daysFromCivil
  dsimp only
  rw [hmonth, hyear, hmp, hya, hera, era_eq, i64_eq (x := ya / 400 * 400) (by omega),
    i64_eq (x := ya - ya / 400 * 400) (by omega), Int.tdiv_eq_ediv_of_nonneg (a := ya - ya / 400 * 400) (by omega),
    Int.tdiv_eq_ediv_of_nonneg (a := ya - ya / 400 * 400) (by omega), i64_eq (x := 153 * mp) (by omega),
    i64_eq (x := 153 * mp + 2) (by omega), Int.tdiv_eq_ediv_of_nonneg (a := 153 * mp + 2) (by omega)]
  obtain ⟨yoe, hyoe⟩ : ∃ yoe, ya - ya / 400 * 400 = yoe := ⟨_, rfl⟩
  obtain ⟨era, heraEq⟩ : ∃ era, ya / 400 = era := ⟨_, rfl⟩
  obtain ⟨doy, hdoy⟩ : ∃ doy, (153 * mp + 2) / 5 + da - 1 = doy := ⟨_, rfl⟩
  have hyoeRange : 0 ≤ yoe ∧ yoe ≤ 399 := by omega
  have heraRange : -1 ≤ era ∧ era ≤ 24 := by omega
  have hdoyRange : 0 ≤ doy ∧ doy ≤ 400 := by omega
  rw [hyoe, heraEq, i64_eq (x := (153 * mp + 2) / 5 + da) (by omega), i64_eq (x := (153 * mp + 2) / 5 + da - 1) (by omega),
    hdoy, i64_eq (x := yoe * 365) (by omega), i64_eq (x := yoe * 365 + yoe / 4) (by omega),
    i64_eq (x := yoe * 365 + yoe / 4 - yoe / 100) (by omega)]
  obtain ⟨doe, hdoe⟩ : ∃ doe, yoe * 365 + yoe / 4 - yoe / 100 + doy = doe := ⟨_, rfl⟩
  have hdoeRange : 0 ≤ doe ∧ doe ≤ 200000 := by omega
  rw [hdoe, i64_eq (x := doe) (by omega), i64_eq (x := era * 146097) (by omega), i64_eq (x := era * 146097 + doe) (by omega),
    i64_eq (x := era * 146097 + doe - 719468) (by omega)]
  obtain ⟨days, hdays⟩ : ∃ days, era * 146097 + doe - 719468 = days := ⟨_, rfl⟩
  have hdaysRange : -1000000 ≤ days ∧ days ≤ 5000000 := by omega
  rw [hdays, i64_eq (x := days * 86400) (by omega), i64_eq (x := h * 3600) (by omega),
    i64_eq (x := days * 86400 + h * 3600) (by omega), i64_eq (x := mi * 60) (by omega),
    i64_eq (x := days * 86400 + h * 3600 + mi * 60) (by omega), i64_eq (by omega)]

variable {ds s rest : Text} {n : Int}

lemma digits_eq (h : AllDigits ds) (hne : ds ≠ []) : digits ds = some (value ds : Int) :=
  if_pos ⟨hne, List.all_eq_true.mpr h⟩

lemma parseI64_digit {c : Char} (hc : c.isDigit = true) :
    parseI64 (c :: rest) = (digits (c :: rest)).filter fun n => -2 ^ 63 ≤ n ∧ n < 2 ^ 63 := by
  unfold parseI64
  split
  · rename_i heq
    rw [(List.cons.inj heq).1] at hc
    cases hc
  · rename_i heq
    rw [(List.cons.inj heq).1] at hc
    cases hc
  · rfl

lemma parseI64_digits (h : AllDigits ds) (hne : ds ≠ []) (hshort : ds.length ≤ 4) : parseI64 ds = some (value ds : Int) := by
  have hlt := value_lt h
  have hpow : 10 ^ ds.length ≤ 10 ^ 4 := Nat.pow_le_pow_right (by decide) hshort
  cases ds with
  | nil => exact absurd rfl hne
  | cons c ds =>
    rw [parseI64_digit (h c List.mem_cons_self), digits_eq h hne, Option.filter_some, if_pos]
    exact decide_eq_true (by omega)

lemma allDigits_of_parse (h : parseI64 (ds ++ rest) = some n) (hds : AllDigits ds) (hne : ds ≠ []) : AllDigits rest := by
  cases ds with
  | nil => exact absurd rfl hne
  | cons c ds =>
    rw [List.cons_append, parseI64_digit (hds c List.mem_cons_self), Option.filter_eq_some_iff] at h
    have hall : (c :: (ds ++ rest)).all Char.isDigit = true := by
      by_contra hno
      rw [digits, if_neg fun hyes => hno hyes.2] at h
      cases h.1
    exact fun d hd => List.all_eq_true.mp hall d (List.mem_cons_of_mem _ (List.mem_append_right _ hd))

lemma not_mem_digits {c : Char} (h : AllDigits ds) (hc : c.isDigit = false) : c ∉ ds := by
  intro hmem
  rw [h c hmem] at hc
  cases hc

lemma cut_append {sep : Char} (h : sep ∉ s) : cut sep (s ++ sep :: rest) = some (s, rest) := by
  induction s with
  | nil => rw [List.nil_append, cut, if_pos rfl]
  | cons c s ih =>
    rw [List.mem_cons, not_or] at h
    rw [List.cons_append, cut, if_neg fun heq => h.1 heq.symm, ih h.2]
    rfl

lemma cut_eq_none {sep : Char} (h : sep ∉ s) : cut sep s = none := by
  induction s with
  | nil => rfl
  | cons c s ih =>
    rw [List.mem_cons, not_or] at h
    rw [cut, if_neg fun heq => h.1 heq.symm, ih h.2]
    rfl

lemma trimmed_digits (front : Text) (h : AllDigits ds) (hne : ds ≠ []) :
    (front ++ ds).rdropWhile (· = 'Z') = front ++ ds := by
  obtain ⟨init, c, rfl⟩ := List.eq_nil_or_concat ds |>.resolve_left hne
  rw [List.concat_eq_append] at h ⊢
  have hc := h c (List.mem_append_right _ List.mem_cons_self)
  rw [← List.append_assoc, List.rdropWhile_concat_neg]
  intro heq
  rw [of_decide_eq_true heq] at hc
  cases hc

lemma firstThree_eq (sep : Char) {first second : Text} (third : Text) (hfirst : sep ∉ first) (hsecond : sep ∉ second) :
    ∃ front more, (third = front ∧ more = [] ∨ third = front ++ sep :: more) ∧ sep ∉ front ∧
      firstThree sep (first ++ sep :: (second ++ sep :: third)) = do
        return (← parseI64 first, ← parseI64 second, ← parseI64 front) := by
  have hsplit : (first ++ sep :: (second ++ sep :: third)).splitOn sep = first :: second :: third.splitOn sep := by
    rw [List.splitOn_append_cons_self_of_not_mem hfirst, List.splitOn_append_cons_self_of_not_mem hsecond]
  by_cases hthird : sep ∈ third
  · obtain ⟨front, more, rfl, hfront⟩ := List.eq_append_cons_of_mem hthird
    refine ⟨front, more, .inr rfl, hfront, ?_⟩
    rw [firstThree, hsplit, List.splitOn_append_cons_self_of_not_mem hfront]
  · refine ⟨third, [], .inl ⟨rfl, rfl⟩, hthird, ?_⟩
    rw [firstThree, hsplit, List.splitOn_eq_singleton hthird]

section Reading

variable {p : Stamp} {offset : Int}

def dateOf (p : Stamp) : Text := p.year ++ '-' :: (p.month ++ '-' :: p.day)

def clockOf (p : Stamp) (rest : Text) : Text := p.hour ++ ':' :: (p.minute ++ ':' :: (p.second ++ rest))

lemma text_eq (p : Stamp) : p.text = dateOf p ++ p.separator :: clockOf p (p.fraction ++ p.zone) := by
  simp only [Stamp.text, dateOf, clockOf, List.append_assoc, List.cons_append]

lemma clockOf_append (p : Stamp) (rest more : Text) : clockOf p rest ++ more = clockOf p (rest ++ more) := by
  simp only [clockOf, List.append_assoc, List.cons_append]

lemma Rfc3339.digits (h : Rfc3339 p offset) : (AllDigits p.month ∧ p.month.length = 2) ∧
    (AllDigits p.day ∧ p.day.length = 2) ∧ (AllDigits p.hour ∧ p.hour.length = 2) ∧
      (AllDigits p.minute ∧ p.minute.length = 2) ∧ (AllDigits p.second ∧ p.second.length = 2) := by
  have hfields := h.fields
  simpa only [Stamp.fields, List.forall_mem_cons, List.not_mem_nil, false_implies, implies_true, and_true]
    using hfields

lemma trimmed_text (h : Rfc3339 p offset) : ∃ zone, (zone = [] ∨ ∃ c rest, c ∈ ['z', '+', '-'] ∧ zone = c :: rest) ∧
    'T' ∉ zone ∧ '.' ∉ zone ∧
    p.text.rdropWhile (· = 'Z') = dateOf p ++ p.separator :: clockOf p (p.fraction ++ zone) := by
  obtain ⟨-, -, -, -, hsecond, hsecondLength⟩ := h.digits
  have hpair : ∀ {f : Text}, f.length = 2 → f ≠ [] := fun hf hnil => by
    rw [hnil] at hf
    cases hf
  rw [text_eq]
  have hzone := h.zone
  generalize p.zone = z at hzone
  cases hzone with
  | zulu =>
    refine ⟨[], .inl rfl, List.not_mem_nil, List.not_mem_nil, ?_⟩
    have hbody : (dateOf p ++ p.separator :: clockOf p p.fraction).rdropWhile (· = 'Z') =
        dateOf p ++ p.separator :: clockOf p p.fraction := by
      rcases h.fraction with hnone | ⟨ds, hne, hds, hsome⟩
      · have hlast := trimmed_digits (dateOf p ++ p.separator :: (p.hour ++ ':' :: (p.minute ++ [':']))) hsecond
          (hpair hsecondLength)
        simpa only [hnone, clockOf, List.append_assoc, List.cons_append, List.nil_append, List.append_nil] using hlast
      · have hlast := trimmed_digits (dateOf p ++ p.separator :: clockOf p ['.']) hds hne
        simpa only [hsome, clockOf, List.append_assoc, List.cons_append, List.nil_append] using hlast
    rw [← clockOf_append, ← List.cons_append, ← List.append_assoc, List.rdropWhile_concat_pos _ _ _ (by decide), hbody,
      List.append_nil]
  | small =>
    refine ⟨['z'], .inr ⟨'z', [], by decide, rfl⟩, by decide, by decide, ?_⟩
    rw [← clockOf_append, ← List.cons_append, ← List.append_assoc, List.rdropWhile_concat_neg _ _ _ (by decide)]
  | @ahead hour minute hhour hminute =>
    refine ⟨'+' :: hour ++ ':' :: minute, .inr ⟨'+', hour ++ ':' :: minute, by decide, rfl⟩, ?_, ?_, ?_⟩
    · simpa [not_or] using ⟨not_mem_digits hhour.1 rfl, not_mem_digits hminute.1 rfl⟩
    · simpa [not_or] using ⟨not_mem_digits hhour.1 rfl, not_mem_digits hminute.1 rfl⟩
    · have hlast := trimmed_digits (dateOf p ++ p.separator :: clockOf p (p.fraction ++ '+' :: (hour ++ [':'])))
        hminute.1 (hpair hminute.2.1)
      simpa only [clockOf, List.append_assoc, List.cons_append, List.nil_append] using hlast
  | @behind hour minute hhour hminute =>
    refine ⟨'-' :: hour ++ ':' :: minute, .inr ⟨'-', hour ++ ':' :: minute, by decide, rfl⟩, ?_, ?_, ?_⟩
    · simpa [not_or] using ⟨not_mem_digits hhour.1 rfl, not_mem_digits hminute.1 rfl⟩
    · simpa [not_or] using ⟨not_mem_digits hhour.1 rfl, not_mem_digits hminute.1 rfl⟩
    · have hlast := trimmed_digits (dateOf p ++ p.separator :: clockOf p (p.fraction ++ '-' :: (hour ++ [':'])))
        hminute.1 (hpair hminute.2.1)
      simpa only [clockOf, List.append_assoc, List.cons_append, List.nil_append] using hlast

lemma parseRfc3339_eq_some {n : Nat} : parseRfc3339 s = some n ↔
    ∃ date time, cut 'T' (s.rdropWhile (· = 'Z')) = some (date, time) ∧
      ∃ y mo da, firstThree '-' date = some (y, mo, da) ∧
        ∃ clock, (time.splitOn '.').head? = some clock ∧
          ∃ h mi se, firstThree ':' clock = some (h, mi, se) ∧ (n : Int) = secondsOf y mo da h mi se := by
  unfold parseRfc3339
  simp only [Option.bind_eq_bind, Option.bind_eq_some_iff, Prod.exists, Option.ite_none_right_eq_some,
    Option.some.injEq]
  constructor
  · rintro ⟨date, time, hcut, y, mo, da, hdate, clock, hclock, h, mi, se, htime, hle, rfl⟩
    exact ⟨date, time, hcut, y, mo, da, hdate, clock, hclock, h, mi, se, htime, Int.toNat_of_nonneg hle⟩
  · rintro ⟨date, time, hcut, y, mo, da, hdate, clock, hclock, h, mi, se, htime, hn⟩
    exact ⟨date, time, hcut, y, mo, da, hdate, clock, hclock, h, mi, se, htime, hn ▸ Int.natCast_nonneg n,
      by rw [← hn, Int.toNat_natCast]⟩

lemma front_digits (sep : Char) (rest : Text) {front more : Text} (hds : AllDigits ds) (hne : ds ≠ []) (hsep : sep.isDigit = false)
    (hrest : rest = [] ∨ ∃ c tail, c.isDigit = false ∧ c ≠ sep ∧ rest = c :: tail)
    (hsplit : ds ++ rest = front ∧ more = [] ∨ ds ++ rest = front ++ sep :: more) (hread : parseI64 front = some n) :
    front = ds := by
  have hextend : ∃ between, front = ds ++ between ∧ (rest = between ∨ rest = between ++ sep :: more) := by
    rcases hsplit with ⟨heq, -⟩ | heq
    · exact ⟨rest, heq.symm, .inl rfl⟩
    · rcases List.append_eq_append_iff.mp heq with ⟨between, hfront, hmore⟩ | ⟨between, hds', hmore⟩
      · exact ⟨between, hfront, .inr hmore⟩
      · cases between with
        | nil => exact ⟨[], by rw [hds', List.append_nil, List.append_nil], .inr hmore.symm⟩
        | cons c between =>
          rw [List.cons_append, List.cons.injEq] at hmore
          exact absurd (hds' ▸ List.mem_append_right _ (hmore.1 ▸ List.mem_cons_self)) (not_mem_digits hds hsep)
  obtain ⟨between, rfl, hbetween⟩ := hextend
  cases between with
  | nil => exact List.append_nil ds
  | cons c between =>
    have hdigit := allDigits_of_parse hread hds hne c List.mem_cons_self
    rcases hrest with rfl | ⟨d, tail, hd, -, rfl⟩
    · rcases hbetween with hnil | hnil <;> cases hnil
    · have hcd : c = d := by
        rcases hbetween with heq | heq
        · exact (List.cons.inj heq).1.symm
        · exact (List.cons.inj heq).1.symm
      rw [hcd, hd] at hdigit
      cases hdigit

lemma stamp_read (h : Rfc3339 p offset) {n : Nat} (hread : parseRfc3339 p.text = some n) : (n : Int) = p.instant := by
  obtain ⟨hyear, hyearLength⟩ := h.year
  obtain ⟨⟨hmo, hmoLength⟩, ⟨hd, hdLength⟩, ⟨hh, hhLength⟩, ⟨hmi, hmiLength⟩, ⟨hs, hsLength⟩⟩ := h.digits
  have hne : ∀ {f : Text} {k : Nat}, f.length = k + 1 → f ≠ [] := fun hf hnil => by
    rw [hnil] at hf
    cases hf
  obtain ⟨zone, hzone, hnoT, hnoPoint, htrim⟩ := trimmed_text h
  obtain ⟨date, time, hcut, y, mo, da, hdate, clock, hclock, hour, mi, se, htime, hn⟩ := parseRfc3339_eq_some.mp hread
  have hdateT : 'T' ∉ dateOf p := by
    simp only [dateOf, List.mem_append, List.mem_cons, not_or]
    exact ⟨not_mem_digits hyear rfl, by decide, not_mem_digits hmo rfl, by decide, not_mem_digits hd rfl⟩
  have hfraction : 'T' ∉ p.fraction := by
    rcases h.fraction with hnone | ⟨ds, -, hds, hsome⟩
    · rw [hnone]
      exact List.not_mem_nil
    · rw [hsome, List.mem_cons, not_or]
      exact ⟨by decide, not_mem_digits hds rfl⟩
  have hsep : p.separator = 'T' := by
    by_contra hother
    rw [htrim, cut_eq_none] at hcut
    · cases hcut
    · simp only [clockOf, List.mem_append, List.mem_cons, not_or]
      exact ⟨hdateT, fun heq => hother heq.symm, not_mem_digits hh rfl, by decide, not_mem_digits hmi rfl, by decide,
        not_mem_digits hs rfl, hfraction, hnoT⟩
  rw [htrim, hsep, cut_append hdateT, Option.some.injEq, Prod.mk.injEq] at hcut
  obtain ⟨rfl, rfl⟩ := hcut
  have hclockRest : ∃ rest, clock = clockOf p rest ∧ (rest = [] ∨ ∃ c tail, c.isDigit = false ∧ c ≠ ':' ∧ rest = c :: tail) := by
    rcases h.fraction with hnone | ⟨ds, -, hds, hsome⟩
    · have hnone' : '.' ∉ clockOf p (p.fraction ++ zone) := by
        simp only [hnone, clockOf, List.mem_append, List.mem_cons, not_or]
        exact ⟨not_mem_digits hh rfl, by decide, not_mem_digits hmi rfl, by decide, not_mem_digits hs rfl,
          List.not_mem_nil, hnoPoint⟩
      rw [List.splitOn_eq_singleton hnone', List.head?_cons, Option.some.injEq] at hclock
      refine ⟨zone, by rw [← hclock, hnone, List.nil_append], hzone.imp_right ?_⟩
      rintro ⟨c, tail, hc, rfl⟩
      refine ⟨c, tail, ?_, ?_, rfl⟩
      all_goals
        simp only [List.mem_cons, List.not_mem_nil, or_false] at hc
        rcases hc with rfl | rfl | rfl <;> decide
    · have hclock' : clockOf p (p.fraction ++ zone) = clockOf p [] ++ '.' :: (ds ++ zone) := by
        rw [hsome, clockOf_append]
        rfl
      have hnone : '.' ∉ clockOf p [] := by
        simp only [clockOf, List.append_nil, List.mem_append, List.mem_cons, not_or]
        exact ⟨not_mem_digits hh rfl, by decide, not_mem_digits hmi rfl, by decide, not_mem_digits hs rfl⟩
      rw [hclock', List.splitOn_append_cons_self_of_not_mem hnone, List.head?_cons, Option.some.injEq] at hclock
      exact ⟨[], hclock.symm, .inl rfl⟩
  obtain ⟨rest, rfl, hrest⟩ := hclockRest
  obtain ⟨front, more, hsplit, -, hfirst⟩ := firstThree_eq '-' p.day (not_mem_digits hyear rfl)
    (not_mem_digits hmo rfl)
  obtain ⟨front', more', hsplit', -, hfirst'⟩ := firstThree_eq ':' (p.second ++ rest)
    (not_mem_digits hh rfl) (not_mem_digits hmi rfl)
  rw [dateOf, hfirst] at hdate
  rw [clockOf, hfirst'] at htime
  simp only [Option.bind_eq_bind, Option.bind_eq_some_iff, Option.pure_def, Option.some.injEq, Prod.mk.injEq] at hdate htime
  obtain ⟨y', hy', mo', hmo', da', hda', rfl, rfl, rfl⟩ := hdate
  obtain ⟨hour', hhour', mi', hmi', se', hse', rfl, rfl, rfl⟩ := htime
  have hday : front = p.day := front_digits '-' [] hd (hne hdLength) (by decide) (.inl rfl)
    (by rw [List.append_nil]; exact hsplit) hda'
  have hsecond : front' = p.second := front_digits ':' rest hs (hne hsLength) (by decide) hrest hsplit' hse'
  rw [hday, parseI64_digits hd (hne hdLength) (by omega), Option.some.injEq] at hda'
  rw [hsecond, parseI64_digits hs (hne hsLength) (by omega), Option.some.injEq] at hse'
  rw [parseI64_digits hyear (hne hyearLength) (by omega), Option.some.injEq] at hy'
  rw [parseI64_digits hmo (hne hmoLength) (by omega), Option.some.injEq] at hmo'
  rw [parseI64_digits hh (hne hhLength) (by omega), Option.some.injEq] at hhour'
  rw [parseI64_digits hmi (hne hmiLength) (by omega), Option.some.injEq] at hmi'
  obtain ⟨hmonth, hdate⟩ := h.date
  have hyearLt := value_lt hyear
  rw [hyearLength] at hyearLt
  have hhLt := value_lt hh
  rw [hhLength] at hhLt
  have hmiLt := value_lt hmi
  rw [hmiLength] at hmiLt
  have hsLt := value_lt hs
  rw [hsLength] at hsLt
  have hlast : monthLength (value p.year) (value p.month) ≤ 31 := by
    unfold monthLength
    split_ifs <;> omega
  rw [hn, ← hy', ← hmo', ← hda', ← hhour', ← hmi', ← hse', secondsOf_eq (by omega) (by omega) (by omega) (by omega)
    (by omega) (by omega), daysFromCivil_eq hmonth hdate.1, Stamp.instant, Calendar.instant]

end Reading

lemma dateTime_iff {n : Nat} (h : parseRfc3339 s = some n) : DateTime s n ↔ Utc s := by
  constructor
  · rintro ⟨p, offset, hp, rfl, hn⟩
    have hread := stamp_read hp h
    have hzero : offset = 0 := by omega
    exact ⟨p, hzero ▸ hp, rfl⟩
  · rintro ⟨p, hp, rfl⟩
    exact ⟨p, 0, hp, rfl, by rw [stamp_read hp h, mul_zero, sub_zero]⟩

end Peal.Links.Auth
