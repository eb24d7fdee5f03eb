import Peal.Coordinator.Reads
import Peal.Library.Calendar
import Peal.Library.Numerals

namespace Peal.Coordinator
open Peal.Fallible Peal.Calendar Peal.Numerals Peal.Encoding

/-! # Timestamps, read and written -/

/-- The parts of a timestamp as text. -/
structure Stamp where
  year : Text
  month : Text
  day : Text
  separator : Char
  hour : Text
  minute : Text
  second : Text
  fraction : Text
  zone : Text

namespace Stamp

def fields (p : Stamp) : List Text := [p.month, p.day, p.hour, p.minute, p.second]

def text (p : Stamp) : Text :=
  p.year ++ '-' :: p.month ++ '-' :: p.day ++ p.separator :: p.hour ++ ':' :: p.minute ++ ':' :: p.second ++
    p.fraction ++ p.zone

/-- Leap seconds are inserted at the end of June or of December. -/
def LeapSecond (month day hour minute : Nat) : Prop :=
  hour = 23 ∧ minute = 59 ∧ (month = 6 ∧ day = 30 ∨ month = 12 ∧ day = 31)

/-- RFC 3339, in UTC, of a day the calendar has. -/
structure WellFormed (p : Stamp) : Prop where
  year : AllDigits p.year ∧ p.year.length = 4
  fields : ∀ f ∈ p.fields, AllDigits f ∧ f.length = 2
  separator : p.separator ∈ ['T', 't', ' ']
  fraction : p.fraction = [] ∨ ∃ digits, digits ≠ [] ∧ AllDigits digits ∧ p.fraction = '.' :: digits
  zone : p.zone ∈ ["Z".toList, "z".toList, "+00:00".toList, "-00:00".toList]
  date : IsDate (value p.year) (value p.month) (value p.day)
  time : value p.hour ≤ 23 ∧ value p.minute ≤ 59
  second : value p.second ≤ 59 ∨
    value p.second = 60 ∧ LeapSecond (value p.month) (value p.day) (value p.hour) (value p.minute)

def instant (p : Stamp) : Int :=
  Calendar.instant (value p.year) (value p.month) (value p.day) (value p.hour) (value p.minute) (value p.second)

end Stamp

/-- The text is a well-formed timestamp of the instant. -/
def Names (s : Text) (unix : Int) : Prop := ∃ p : Stamp, p.WellFormed ∧ s = p.text ∧ unix = p.instant

/-! ### What the reader leaves to its callers -/

def field (b : Bytes) (from_ to_ : Nat) : Nat := (parseDigits (slice b from_ to_)).getD 0

/-- What stands between the seconds and the zone. -/
def middle (b : Bytes) : Bytes := (b.take (b.length - if b.getLast? = some 90 then 1 else 6)).drop 19

structure Unguessed (b : Bytes) : Prop where
  unsigned : ∀ i ∈ [0, 5, 8, 11, 14, 17], b[i]? ≠ some 43 ∧ b[i]? ≠ some 45
  colons : b[13]? = some 58 ∧ b[16]? = some 58
  fraction : middle b = [] ∨ ∃ digits, digits ≠ [] ∧ digits.all isDigit = true ∧ middle b = 46 :: digits
  day : field b 8 10 ≤ monthLength (field b 0 4) (field b 5 7)
  leapSecond : field b 17 19 = 60 → Stamp.LeapSecond (field b 5 7) (field b 8 10) (field b 11 13) (field b 14 16)

/-! ### Numerals as bytes -/

variable {bytes b : Bytes} {ds s : Text} {n unix : Int}

lemma isDigit_toNat {c : Char} : isDigit c.toNat = c.isDigit := by
  rw [isDigit, Char.isDigit, Bool.eq_iff_iff, Bool.and_eq_true, Bool.and_eq_true, decide_eq_true_eq,
    decide_eq_true_eq, decide_eq_true_eq, decide_eq_true_eq]
  exact Iff.rfl

lemma encode_digits (h : AllDigits ds) : Utf8.encode ds = ds.map Char.toNat := by
  induction ds with
  | nil => rfl
  | cons c ds ih =>
    obtain ⟨hc, hrest⟩ := List.forall_mem_cons.mp h
    rw [← isDigit_toNat, isDigit, Bool.and_eq_true, decide_eq_true_eq, decide_eq_true_eq] at hc
    rw [Utf8.encode_cons, ih hrest, Json.encodeChar_ascii (by omega)]
    rfl

lemma parseDigits_digits (h : AllDigits ds) (hne : ds ≠ []) : parseDigits (Utf8.encode ds) = some (value ds) := by
  have hall : (Utf8.encode ds).all isDigit = true := by
    rw [encode_digits h, List.all_map, List.all_eq_true]
    exact fun c hc => isDigit_toNat.trans (h c hc)
  have hnil : Utf8.encode ds ≠ [] := by
    rw [encode_digits h]
    simpa using hne
  rw [parseDigits, if_pos ⟨hnil, hall⟩, encode_digits h, List.foldl_map, value, Nat.ofDigitChars_eq_foldl]
  rfl

lemma head_digits (h : AllDigits ds) : (Utf8.encode ds).head? ≠ some 43 ∧ (Utf8.encode ds).head? ≠ some 45 := by
  rw [encode_digits h]
  have hdigit : ∀ k, isDigit k = false → (ds.map Char.toNat).head? ≠ some k := by
    rintro k hk heq
    obtain ⟨c, hc, rfl⟩ := List.mem_map.mp (List.mem_of_mem_head? heq)
    rw [isDigit_toNat, h c hc] at hk
    cases hk
  exact ⟨hdigit 43 rfl, hdigit 45 rfl⟩

lemma parseI64_unsigned (hhead : bytes.head? ≠ some 43 ∧ bytes.head? ≠ some 45) :
    parseI64 bytes = ((parseDigits bytes).map Int.ofNat).filter fun n => decide (inI64 n) := by
  unfold parseI64
  split
  · exact absurd rfl hhead.1
  · exact absurd rfl hhead.2
  · rfl

lemma parseI64_digits (h : AllDigits ds) (hne : ds ≠ []) (hlt : value ds < 2 ^ 63) :
    parseI64 (Utf8.encode ds) = some (value ds : Int) := by
  rw [parseI64_unsigned (head_digits h), parseDigits_digits h hne, Option.map_some, Option.filter_some, if_pos]
  · rfl
  · have hbound : (value ds : Int) < 2 ^ 63 := by exact_mod_cast hlt
    exact decide_eq_true ⟨le_trans (by norm_num) (Int.natCast_nonneg (value ds)), hbound⟩

lemma digits_text (h : bytes.all isDigit = true) :
    ∃ ds, AllDigits ds ∧ Utf8.encode ds = bytes ∧ ds.length = bytes.length := by
  have hback : ∀ k ∈ bytes, (Char.ofNat k).toNat = k := by
    intro k hk
    have hdigit := List.all_eq_true.mp h k hk
    rw [isDigit, Bool.and_eq_true, decide_eq_true_eq, decide_eq_true_eq] at hdigit
    rw [Char.ofNat, dif_pos (show k.isValidChar from .inl (by omega))]
    rfl
  have hall : AllDigits (bytes.map Char.ofNat) := by
    intro c hc
    obtain ⟨k, hk, rfl⟩ := List.mem_map.mp hc
    rw [← isDigit_toNat, hback k hk]
    exact List.all_eq_true.mp h k hk
  refine ⟨bytes.map Char.ofNat, hall, ?_, List.length_map ..⟩
  rw [encode_digits hall, List.map_map]
  exact (List.map_congr_left hback).trans (List.map_id _)

lemma digits_of_parse (h : parseI64 bytes = some n) (hhead : bytes.head? ≠ some 43 ∧ bytes.head? ≠ some 45) :
    ∃ ds, AllDigits ds ∧ ds ≠ [] ∧ Utf8.encode ds = bytes ∧ ds.length = bytes.length ∧ n = value ds := by
  rw [parseI64_unsigned hhead, Option.filter_eq_some_iff, Option.map_eq_some_iff] at h
  obtain ⟨⟨m, hm, rfl⟩, -⟩ := h
  have hcond : bytes ≠ [] ∧ bytes.all isDigit = true := by
    by_contra hno
    rw [parseDigits, if_neg hno] at hm
    cases hm
  obtain ⟨ds, hds, henc, hlength⟩ := digits_text hcond.2
  have hne : ds ≠ [] := by
    rintro rfl
    exact hcond.1 henc.symm
  rw [← henc, parseDigits_digits hds hne] at hm
  exact ⟨ds, hds, hne, henc, hlength, by rw [← Option.some.inj hm]; rfl⟩

/-! ### The fields of a timestamp -/

/-- Six fields, the bytes between them and the rest. -/
def frame (y mo d h mi s rest : Bytes) (c4 c7 c10 c13 c16 : Nat) : Bytes :=
  y ++ c4 :: mo ++ c7 :: d ++ c10 :: h ++ c13 :: mi ++ c16 :: s ++ rest

lemma frame_exists (hb : 19 ≤ b.length) : ∃ y mo d h mi s rest c4 c7 c10 c13 c16,
    (y.length = 4 ∧ mo.length = 2 ∧ d.length = 2 ∧ h.length = 2 ∧ mi.length = 2 ∧ s.length = 2) ∧
      b = frame y mo d h mi s rest c4 c7 c10 c13 c16 := by
  obtain ⟨y, r, hy, rfl⟩ := cut_at (k := 4) (b := b) (by omega)
  rw [List.length_append] at hb
  obtain ⟨c4, r, rfl⟩ := List.exists_cons_of_length_pos (l := r) (by omega)
  rw [List.length_cons] at hb
  obtain ⟨mo, r, hmo, rfl⟩ := cut_at (k := 2) (b := r) (by omega)
  rw [List.length_append] at hb
  obtain ⟨c7, r, rfl⟩ := List.exists_cons_of_length_pos (l := r) (by omega)
  rw [List.length_cons] at hb
  obtain ⟨d, r, hd, rfl⟩ := cut_at (k := 2) (b := r) (by omega)
  rw [List.length_append] at hb
  obtain ⟨c10, r, rfl⟩ := List.exists_cons_of_length_pos (l := r) (by omega)
  rw [List.length_cons] at hb
  obtain ⟨h, r, hh, rfl⟩ := cut_at (k := 2) (b := r) (by omega)
  rw [List.length_append] at hb
  obtain ⟨c13, r, rfl⟩ := List.exists_cons_of_length_pos (l := r) (by omega)
  rw [List.length_cons] at hb
  obtain ⟨mi, r, hmi, rfl⟩ := cut_at (k := 2) (b := r) (by omega)
  rw [List.length_append] at hb
  obtain ⟨c16, r, rfl⟩ := List.exists_cons_of_length_pos (l := r) (by omega)
  rw [List.length_cons] at hb
  obtain ⟨s, rest, hs, rfl⟩ := cut_at (k := 2) (b := r) (by omega)
  refine ⟨y, mo, d, h, mi, s, rest, c4, c7, c10, c13, c16, ⟨hy, hmo, hd, hh, hmi, hs⟩, ?_⟩
  simp only [frame, List.append_assoc, List.cons_append]

section Frame

variable {y mo d h mi s rest : Bytes} {c4 c7 c10 c13 c16 : Nat}

lemma frame_slices (hlength : y.length = 4 ∧ mo.length = 2 ∧ d.length = 2 ∧ h.length = 2 ∧ mi.length = 2 ∧
    s.length = 2) (hb : b = frame y mo d h mi s rest c4 c7 c10 c13 c16) :
    (slice b 0 4 = y ∧ slice b 5 7 = mo ∧ slice b 8 10 = d ∧ slice b 11 13 = h ∧ slice b 14 16 = mi ∧
      slice b 17 19 = s) ∧ b.drop 19 = rest ∧
      (b[4]? = some c4 ∧ b[7]? = some c7 ∧ b[10]? = some c10 ∧ b[13]? = some c13 ∧ b[16]? = some c16) ∧
      (b[0]? = y.head? ∧ b[5]? = mo.head? ∧ b[8]? = d.head? ∧ b[11]? = h.head? ∧ b[14]? = mi.head? ∧
        b[17]? = s.head?) ∧ b[18]? = s[1]? := by
  obtain ⟨hy, hmo, hd, hh, hmi, hs⟩ := hlength
  obtain ⟨y0, y1, y2, y3, rfl⟩ := List.length_eq_four.mp hy
  obtain ⟨mo0, mo1, rfl⟩ := List.length_eq_two.mp hmo
  obtain ⟨d0, d1, rfl⟩ := List.length_eq_two.mp hd
  obtain ⟨h0, h1, rfl⟩ := List.length_eq_two.mp hh
  obtain ⟨mi0, mi1, rfl⟩ := List.length_eq_two.mp hmi
  obtain ⟨s0, s1, rfl⟩ := List.length_eq_two.mp hs
  subst hb
  exact ⟨⟨rfl, rfl, rfl, rfl, rfl, rfl⟩, rfl, ⟨rfl, rfl, rfl, rfl, rfl⟩, ⟨rfl, rfl, rfl, rfl, rfl, rfl⟩, rfl⟩

lemma frame_append {zone : Bytes} : frame y mo d h mi s (rest ++ zone) c4 c7 c10 c13 c16 =
    frame y mo d h mi s rest c4 c7 c10 c13 c16 ++ zone := by
  simp only [frame, List.append_assoc, List.cons_append]

end Frame

lemma parseRfc3339_eq_some : parseRfc3339 b = some unix ↔
    (20 ≤ b.length ∧ b[4]? = some 45 ∧ b[7]? = some 45 ∧ (b[10]? = some 84 ∨ b[10]? = some 32)) ∧
    (b.getLast? = some 90 ∨ b.drop (b.length - 6) = [43, 48, 48, 58, 48, 48]) ∧
    ∃ y, parseI64 (slice b 0 4) = some y ∧ ∃ mo, parseI64 (slice b 5 7) = some mo ∧
    ∃ d, parseI64 (slice b 8 10) = some d ∧ ∃ h, parseI64 (slice b 11 13) = some h ∧
    ∃ mi, parseI64 (slice b 14 16) = some mi ∧ ∃ sec, parseI64 (slice b 17 19) = some sec ∧
      ((1 ≤ mo ∧ mo ≤ 12) ∧ (1 ≤ d ∧ d ≤ 31) ∧ h ≤ 23 ∧ mi ≤ 59 ∧ sec ≤ 60) ∧
      daysFromCivil y mo d * 86400 + h * 3600 + mi * 60 + sec = unix := by
  unfold parseRfc3339
  simp only [Option.bind_eq_bind, Option.bind_none, Option.ite_none_left_eq_some, Option.bind_eq_some_iff, not_or,
    not_and_or, not_not, not_lt, ne_eq, Option.pure_def, Option.some.injEq]
  rfl

lemma field_digits {from_ to_ : Nat} (h : slice b from_ to_ = Utf8.encode ds) (hds : AllDigits ds) (hne : ds ≠ []) :
    field b from_ to_ = value ds := by
  rw [field, h, parseDigits_digits hds hne]
  rfl

lemma Stamp.frame_text {p : Stamp} (hsep : p.separator.toNat < 128) : Utf8.encode p.text =
    frame (Utf8.encode p.year) (Utf8.encode p.month) (Utf8.encode p.day) (Utf8.encode p.hour) (Utf8.encode p.minute)
      (Utf8.encode p.second) (Utf8.encode p.fraction ++ Utf8.encode p.zone) 45 45 p.separator.toNat 58 58 := by
  have hdash : Utf8.encodeChar '-' = [45] := by decide
  have hcolon : Utf8.encodeChar ':' = [58] := by decide
  simp only [Stamp.text, frame, Utf8.encode_append, Utf8.encode_cons, hdash, hcolon, Json.encodeChar_ascii hsep,
    List.append_assoc, List.cons_append, List.nil_append]

lemma encode_digits_length (h : AllDigits ds) : (Utf8.encode ds).length = ds.length := by
  rw [encode_digits h, List.length_map]

lemma Stamp.WellFormed.parts {p : Stamp} (h : p.WellFormed) :
    (AllDigits p.month ∧ p.month.length = 2) ∧ (AllDigits p.day ∧ p.day.length = 2) ∧
      (AllDigits p.hour ∧ p.hour.length = 2) ∧ (AllDigits p.minute ∧ p.minute.length = 2) ∧
      (AllDigits p.second ∧ p.second.length = 2) := by
  have hfields := h.fields
  simpa only [Stamp.fields, List.forall_mem_cons, List.not_mem_nil, false_implies, implies_true, and_true]
    using hfields

lemma Stamp.WellFormed.separator_lt {p : Stamp} (h : p.WellFormed) : p.separator.toNat < 128 := by
  have hsep := h.separator
  simp only [List.mem_cons, List.not_mem_nil, or_false] at hsep
  rcases hsep with heq | heq | heq <;> rw [heq] <;> decide

lemma encode_ne_nil (hne : ds ≠ []) : Utf8.encode ds ≠ [] := by
  intro hnil
  cases ds with
  | nil => exact hne rfl
  | cons c ds =>
    rw [Utf8.encode_cons] at hnil
    exact Utf8.encodeChar_ne_nil c (List.append_eq_nil_iff.mp hnil).1

/-! ### Where the zone begins -/

def utc : Bytes := [43, 48, 48, 58, 48, 48]

lemma middle_utc (front : Bytes) : middle (front ++ utc) = front.drop 19 := by
  have hlast : (front ++ utc).getLast? ≠ some 90 := by
    rw [List.getLast?_append]
    exact fun h => by cases h
  rw [middle, if_neg hlast, List.length_append, show utc.length = 6 from rfl, Nat.add_sub_cancel, List.take_left]

lemma middle_zulu (front : Bytes) : middle (front ++ [90]) = front.drop 19 := by
  have hlast : (front ++ [90]).getLast? = some 90 := by
    rw [List.getLast?_append]
    rfl
  rw [middle, if_pos hlast, List.length_append, show [90].length = 1 from rfl, Nat.add_sub_cancel, List.take_left]

lemma zone_read {front zone : Bytes} (hzone : zone ∈ [[90], [122], utc, 45 :: utc.tail])
    (hread : (front ++ zone).getLast? = some 90 ∨ (front ++ zone).drop ((front ++ zone).length - 6) = utc) :
    middle (front ++ zone) = front.drop 19 := by
  simp only [List.mem_cons, List.not_mem_nil, or_false] at hzone
  rcases hzone with rfl | rfl | rfl | rfl
  · exact middle_zulu front
  · exfalso
    have hlast : (front ++ [122]).getLast? = some 122 := by
      rw [List.getLast?_append]
      rfl
    rcases hread with hread | hread
    · rw [hlast] at hread
      cases hread
    · have hmem : (utc).getLast? = some 122 := by
        rw [← hread, List.getLast?_drop, if_neg, hlast]
        intro hle
        have hnil := List.drop_eq_nil_of_le hle
        rw [hread] at hnil
        cases hnil
      cases hmem
  · exact middle_utc front
  · exfalso
    rcases hread with hread | hread
    · rw [List.getLast?_append] at hread
      cases hread
    · rw [List.length_append, show (45 :: utc.tail).length = 6 from rfl, Nat.add_sub_cancel, List.drop_left] at hread
      revert hread
      decide

lemma Names.unguessed (h : Names s unix) (hread : (Utf8.encode s).getLast? = some 90 ∨
    (Utf8.encode s).drop ((Utf8.encode s).length - 6) = utc) : Unguessed (Utf8.encode s) := by
  obtain ⟨p, hp, rfl, -⟩ := h
  obtain ⟨hyear, hyearLength⟩ := hp.year
  obtain ⟨⟨hmo, hmoLength⟩, ⟨hd, hdLength⟩, ⟨hh, hhLength⟩, ⟨hmi, hmiLength⟩, ⟨hs, hsLength⟩⟩ := hp.parts
  have hne : ∀ {f : Text} {k : Nat}, f.length = k + 1 → f ≠ [] := fun hf hnil => by
    rw [hnil] at hf
    cases hf
  have hlengths := And.intro ((encode_digits_length hyear).trans hyearLength)
    (And.intro ((encode_digits_length hmo).trans hmoLength) (And.intro ((encode_digits_length hd).trans hdLength)
      (And.intro ((encode_digits_length hh).trans hhLength) (And.intro ((encode_digits_length hmi).trans hmiLength)
        ((encode_digits_length hs).trans hsLength)))))
  have hframe := Stamp.frame_text hp.separator_lt
  obtain ⟨⟨hs0, hs5, hs8, hs11, hs14, hs17⟩, -, ⟨-, -, -, hc13, hc16⟩, ⟨h0, h5, h8, h11, h14, h17⟩, -⟩ :=
    frame_slices hlengths hframe
  refine ⟨?_, ⟨hc13, hc16⟩, ?_, ?_, ?_⟩
  · simp only [List.forall_mem_cons, List.not_mem_nil, false_implies, implies_true, and_true, h0, h5, h8, h11, h14, h17]
    exact ⟨head_digits hyear, head_digits hmo, head_digits hd, head_digits hh, head_digits hmi, head_digits hs⟩
  · have hzone : Utf8.encode p.zone ∈ [[90], [122], utc, 45 :: utc.tail] := by
      have hz := hp.zone
      simp only [List.mem_cons, List.not_mem_nil, or_false] at hz
      rcases hz with heq | heq | heq | heq <;> rw [heq] <;> decide
    rw [hframe, frame_append] at hread ⊢
    obtain ⟨-, hdrop, -⟩ := frame_slices hlengths
      (Eq.refl (frame _ _ _ _ _ _ (Utf8.encode p.fraction) 45 45 p.separator.toNat 58 58))
    rw [zone_read hzone hread, hdrop]
    rcases hp.fraction with hnil | ⟨digits, hne', hdigits, hfrac⟩
    · rw [hnil]
      exact .inl rfl
    · refine .inr ⟨Utf8.encode digits, encode_ne_nil hne', ?_, ?_⟩
      · rw [encode_digits hdigits, List.all_map, List.all_eq_true]
        exact fun c hc => isDigit_toNat.trans (hdigits c hc)
      · rw [hfrac, Utf8.encode_cons]
        rfl
  · rw [field_digits hs8 hd (hne hdLength), field_digits hs0 hyear (hne hyearLength),
      field_digits hs5 hmo (hne hmoLength)]
    exact hp.date.2.2
  · rw [field_digits hs17 hs (hne hsLength), field_digits hs5 hmo (hne hmoLength), field_digits hs8 hd (hne hdLength),
      field_digits hs11 hh (hne hhLength), field_digits hs14 hmi (hne hmiLength)]
    intro hsixty
    rcases hp.second with hlow | ⟨-, hleap⟩
    · omega
    · exact hleap

lemma zone_late (hlength : 20 ≤ b.length) (hdrop : b.drop (b.length - 6) = utc)
    (hsigns : ∀ i ∈ [0, 5, 8, 11, 14, 17], b[i]? ≠ some 43 ∧ b[i]? ≠ some 45) (hcolon : b[16]? = some 58)
    (hsecond : b[18]? ≠ some 43) : 25 ≤ b.length := by
  have hat : ∀ k, b[b.length - 6 + k]? = utc[k]? := fun k => by rw [← List.getElem?_drop, hdrop]
  have hplus := hat 0
  have hzero := hat 1
  by_contra hshort
  have hcases : b.length = 20 ∨ b.length = 21 ∨ b.length = 22 ∨ b.length = 23 ∨ b.length = 24 := by omega
  rcases hcases with heq | heq | heq | heq | heq <;> rw [heq] at hplus hzero
  · exact (hsigns 14 (by decide)).1 hplus
  · rw [hcolon] at hzero
    cases hzero
  · rw [hcolon] at hplus
    cases hplus
  · exact (hsigns 17 (by decide)).1 hplus
  · exact hsecond hplus

lemma rest_eq (hlength : 20 ≤ b.length) (hread : b.getLast? = some 90 ∨ b.drop (b.length - 6) = utc)
    (hlate : b.drop (b.length - 6) = utc → 25 ≤ b.length) :
    b.drop 19 = middle b ++ [90] ∨ b.drop 19 = middle b ++ utc := by
  by_cases hlast : b.getLast? = some 90
  · left
    have hfront : b = b.dropLast ++ [90] := (List.dropLast_append_getLast? 90 hlast).symm
    have hmiddle := middle_zulu b.dropLast
    rw [← hfront] at hmiddle
    rw [hmiddle, ← List.drop_append_of_le_length (by rw [List.length_dropLast]; omega), ← hfront]
  · right
    have hdrop := hread.resolve_left hlast
    have hlong := hlate hdrop
    have hfront : b = b.take (b.length - 6) ++ utc := by rw [← hdrop, List.take_append_drop]
    have hmiddle := middle_utc (b.take (b.length - 6))
    rw [← hfront] at hmiddle
    rw [hmiddle, ← List.drop_append_of_le_length (by rw [List.length_take]; omega), ← hfront]

lemma Unguessed.names (h : Unguessed (Utf8.encode s)) (hparse : parseRfc3339 (Utf8.encode s) = some unix) :
    Names s unix := by
  generalize hb : Utf8.encode s = b at h hparse
  obtain ⟨⟨hlength, hc4, hc7, hc10⟩, hzone, y, hy, mo, hmo, d, hd, hh, hhour, mi, hmi, sec, hsec,
    ⟨hmoRange, hdRange, hhRange, hmiRange, hsRange⟩, rfl⟩ := parseRfc3339_eq_some.mp hparse
  obtain ⟨by_, bmo, bd, bh, bmi, bs, rest, k4, k7, k10, k13, k16, hlengths, hframe⟩ :=
    frame_exists (show 19 ≤ b.length by omega)
  obtain ⟨⟨hs0, hs5, hs8, hs11, hs14, hs17⟩, hdrop, ⟨h4, h7, h10, h13, h16⟩, ⟨g0, g5, g8, g11, g14, g17⟩, g18⟩ :=
    frame_slices hlengths hframe
  have hsigns := h.unsigned
  simp only [List.forall_mem_cons, List.not_mem_nil, false_implies, implies_true, and_true, g0, g5, g8, g11, g14, g17]
    at hsigns
  obtain ⟨n0, n5, n8, n11, n14, n17⟩ := hsigns
  rw [hs0] at hy
  rw [hs5] at hmo
  rw [hs8] at hd
  rw [hs11] at hhour
  rw [hs14] at hmi
  rw [hs17] at hsec
  obtain ⟨ty, hty, hneY, rfl, hlenY, rfl⟩ := digits_of_parse hy n0
  obtain ⟨tmo, htmo, hneMo, rfl, hlenMo, rfl⟩ := digits_of_parse hmo n5
  obtain ⟨td, htd, hneD, rfl, hlenD, rfl⟩ := digits_of_parse hd n8
  obtain ⟨th, hth, hneH, rfl, hlenH, rfl⟩ := digits_of_parse hhour n11
  obtain ⟨tmi, htmi, hneMi, rfl, hlenMi, rfl⟩ := digits_of_parse hmi n14
  obtain ⟨ts, hts, hneS, rfl, hlenS, rfl⟩ := digits_of_parse hsec n17
  -- the fraction and the zone, as text
  have hlast : b[18]? ≠ some 43 := by
    rw [g18, encode_digits hts, List.getElem?_map]
    intro heq
    obtain ⟨c, hc, hplus⟩ := Option.map_eq_some_iff.mp heq
    have hdigit := hts c (List.mem_of_getElem? hc)
    rw [← isDigit_toNat, hplus] at hdigit
    cases hdigit
  have hrest := rest_eq hlength hzone fun hutc => zone_late hlength hutc h.unsigned h.colons.2 hlast
  rw [hdrop] at hrest
  obtain ⟨fraction, hfraction, hmiddle⟩ : ∃ fraction : Text, (fraction = [] ∨ ∃ digits, digits ≠ [] ∧
      AllDigits digits ∧ fraction = '.' :: digits) ∧ Utf8.encode fraction = middle b := by
    rcases h.fraction with hnil | ⟨digits, hne, hall, hdot⟩
    · exact ⟨[], .inl rfl, hnil.symm⟩
    · obtain ⟨ds, hds, henc, -⟩ := digits_text hall
      refine ⟨'.' :: ds, .inr ⟨ds, ?_, hds, rfl⟩, ?_⟩
      · rintro rfl
        exact hne henc.symm
      · rw [Utf8.encode_cons, henc, hdot]
        rfl
  obtain ⟨zone, hzoneMem, hzoneRest⟩ : ∃ zone ∈ ["Z".toList, "z".toList, "+00:00".toList, "-00:00".toList],
      rest = Utf8.encode fraction ++ Utf8.encode zone := by
    rw [hmiddle]
    rcases hrest with hrest | hrest
    · exact ⟨"Z".toList, by decide, hrest.trans (congrArg _ (by decide))⟩
    · exact ⟨"+00:00".toList, by decide, hrest.trans (congrArg _ (by decide))⟩
  obtain ⟨separator, hsep, hsepNat, hsepLt⟩ : ∃ c ∈ ['T', 't', ' '], c.toNat = k10 ∧ c.toNat < 128 := by
    rw [h10] at hc10
    rcases hc10 with hc | hc
    · exact ⟨'T', by decide, (Option.some.inj hc).symm, by decide⟩
    · exact ⟨' ', by decide, (Option.some.inj hc).symm, by decide⟩
  obtain rfl : k4 = 45 := Option.some.inj (h4.symm.trans hc4)
  obtain rfl : k7 = 45 := Option.some.inj (h7.symm.trans hc7)
  obtain rfl : k13 = 58 := Option.some.inj (h13.symm.trans h.colons.1)
  obtain rfl : k16 = 58 := Option.some.inj (h16.symm.trans h.colons.2)
  subst hsepNat hzoneRest
  let p : Stamp := ⟨ty, tmo, td, separator, th, tmi, ts, fraction, zone⟩
  have htext : s = p.text := Utf8.encode_injective (hb.trans (hframe.trans (Stamp.frame_text (p := p) hsepLt).symm))
  have hday := h.day
  have hleap := h.leapSecond
  rw [field_digits hs8 htd hneD, field_digits hs0 hty hneY, field_digits hs5 htmo hneMo] at hday
  rw [field_digits hs17 hts hneS, field_digits hs5 htmo hneMo, field_digits hs8 htd hneD,
    field_digits hs11 hth hneH, field_digits hs14 htmi hneMi] at hleap
  have hmonths : 1 ≤ value tmo ∧ value tmo ≤ 12 := by omega
  have hdays : 1 ≤ value td := by omega
  have htime : value th ≤ 23 ∧ value tmi ≤ 59 := by omega
  have hseconds : value ts ≠ 60 → value ts ≤ 59 := by omega
  refine ⟨p, ⟨⟨hty, hlenY.trans hlengths.1⟩, ?_, hsep, hfraction, hzoneMem, ?_, ?_, ?_⟩, htext, ?_⟩
  · simp only [Stamp.fields, List.forall_mem_cons, List.not_mem_nil, false_implies, implies_true, and_true]
    exact ⟨⟨htmo, hlenMo.trans hlengths.2.1⟩, ⟨htd, hlenD.trans hlengths.2.2.1⟩, ⟨hth, hlenH.trans hlengths.2.2.2.1⟩,
      ⟨htmi, hlenMi.trans hlengths.2.2.2.2.1⟩, hts, hlenS.trans hlengths.2.2.2.2.2⟩
  · exact ⟨hmonths, hdays, hday⟩
  · exact htime
  · by_cases hsixty : value ts = 60
    · exact .inr ⟨hsixty, hleap hsixty⟩
    · exact .inl (hseconds hsixty)
  · rw [daysFromCivil_eq hmonths hdays]
    rfl

/-- An accepted text is a well-formed timestamp of its instant exactly when it leaves nothing to guess. -/
theorem names_iff (h : parseRfc3339 (Utf8.encode s) = some unix) : Names s unix ↔ Unguessed (Utf8.encode s) := by
  obtain ⟨-, hread, -⟩ := parseRfc3339_eq_some.mp h
  exact ⟨fun hn => hn.unguessed hread, fun hu => hu.names h⟩

/-! ### What is written is read back -/

lemma padded_digits {width m : Nat} (hwidth : 0 < width) (hm : m < 10 ^ width) :
    AllDigits (padded width m) ∧ (padded width m).length = width ∧ value (padded width m) = m := by
  have hlength : (Nat.toDigits 10 m).length ≤ width := Nat.length_toDigits_le_iff (by decide) hwidth |>.mpr hm
  rw [padded, if_pos (Int.natCast_nonneg m), Int.natAbs_natCast]
  refine ⟨allDigits_append.mpr ⟨allDigits_zeros _, allDigits_toDigits m⟩, ?_, ?_⟩
  · rw [List.length_append, List.length_replicate]
    omega
  · rw [value_append, value_zeros, Nat.zero_mul, Nat.zero_add, value_toDigits]

lemma iso_eq (unix : Int) : iso unix =
    padded 4 (civilFromDays (unix / 86400)).1 ++ '-' :: padded 2 (civilFromDays (unix / 86400)).2.1 ++
      '-' :: padded 2 (civilFromDays (unix / 86400)).2.2 ++ 'T' :: padded 2 (unix % 86400 / 3600) ++
      ':' :: padded 2 (unix % 86400 % 3600 / 60) ++ ':' :: padded 2 (unix % 86400 % 60) ++ ['Z'] :=
  rfl

lemma parseI64_padded {width m : Nat} (hwidth : 0 < width) (hsmall : width ≤ 4) (hm : m < 10 ^ width) :
    parseI64 (Utf8.encode (padded width m)) = some (m : Int) ∧ (Utf8.encode (padded width m)).length = width := by
  obtain ⟨hdigits, hlength, hvalue⟩ := padded_digits hwidth hm
  have hne : padded width m ≠ [] := by
    intro hnil
    rw [hnil, List.length_nil] at hlength
    omega
  have hlt : m < 2 ^ 63 :=
    lt_of_lt_of_le hm (le_trans (Nat.pow_le_pow_right (by decide) hsmall) (by decide))
  constructor
  · rw [parseI64_digits hdigits hne (by rw [hvalue]; exact hlt), hvalue]
  · rw [encode_digits_length hdigits, hlength]

lemma Stamp.read {p : Stamp} {y mo d h mi sec : Nat} (hyear : p.year = padded 4 y) (hmonth : p.month = padded 2 mo)
    (hday : p.day = padded 2 d) (hhour : p.hour = padded 2 h) (hminute : p.minute = padded 2 mi)
    (hsecond : p.second = padded 2 sec) (hsep : p.separator = 'T') (hrest : p.fraction = []) (hzone : p.zone = ['Z'])
    (hy : y < 10000) (hmo : 1 ≤ mo ∧ mo ≤ 12) (hd : 1 ≤ d ∧ d ≤ 31) (hh : h ≤ 23) (hmi : mi ≤ 59) (hsec : sec ≤ 60) :
    parseRfc3339 (Utf8.encode p.text) = some (daysFromCivil y mo d * 86400 + h * 3600 + mi * 60 + sec) := by
  have htwo : ∀ {m : Nat}, m < 100 → parseI64 (Utf8.encode (padded 2 m)) = some (m : Int) ∧
      (Utf8.encode (padded 2 m)).length = 2 := fun hm => parseI64_padded (by decide) (by decide) hm
  obtain ⟨py, ly⟩ := parseI64_padded (m := y) (show 0 < 4 by decide) (by decide) hy
  obtain ⟨pmo, lmo⟩ := htwo (show mo < 100 by omega)
  obtain ⟨pd, ld⟩ := htwo (show d < 100 by omega)
  obtain ⟨ph, lh⟩ := htwo (show h < 100 by omega)
  obtain ⟨pmi, lmi⟩ := htwo (show mi < 100 by omega)
  obtain ⟨psec, lsec⟩ := htwo (show sec < 100 by omega)
  have hframe := Stamp.frame_text (p := p) (by rw [hsep]; decide)
  rw [hyear, hmonth, hday, hhour, hminute, hsecond, hsep, hrest, hzone] at hframe
  obtain ⟨⟨s0, s5, s8, s11, s14, s17⟩, hdrop, ⟨h4, h7, h10, -, -⟩, -, -⟩ :=
    frame_slices ⟨ly, lmo, ld, lh, lmi, lsec⟩ hframe
  have hlast : (Utf8.encode p.text).getLast? = some 90 := by
    rw [hframe, frame_append, List.getLast?_append]
    rfl
  have hlength : (Utf8.encode p.text).length - 19 = 1 := by
    rw [← List.length_drop, hdrop]
    rfl
  rw [parseRfc3339_eq_some, s0, s5, s8, s11, s14, s17]
  refine ⟨⟨by omega, h4, h7, .inl h10⟩, .inl hlast, y, py, mo, pmo, d, pd, h, ph, mi, pmi, sec, psec, ?_, rfl⟩
  omega

theorem parseRfc3339_iso (hlow : Calendar.instant 0 1 1 0 0 0 ≤ unix) (hhigh : unix < Calendar.instant 10000 1 1 0 0 0) :
    parseRfc3339 (Utf8.encode (iso unix)) = some unix := by
  obtain ⟨hmonth, hday, hdays, hyearLow, hyearHigh⟩ := daysFromCivil_civilFromDays (unix / 86400)
  have hzero : dayNumber 0 1 1 = 0 := rfl
  rw [Calendar.instant, hzero] at hlow
  rw [Calendar.instant] at hhigh
  have hyear : 0 ≤ (civilFromDays (unix / 86400)).1 ∧ (civilFromDays (unix / 86400)).1 ≤ 9999 :=
    ⟨hyearLow (by omega), hyearHigh (by omega)⟩
  rw [iso_eq]
  generalize (civilFromDays (unix / 86400)).1 = y at *
  generalize (civilFromDays (unix / 86400)).2.1 = mo at *
  generalize (civilFromDays (unix / 86400)).2.2 = d at *
  lift y to Nat using hyear.1
  lift mo to Nat using by omega
  lift d to Nat using by omega
  obtain ⟨hour, hhour⟩ := Int.eq_ofNat_of_zero_le (show 0 ≤ unix % 86400 / 3600 by omega)
  obtain ⟨minute, hminute⟩ := Int.eq_ofNat_of_zero_le (show 0 ≤ unix % 86400 % 3600 / 60 by omega)
  obtain ⟨second, hsecond⟩ := Int.eq_ofNat_of_zero_le (show 0 ≤ unix % 86400 % 60 by omega)
  rw [hhour, hminute, hsecond]
  have hread := Stamp.read (p := ⟨padded 4 y, padded 2 mo, padded 2 d, 'T', padded 2 hour, padded 2 minute,
    padded 2 second, [], ['Z']⟩) (y := y) (d := d) rfl rfl rfl rfl rfl rfl rfl rfl rfl (by omega) (by omega) (by omega)
    (by omega) (by omega) (by omega)
  rw [Stamp.text] at hread
  dsimp only at hread
  rw [List.append_nil, hdays] at hread
  rw [hread, Option.some.injEq]
  omega

/-- Every instant of a year of four digits reads back as written; and an accepted text is a well-formed timestamp of
the instant it is taken for exactly when it leaves nothing to guess. -/
theorem timestamps_exact (unix : Int) :
    (Calendar.instant 0 1 1 0 0 0 ≤ unix → unix < Calendar.instant 10000 1 1 0 0 0 →
      parseRfc3339 (Utf8.encode (iso unix)) = some unix) ∧
    ∀ s, parseRfc3339 (Utf8.encode s) = some unix → (Names s unix ↔ Unguessed (Utf8.encode s)) :=
  ⟨parseRfc3339_iso, fun _ h => names_iff h⟩

/-- The last day of a month is not checked. -/
theorem missing_day_accepted : ¬∀ s unix, parseRfc3339 (Utf8.encode s) = some unix → Names s unix := by
  intro h
  have hread : parseRfc3339 (Utf8.encode "2026-02-31T18:00:00Z".toList) = some 1772560800 := by decide +kernel
  have hday := ((h _ _ hread).unguessed (by decide +kernel)).day
  revert hday
  decide +kernel

end Peal.Coordinator
