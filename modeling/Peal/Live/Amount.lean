import Peal.Live.Record
import Peal.Library.Fallible
import Peal.Library.JsNumbers
import Peal.Library.JsStrings
import Peal.Library.Numerals

open Peal.Coordinator (Text)
open Peal.Fallible Peal.Numerals
open Peal.JsNumbers (roundNat shortest)
open Peal.JsStrings (trim isWhiteSpace)

namespace Peal.Live

/-! # What someone types, as minor units -/

/-- `(\.\d*)?$`. -/
def optionalFraction : Text → Bool
  | [] => true
  | c :: rest => c = '.' && rest.all Char.isDigit

/-- `(,\d{3})+(\.\d*)?$`. -/
def moreGroups : Text → Bool
  | s :: a :: b :: c :: rest =>
    s = ',' && a.isDigit && b.isDigit && c.isDigit && (optionalFraction rest || moreGroups rest)
  | _ => false

/-- `THOUSANDS`. -/
def thousands (text : Text) : Bool :=
  let first := text.takeWhile Char.isDigit
  1 ≤ first.length && first.length ≤ 3 && moreGroups (text.dropWhile Char.isDigit)

/-- `/^\d*(\.\d*)?$/`. -/
def plainNumber (raw : Text) : Bool := optionalFraction (raw.dropWhile Char.isDigit)

def padEnd (s : Text) (n : Nat) : Text := s ++ List.replicate (n - s.length) '0'

def padStart (s : Text) (n : Nat) : Text := List.replicate (n - s.length) '0' ++ s

def tooPrecise (decimals : Nat) : String :=
  let plural := if decimals = 1 then "" else "s"
  if decimals = 0 then "whole numbers only"
  else s!"at most {decimals} decimal place{plural}"

def parseAmount (text : Text) (decimals : Nat) : Except String Nat := do
  let typed := trim text
  require (typed ≠ []) "enter an amount"
  require (',' ∈ typed → thousands typed = true) "use a dot for decimals"
  let raw := typed.filter fun c => c ≠ ','
  require (plainNumber raw = true) "numbers only"
  let whole := raw.takeWhile fun c => c ≠ '.'
  let frac := ((raw.dropWhile fun c => c ≠ '.').drop 1).takeWhile fun c => c ≠ '.'
  require (¬(whole = [] ∧ frac = [])) "enter an amount"
  require (frac.length ≤ decimals) (tooPrecise decimals)
  let minor := roundNat (value ((if whole = [] then ['0'] else whole) ++ padEnd frac decimals))
  require (minor < 2 ^ 53) "that amount is too large"
  require (0 < minor) "enter an amount above zero"
  require (minor ≤ MAX_AMOUNT_MINOR) "that amount is too large"
  return minor

def formatAmount (minor : Int) (decimals : Nat) : Text :=
  let sign := if minor < 0 then ['-'] else []
  let digits := padStart (Nat.toDigits 10 (shortest minor.natAbs)) (decimals + 1)
  let whole := digits.take (digits.length - decimals)
  let frac := if 0 < decimals then '.' :: digits.drop (digits.length - decimals) else []
  sign ++ grouped ',' whole ++ frac

/-- The text is a numeral between white space, and the number is what the numeral denotes. -/
def Denotes (text : Text) (q : ℚ) : Prop :=
  ∃ before core after whole frac, text = before ++ core ++ after ∧ (∀ c ∈ before ++ after, isWhiteSpace c = true) ∧
    Spells ',' '.' core whole frac ∧ q = quantity whole frac

/-! ### The two patterns -/

lemma optionalFraction_iff {s : Text} :
    optionalFraction s = true ↔ ∃ frac, (s = [] ∧ frac = [] ∨ s = '.' :: frac) ∧ AllDigits frac := by
  cases s with
  | nil => exact iff_of_true rfl ⟨[], .inl ⟨rfl, rfl⟩, fun c hc => absurd hc List.not_mem_nil⟩
  | cons c rest =>
    rw [optionalFraction, Bool.and_eq_true, decide_eq_true_eq, List.all_eq_true]
    constructor
    · rintro ⟨rfl, hrest⟩
      exact ⟨rest, .inr rfl, hrest⟩
    · rintro ⟨frac, hs, hfrac⟩
      rcases hs with ⟨hnil, -⟩ | hcons
      · cases hnil
      · obtain ⟨rfl, rfl⟩ := List.cons.inj hcons
        exact ⟨rfl, hfrac⟩

lemma moreGroups_iff {s : Text} : moreGroups s = true ↔ ∃ groups tail, groups ≠ [] ∧
    s = groups.flatMap (fun g => ',' :: g) ++ tail ∧ (∀ g ∈ groups, g.length = 3 ∧ AllDigits g) ∧
      optionalFraction tail = true := by
  constructor
  · intro h
    induction s using moreGroups.induct with
    | case1 s a b c rest ih =>
      rw [moreGroups] at h
      simp only [Bool.and_eq_true, Bool.or_eq_true, decide_eq_true_eq] at h
      obtain ⟨⟨⟨⟨rfl, ha⟩, hb⟩, hc⟩, hrest⟩ := h
      have hgroup : [a, b, c].length = 3 ∧ AllDigits [a, b, c] := by
        refine ⟨rfl, fun d hd => ?_⟩
        simp only [List.mem_cons, List.not_mem_nil, or_false] at hd
        rcases hd with rfl | rfl | rfl
        · exact ha
        · exact hb
        · exact hc
      rcases hrest with hfraction | hmore
      · exact ⟨[[a, b, c]], rest, List.cons_ne_nil _ _, rfl, List.forall_mem_singleton.mpr hgroup, hfraction⟩
      · obtain ⟨groups, tail, -, rfl, hgroups, htail⟩ := ih hmore
        exact ⟨[a, b, c] :: groups, tail, List.cons_ne_nil _ _, rfl, List.forall_mem_cons.mpr ⟨hgroup, hgroups⟩, htail⟩
    | case2 s hshort =>
      rw [moreGroups] at h
      · cases h
      · exact hshort
  · rintro ⟨groups, tail, hne, rfl, hgroups, htail⟩
    induction groups with
    | nil => exact absurd rfl hne
    | cons g groups ih =>
      obtain ⟨⟨hlength, hg⟩, hrest⟩ := List.forall_mem_cons.mp hgroups
      obtain ⟨a, b, c, rfl⟩ := List.length_eq_three.mp hlength
      rw [List.flatMap_cons, List.append_assoc]
      simp only [List.cons_append, List.nil_append, moreGroups]
      rw [hg a (by simp), hg b (by simp), hg c (by simp)]
      cases groups with
      | nil => simp [htail]
      | cons g' groups =>
        rw [ih (List.cons_ne_nil _ _) hrest, Bool.or_true]
        rfl

lemma comma_not_digit : Char.isDigit ',' = false := by decide

lemma point_not_digit : Char.isDigit '.' = false := by decide

theorem thousands_iff {text : Text} : thousands text = true ↔ ∃ first groups tail, groups ≠ [] ∧
    text = separate ',' first groups ++ tail ∧ InThousands first groups ∧ AllDigits (first ++ groups.flatten) ∧
      optionalFraction tail = true := by
  unfold thousands
  simp only [Bool.and_eq_true, decide_eq_true_eq]
  rw [moreGroups_iff]
  constructor
  · rintro ⟨⟨hpos, hle⟩, groups, tail, hne, hrest, hgroups, htail⟩
    refine ⟨text.takeWhile Char.isDigit, groups, tail, hne, ?_, ⟨List.ne_nil_of_length_pos hpos, hle, fun g hg =>
      (hgroups g hg).1⟩, ?_, htail⟩
    · rw [separate, List.append_assoc, ← hrest, List.takeWhile_append_dropWhile]
    · refine allDigits_append.mpr ⟨fun c hc => List.mem_takeWhile_imp hc, fun c hc => ?_⟩
      obtain ⟨g, hg, hc⟩ := List.mem_flatten.mp hc
      exact (hgroups g hg).2 c hc
  · rintro ⟨first, groups, tail, hne, rfl, ⟨hfirst, hle, hthree⟩, hdigits, htail⟩
    obtain ⟨hdigitsFirst, hdigitsGroups⟩ := allDigits_append.mp hdigits
    have hhead : ∀ c ∈ (groups.flatMap (fun g => ',' :: g) ++ tail).head?, c.isDigit = false := by
      cases groups with
      | nil => exact absurd rfl hne
      | cons g groups =>
        intro c hc
        obtain rfl := Option.some.inj hc
        exact comma_not_digit
    obtain ⟨htake, hdrop⟩ := takeWhile_digits hdigitsFirst hhead
    rw [separate, List.append_assoc, htake, hdrop]
    exact ⟨⟨List.length_pos_of_ne_nil hfirst, hle⟩, groups, tail, hne, rfl,
      fun g hg => ⟨hthree g hg, fun c hc => hdigitsGroups c (List.mem_flatten.mpr ⟨g, hg, hc⟩)⟩, htail⟩

/-! ### What is typed denotes what is parsed -/

lemma digit_plain {c : Char} (h : c.isDigit = true) : c ≠ ',' ∧ c ≠ '.' ∧ isWhiteSpace c = false := by
  have hdigits : ∀ n < 10, (Nat.digitChar n ≠ ',' ∧ Nat.digitChar n ≠ '.' ∧ isWhiteSpace (Nat.digitChar n) = false) := by
    decide
  have hrange : 48 ≤ c.toNat ∧ c.toNat ≤ 57 := by
    simpa [Char.isDigit, UInt32.le_iff_toNat_le] using h
  have hcode : c = Nat.digitChar (c.toNat - 48) := by
    have hall : ∀ n < 10, Char.ofNat (n + 48) = Nat.digitChar n := by decide
    rw [← hall _ (by omega), Nat.sub_add_cancel hrange.1, Char.ofNat_toNat]
  rw [hcode]
  exact hdigits _ (by omega)

lemma tail_plain {tail frac : Text} (htail : tail = [] ∧ frac = [] ∨ tail = '.' :: frac) (hfrac : AllDigits frac) :
    (∀ c ∈ tail, c ≠ ',' ∧ isWhiteSpace c = false) ∧ (tail.takeWhile fun c => c ≠ '.') = [] ∧
      ((tail.dropWhile fun c => c ≠ '.').drop 1).takeWhile (fun c => c ≠ '.') = frac := by
  rcases htail with ⟨rfl, rfl⟩ | rfl
  · exact ⟨fun c hc => absurd hc List.not_mem_nil, rfl, rfl⟩
  · refine ⟨List.forall_mem_cons.mpr ⟨by decide, fun c hc => ?_⟩, by simp, ?_⟩
    · exact ⟨(digit_plain (hfrac c hc)).1, (digit_plain (hfrac c hc)).2.2⟩
    · have hkeep : frac.takeWhile (fun c => c ≠ '.') = frac :=
        List.takeWhile_eq_self_iff.mpr fun c hc => decide_eq_true (digit_plain (hfrac c hc)).2.1
      simpa using hkeep

lemma spells_parts {core whole frac : Text} (h : Spells ',' '.' core whole frac) :
    (core ≠ [] ∧ ∀ c ∈ core, isWhiteSpace c = false) ∧
      ((core.filter fun c => c ≠ ',').takeWhile fun c => c ≠ '.') = whole ∧
      (((core.filter fun c => c ≠ ',').dropWhile fun c => c ≠ '.').drop 1).takeWhile (fun c => c ≠ '.') = frac := by
  obtain ⟨first, groups, tail, rfl, rfl, -, htail, hwhole, hfrac, hsome⟩ := h
  obtain ⟨htailPlain, htailWhole, htailFrac⟩ := tail_plain htail hfrac
  have hraw : (separate ',' first groups ++ tail).filter (fun c => c ≠ ',') = first ++ groups.flatten ++ tail := by
    rw [List.filter_append, filter_separate fun c hc => (digit_plain (hwhole c hc)).1,
      List.filter_eq_self.mpr fun c hc => decide_eq_true (htailPlain c hc).1]
  have hstop : ∀ c ∈ first ++ groups.flatten, decide (c ≠ '.') = true := fun c hc =>
    decide_eq_true (digit_plain (hwhole c hc)).2.1
  obtain ⟨hfirst, hgroups⟩ := allDigits_append.mp hwhole
  refine ⟨⟨?_, ?_⟩, ?_, ?_⟩
  · intro hnil
    obtain ⟨hseparate, rfl⟩ := List.append_eq_nil_iff.mp hnil
    obtain ⟨rfl, hflat⟩ := List.append_eq_nil_iff.mp hseparate
    have hnone : groups = [] := by
      cases groups with
      | nil => rfl
      | cons g groups => cases hflat
    rcases htail with ⟨-, rfl⟩ | hcons
    · exact hsome ⟨by rw [hnone]; rfl, rfl⟩
    · cases hcons
  · refine List.forall_mem_append.mpr ⟨?_, fun c hc => (htailPlain c hc).2⟩
    refine List.forall_mem_append.mpr ⟨fun c hc => (digit_plain (hfirst c hc)).2.2, fun c hc => ?_⟩
    obtain ⟨g, hg, hc⟩ := List.mem_flatMap.mp hc
    rcases List.mem_cons.mp hc with rfl | hc
    · decide
    · exact (digit_plain (hgroups c (List.mem_flatten.mpr ⟨g, hg, hc⟩))).2.2
  · rw [hraw, List.takeWhile_append_of_pos hstop, htailWhole, List.append_nil]
  · rw [hraw, List.dropWhile_append_of_pos hstop]
    exact htailFrac

lemma Denotes.unique {text : Text} {q q' : ℚ} (h : Denotes text q) (h' : Denotes text q') : q = q' := by
  have hread {q : ℚ} (h : Denotes text q) : q = quantity (((trim text).filter fun c => c ≠ ',').takeWhile fun c => c ≠ '.')
      (((((trim text).filter fun c => c ≠ ',').dropWhile fun c => c ≠ '.').drop 1).takeWhile fun c => c ≠ '.') := by
    obtain ⟨before, core, after, whole, frac, rfl, hpad, hspells, rfl⟩ := h
    obtain ⟨⟨hne, hplain⟩, hwhole, hfrac⟩ := spells_parts hspells
    rw [JsStrings.trim_pad hpad (fun c hc => hplain c (List.mem_of_mem_head? hc))
      (fun c hc => hplain c (List.mem_of_getLast? hc)) hne, hwhole, hfrac]
  rw [hread h, hread h']

variable {text : Text} {decimals m : Nat}

lemma parseAmount_eq_ok : parseAmount text decimals = .ok m ↔
    trim text ≠ [] ∧ (',' ∈ trim text → thousands (trim text) = true) ∧
      plainNumber ((trim text).filter fun c => c ≠ ',') = true ∧
      let whole := ((trim text).filter fun c => c ≠ ',').takeWhile fun c => c ≠ '.'
      let frac := ((((trim text).filter fun c => c ≠ ',').dropWhile fun c => c ≠ '.').drop 1).takeWhile fun c => c ≠ '.'
      ¬(whole = [] ∧ frac = []) ∧ frac.length ≤ decimals ∧ m = value (whole ++ padEnd frac decimals) ∧ 0 < m ∧
        m ≤ MAX_AMOUNT_MINOR := by
  have hzero (whole rest : Text) : value ((if whole = [] then ['0'] else whole) ++ rest) = value (whole ++ rest) := by
    split_ifs with hnil
    · subst hnil
      rw [value_append, show value ['0'] = 0 from rfl, Nat.zero_mul, Nat.zero_add]
      rfl
    · rfl
  unfold parseAmount
  simp only [bind_eq_ok, require_eq_ok, pure_eq_ok, exists_const, hzero]
  constructor
  · rintro ⟨hne, hcomma, hplain, hsome, hfrac, hsafe, hpos, hmax, rfl⟩
    have hexact := JsNumbers.eq_of_roundNat rfl hsafe
    rw [← hexact] at hpos hmax ⊢
    exact ⟨hne, hcomma, hplain, hsome, hfrac, rfl, hpos, hmax⟩
  · rintro ⟨hne, hcomma, hplain, hsome, hfrac, rfl, hpos, hmax⟩
    have hsmall : MAX_AMOUNT_MINOR < 2 ^ 53 := by decide
    rw [JsNumbers.roundNat_of_lt (lt_of_le_of_lt hmax hsmall)]
    exact ⟨hne, hcomma, hplain, hsome, hfrac, lt_of_le_of_lt hmax hsmall, hpos, hmax, rfl⟩

lemma typed_spells {typed : Text} (hcomma : ',' ∈ typed → thousands typed = true)
    (hplain : plainNumber (typed.filter fun c => c ≠ ',') = true)
    (hsome : ¬((typed.filter fun c => c ≠ ',').takeWhile (fun c => c ≠ '.') = [] ∧
      (((typed.filter fun c => c ≠ ',').dropWhile fun c => c ≠ '.').drop 1).takeWhile (fun c => c ≠ '.') = [])) :
    ∃ whole frac, Spells ',' '.' typed whole frac := by
  by_cases hmem : ',' ∈ typed
  · obtain ⟨first, groups, tail, -, htyped, hshape, hdigits, htail⟩ := thousands_iff.mp (hcomma hmem)
    obtain ⟨frac, hparts, hfrac⟩ := optionalFraction_iff.mp htail
    refine ⟨_, frac, first, groups, tail, htyped, rfl, .inr hshape, hparts, hdigits, hfrac, ?_⟩
    rintro ⟨hnil, -⟩
    exact hshape.1 (List.append_eq_nil_iff.mp hnil).1
  · have hraw : (typed.filter fun c => c ≠ ',') = typed :=
      List.filter_eq_self.mpr fun c hc => decide_eq_true fun heq => hmem (heq ▸ hc)
    rw [hraw] at hplain hsome
    obtain ⟨frac, hparts, hfrac⟩ := optionalFraction_iff.mp hplain
    have hwhole : AllDigits (typed.takeWhile Char.isDigit) := fun c hc => List.mem_takeWhile_imp hc
    have hsplit : typed.takeWhile Char.isDigit ++ typed.dropWhile Char.isDigit = typed :=
      List.takeWhile_append_dropWhile
    refine ⟨_, frac, typed.takeWhile Char.isDigit, [], typed.dropWhile Char.isDigit, ?_, (List.append_nil _).symm,
      .inl rfl, hparts, hwhole, hfrac, ?_⟩
    · rw [separate, List.flatMap_nil, List.append_nil, hsplit]
    · rintro ⟨hnil, rfl⟩
      rw [hnil, List.nil_append] at hsplit
      obtain ⟨-, htailWhole, htailFrac⟩ := tail_plain hparts hfrac
      rw [hsplit] at htailWhole htailFrac
      exact hsome ⟨htailWhole, htailFrac⟩

lemma spells_passes {core whole frac : Text} (h : Spells ',' '.' core whole frac) :
    (',' ∈ core → thousands core = true) ∧ plainNumber (core.filter fun c => c ≠ ',') = true := by
  obtain ⟨first, groups, tail, rfl, rfl, hshape, htail, hwhole, hfrac, -⟩ := h
  have hfraction : optionalFraction tail = true := optionalFraction_iff.mpr ⟨frac, htail, hfrac⟩
  obtain ⟨htailPlain, -⟩ := tail_plain htail hfrac
  have hhead : ∀ c ∈ tail.head?, c.isDigit = false := by
    rcases htail with ⟨rfl, -⟩ | rfl
    · exact fun c hc => by cases hc
    · intro c hc
      obtain rfl := Option.some.inj hc
      exact point_not_digit
  constructor
  · intro hmem
    rcases hshape with rfl | hshape
    · rw [List.flatten_nil, List.append_nil] at hwhole
      rw [separate, List.flatMap_nil, List.append_nil] at hmem
      rcases List.mem_append.mp hmem with hc | hc
      · exact absurd rfl (digit_plain (hwhole _ hc)).1
      · exact absurd rfl (htailPlain _ hc).1
    · by_cases hnil : groups = []
      · subst hnil
        rw [List.flatten_nil, List.append_nil] at hwhole
        rw [separate, List.flatMap_nil, List.append_nil] at hmem
        rcases List.mem_append.mp hmem with hc | hc
        · exact absurd rfl (digit_plain (hwhole _ hc)).1
        · exact absurd rfl (htailPlain _ hc).1
      · exact thousands_iff.mpr ⟨first, groups, tail, hnil, rfl, hshape, hwhole, hfraction⟩
  · rw [plainNumber, List.filter_append, filter_separate fun c hc => (digit_plain (hwhole c hc)).1,
      List.filter_eq_self.mpr fun c hc => decide_eq_true (htailPlain c hc).1, (takeWhile_digits hwhole hhead).2]
    exact hfraction

lemma parseAmount_denotes (h : parseAmount text decimals = .ok m) : Denotes text (m / 10 ^ decimals) := by
  obtain ⟨-, hcomma, hplain, hsome, hfits, rfl, -⟩ := parseAmount_eq_ok.mp h
  obtain ⟨whole, frac, hspells⟩ := typed_spells hcomma hplain hsome
  obtain ⟨-, hwhole, hfrac⟩ := spells_parts hspells
  obtain ⟨before, after, htext, hpad⟩ := JsStrings.trim_split text
  rw [hwhole, hfrac]
  rw [hfrac] at hfits
  refine ⟨before, trim text, after, whole, frac, htext, hpad, hspells, ?_⟩
  rw [quantity_eq whole frac hfits, padEnd, List.append_assoc]

/-! ### What is shown parses as itself -/

lemma formatAmount_spells (hpos : 0 < m) (hmax : m ≤ MAX_AMOUNT_MINOR) : ∃ whole frac,
    Spells ',' '.' (formatAmount m decimals) whole frac ∧ frac.length = decimals ∧ value (whole ++ frac) = m := by
  have hsmall : MAX_AMOUNT_MINOR < 2 ^ 53 := by decide
  have hshortest : shortest m = m := JsNumbers.shortest_of_lt (lt_of_le_of_lt hmax hsmall)
  have hsign : ¬(m : Int) < 0 := by omega
  unfold formatAmount
  dsimp only
  rw [if_neg hsign, List.nil_append, Int.natAbs_natCast, hshortest]
  generalize hdigits : padStart (Nat.toDigits 10 m) (decimals + 1) = digits
  have hall : AllDigits digits := by
    rw [← hdigits, padStart]
    exact allDigits_append.mpr ⟨allDigits_zeros _, allDigits_toDigits m⟩
  have hvalue : value digits = m := by
    rw [← hdigits, padStart, value_append, value_zeros, Nat.zero_mul, Nat.zero_add, value_toDigits]
  have hlong : decimals < digits.length := by
    rw [← hdigits, padStart, List.length_append, List.length_replicate]
    omega
  obtain ⟨first, groups, htext, hwhole, hthree, hempty, -, hgroups⟩ :=
    grouped_eq ',' (digits.take (digits.length - decimals))
  have hcut : digits.take (digits.length - decimals) ++ digits.drop (digits.length - decimals) = digits :=
    List.take_append_drop _ _
  have hlength : (digits.drop (digits.length - decimals)).length = decimals := by
    rw [List.length_drop]
    omega
  have htake : digits.take (digits.length - decimals) ≠ [] := by
    rw [← List.length_pos_iff, List.length_take]
    omega
  have hdigitsBoth := hcut ▸ hall
  obtain ⟨hwholeDigits, hfracDigits⟩ := allDigits_append.mp hdigitsBoth
  refine ⟨_, _, ⟨first, groups, if 0 < decimals then '.' :: digits.drop (digits.length - decimals) else [],
    by rw [htext], hwhole, .inr ⟨fun hnil => htake (hempty hnil), hthree, hgroups⟩, ?_, hwholeDigits, hfracDigits,
    fun hnil => htake hnil.1⟩, hlength, by rw [hcut, hvalue]⟩
  split_ifs with hd
  · exact .inr rfl
  · exact .inl ⟨rfl, List.eq_nil_of_length_eq_zero (by omega)⟩

lemma parseAmount_formatAmount (hpos : 0 < m) (hmax : m ≤ MAX_AMOUNT_MINOR) :
    parseAmount (formatAmount m decimals) decimals = .ok m := by
  obtain ⟨whole, frac, hspells, hlength, hvalue⟩ : ∃ whole frac,
    Spells ',' '.' (formatAmount m decimals) whole frac ∧ _ ∧ _ := formatAmount_spells hpos hmax
  obtain ⟨⟨hne, hplain⟩, hwhole, hfrac⟩ := spells_parts hspells
  obtain ⟨hcomma, hpattern⟩ := spells_passes hspells
  have htrim : trim (formatAmount m decimals) = formatAmount m decimals := by
    have hpad : trim ([] ++ formatAmount m decimals ++ []) = formatAmount m decimals :=
      JsStrings.trim_pad (fun c hc => absurd hc List.not_mem_nil)
        (fun c hc => hplain c (List.mem_of_mem_head? hc)) (fun c hc => hplain c (List.mem_of_getLast? hc)) hne
    rwa [List.nil_append, List.append_nil] at hpad
  have hsome : ¬(whole = [] ∧ frac = []) := by
    rintro ⟨rfl, rfl⟩
    rw [show value ([] ++ []) = 0 from rfl] at hvalue
    omega
  have hpadEnd : padEnd frac decimals = frac := by
    rw [padEnd, hlength, Nat.sub_self, List.replicate_zero, List.append_nil]
  rw [parseAmount_eq_ok, htrim, hwhole, hfrac]
  dsimp only
  rw [hpadEnd, hlength, hvalue]
  exact ⟨hne, hcomma, hpattern, hsome, le_refl _, rfl, hpos, hmax⟩

/-- A parsed amount is exactly what its text denotes, and within the bounds of a bid; and every amount within them
parses from the text it is shown as. -/
theorem amounts_exact (decimals : Nat) :
    (∀ text m, parseAmount text decimals = .ok m →
      (∀ q, Denotes text q ↔ q = m / 10 ^ decimals) ∧ 0 < m ∧ m ≤ MAX_AMOUNT_MINOR) ∧
    ∀ m, 0 < m → m ≤ MAX_AMOUNT_MINOR → parseAmount (formatAmount m decimals) decimals = .ok m := by
  refine ⟨fun text m h => ⟨fun q => ⟨fun hq => hq.unique (parseAmount_denotes h), ?_⟩, ?_⟩,
    fun m hpos hmax => parseAmount_formatAmount hpos hmax⟩
  · rintro rfl
    exact parseAmount_denotes h
  · obtain ⟨-, -, -, -, -, -, hpos, hmax⟩ := parseAmount_eq_ok.mp h
    exact ⟨hpos, hmax⟩

example : parseAmount "1,234.5".toList 2 = .ok 123450 := by decide +kernel

end Peal.Live
