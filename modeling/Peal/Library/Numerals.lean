import Mathlib.Tactic

namespace Peal.Numerals

/-! # Decimal numerals, their fractions and the separators between their thousands -/

def value (digits : List Char) : Nat := Nat.ofDigitChars 10 digits 0

def AllDigits (s : List Char) : Prop := ∀ c ∈ s, c.isDigit = true

lemma value_append (ds es : List Char) : value (ds ++ es) = value ds * 10 ^ es.length + value es := by
  rw [value, Nat.ofDigitChars_append, Nat.ofDigitChars_eq_ofDigitChars_zero, mul_comm]
  rfl

lemma value_zeros (n : Nat) : value (List.replicate n '0') = 0 := by
  rw [value, Nat.ofDigitChars_replicate_zero, mul_zero]

lemma value_toDigits (n : Nat) : value (Nat.toDigits 10 n) = n := Nat.ofDigitChars_ten_toDigits

lemma allDigits_toDigits (n : Nat) : AllDigits (Nat.toDigits 10 n) := fun _ hc =>
  Nat.isDigit_of_mem_toDigits (by decide) (by decide) hc

lemma allDigits_zeros (n : Nat) : AllDigits (List.replicate n '0') := fun c hc => by
  rw [(List.mem_replicate.mp hc).2]
  rfl

lemma allDigits_append {ds es : List Char} : AllDigits (ds ++ es) ↔ AllDigits ds ∧ AllDigits es :=
  List.forall_mem_append

lemma value_lt {ds : List Char} (h : AllDigits ds) : value ds < 10 ^ ds.length := by
  induction ds using List.reverseRecOn with
  | nil => exact Nat.one_pos
  | append_singleton ds c ih =>
    obtain ⟨hds, hc⟩ := allDigits_append.mp h
    have hdigit := hc c List.mem_cons_self
    rw [Char.isDigit, Bool.and_eq_true, decide_eq_true_eq, decide_eq_true_eq] at hdigit
    have hlast : value [c] < 10 := by
      have hhigh : c.toNat ≤ 57 := hdigit.2
      have heq : value [c] = 0 * 10 + (c.toNat - 48) := by rw [value, Nat.ofDigitChars_eq_foldl]; rfl
      omega
    have hfront := ih hds
    rw [value_append, List.length_append, List.length_singleton, pow_succ]
    omega

lemma takeWhile_digits {first rest : List Char} (h : AllDigits first) (hrest : ∀ c ∈ rest.head?, c.isDigit = false) :
    (first ++ rest).takeWhile Char.isDigit = first ∧ (first ++ rest).dropWhile Char.isDigit = rest := by
  rw [List.takeWhile_append_of_pos h, List.dropWhile_append_of_pos h]
  cases rest with
  | nil => exact ⟨List.append_nil _, rfl⟩
  | cons c rest =>
    have hc := hrest c rfl
    simp [hc]

lemma toDigits_zero_head {n : Nat} (h : (Nat.toDigits 10 n).head? = some '0') : Nat.toDigits 10 n = ['0'] := by
  cases hdigits : Nat.toDigits 10 n with
  | nil => exact absurd hdigits Nat.toDigits_ne_nil
  | cons c tail =>
    rw [hdigits] at h
    obtain rfl := Option.some.inj h
    cases tail with
    | nil => rfl
    | cons d tail =>
      exfalso
      have hvalue : value (d :: tail) = n := by
        have hall : value (['0'] ++ d :: tail) = n := by
          rw [List.singleton_append, ← hdigits]
          exact value_toDigits n
        rw [value_append, show value ['0'] = 0 from rfl, zero_mul, zero_add] at hall
        exact hall
      have hlt : n < 10 ^ (d :: tail).length := by
        rw [← hvalue]
        exact value_lt fun e he => allDigits_toDigits n e (hdigits ▸ List.mem_cons_of_mem _ he)
      have hle := (Nat.length_toDigits_le_iff (by decide) (Nat.succ_pos _)).mpr hlt
      rw [hdigits, List.length_cons] at hle
      exact absurd hle (Nat.not_succ_le_self _)

/-! ### Thousands -/

/-- Groups of digits, each after the first behind a separator. -/
def separate (separator : Char) (first : List Char) (groups : List (List Char)) : List Char :=
  first ++ groups.flatMap fun g => separator :: g

/-- A first group of one to three digits, and the others of three. -/
def InThousands (first : List Char) (groups : List (List Char)) : Prop :=
  first ≠ [] ∧ first.length ≤ 3 ∧ ∀ g ∈ groups, g.length = 3

/-- Put a separator before every third digit from the end, but never first. -/
def grouped (separator : Char) : List Char → List Char
  | [] => []
  | c :: rest =>
    if rest ≠ [] ∧ rest.length % 3 = 0 then c :: separator :: grouped separator rest
    else c :: grouped separator rest

lemma grouped_eq (separator : Char) (digits : List Char) : ∃ first groups,
    grouped separator digits = separate separator first groups ∧ digits = first ++ groups.flatten ∧
      first.length ≤ 3 ∧ (first = [] → digits = []) ∧ first.length % 3 = digits.length % 3 ∧
      ∀ g ∈ groups, g.length = 3 := by
  induction digits with
  | nil => exact ⟨[], [], rfl, rfl, by simp, fun _ => rfl, rfl, fun g hg => absurd hg List.not_mem_nil⟩
  | cons c rest ih =>
    obtain ⟨first, groups, htext, hdigits, hlength, hempty, hmod, hgroups⟩ := ih
    rw [grouped, htext]
    split_ifs with hsep
    · have hthree : first.length = 3 := by
        have hne : first ≠ [] := fun hnil => hsep.1 (hempty hnil)
        have := List.length_pos_of_ne_nil hne
        omega
      refine ⟨[c], first :: groups, rfl, ?_, by simp, (fun h => by cases h), ?_, ?_⟩
      · rw [List.flatten_cons, ← hdigits]
        rfl
      · rw [List.length_singleton, List.length_cons]
        omega
      · exact List.forall_mem_cons.mpr ⟨hthree, hgroups⟩
    · have htwo : first.length ≤ 2 := by
        by_cases hnil : rest = []
        · rw [hnil] at hdigits
          rw [(List.append_eq_nil_iff.mp hdigits.symm).1]
          exact Nat.zero_le 2
        · have : rest.length % 3 ≠ 0 := fun hzero => hsep ⟨hnil, hzero⟩
          omega
      refine ⟨c :: first, groups, rfl, ?_, ?_, (fun h => by cases h), ?_, hgroups⟩
      · rw [hdigits]
        rfl
      · rw [List.length_cons]
        omega
      · rw [List.length_cons, List.length_cons]
        omega

lemma filter_separate {separator : Char} {first : List Char} {groups : List (List Char)}
    (h : ∀ c ∈ first ++ groups.flatten, c ≠ separator) :
    (separate separator first groups).filter (fun c => c ≠ separator) = first ++ groups.flatten := by
  obtain ⟨hfirst, hgroups⟩ := List.forall_mem_append.mp h
  have hkeep : ∀ s : List Char, (∀ c ∈ s, c ≠ separator) → s.filter (fun c => c ≠ separator) = s := fun s hs =>
    List.filter_eq_self.mpr fun c hc => decide_eq_true (hs c hc)
  rw [separate, List.filter_append, hkeep first hfirst]
  congr 1
  induction groups with
  | nil => rfl
  | cons g groups ih =>
    rw [List.flatten_cons] at hgroups h
    obtain ⟨hg, hrest⟩ := List.forall_mem_append.mp hgroups
    have hstep := ih (List.forall_mem_append.mpr ⟨hfirst, hrest⟩) hrest
    rw [List.flatMap_cons, List.filter_append, hstep, List.filter_cons_of_neg (by simp), hkeep g hg, List.flatten_cons]

/-! ### What a numeral denotes -/

/-- A numeral of whole digits and fraction digits; the thousands are separated throughout or not at all. -/
def Spells (separator point : Char) (text whole frac : List Char) : Prop :=
  ∃ first groups tail, text = separate separator first groups ++ tail ∧ whole = first ++ groups.flatten ∧
    (groups = [] ∨ InThousands first groups) ∧ (tail = [] ∧ frac = [] ∨ tail = point :: frac) ∧
    AllDigits whole ∧ AllDigits frac ∧ ¬(whole = [] ∧ frac = [])

def quantity (whole frac : List Char) : ℚ := value whole + value frac / 10 ^ frac.length

lemma quantity_eq (whole frac : List Char) {k : Nat} (h : frac.length ≤ k) :
    quantity whole frac = (value (whole ++ frac ++ List.replicate (k - frac.length) '0') : ℚ) / 10 ^ k := by
  have hk : (10 : ℚ) ^ k = 10 ^ frac.length * 10 ^ (k - frac.length) := by
    rw [← pow_add, Nat.add_sub_cancel' h]
  have hfrac : (10 : ℚ) ^ frac.length ≠ 0 := by positivity
  have hrest : (10 : ℚ) ^ (k - frac.length) ≠ 0 := by positivity
  rw [value_append, value_append, value_zeros, List.length_replicate, quantity, hk]
  push_cast
  field_simp
  ring

end Peal.Numerals
