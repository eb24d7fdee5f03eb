import Peal.Library.JsJson

namespace Peal.JsDecimals
open Peal.Doubles Peal.Numerals
open Peal.Json (Ends)
open Peal.JsJson (parseFraction parseExponent parseMagnitude parseNumber takeSign ends_tail)

/-! # Doubles as a script engine prints them

With the fewest digits that read back as the number; of those the nearest to it. -/

/-- The nearer of the two numbers of that many digits around a positive one, as a whole number and a power of ten, if it
reads back. -/
def candidate (q : ℚ) (digits : Nat) : Option (Nat × ℤ) :=
  let e := Int.log 10 q + 1 - digits
  let low := ⌊q / 10 ^ e⌋.toNat
  let nearer := q - low * 10 ^ e < (low + 1) * 10 ^ e - q ∨ (q - low * 10 ^ e = (low + 1) * 10 ^ e - q ∧ low % 2 = 0)
  if nearest (low * 10 ^ e) = q ∧ (nearest ((low + 1 : Nat) * 10 ^ e) ≠ q ∨ nearer) then some (low, e)
  else if nearest ((low + 1 : Nat) * 10 ^ e) = q then some (low + 1, e)
  else none

/-- Every double has a decimal expansion of its own; none needs more than seventeen digits to be told from the others. -/
def shortest (q : ℚ) : Nat × ℤ :=
  ((List.range' 1 17).findSome? (candidate q)).getD ((q * 10 ^ 1074).num.natAbs, -1074)

def significant (s : Nat) : List Char := (Nat.toDigits 10 s).rdropWhile (· = '0')

/-- Of digits whose decimal point stands after the `n`-th. -/
def layout (digits : List Char) (n : ℤ) : List Char :=
  if digits.length ≤ n ∧ n ≤ 21 then digits ++ List.replicate (n - digits.length).toNat '0'
  else if 0 < n ∧ n ≤ 21 then digits.take n.toNat ++ '.' :: digits.drop n.toNat
  else if -6 < n ∧ n ≤ 0 then '0' :: '.' :: (List.replicate (-n).toNat '0' ++ digits)
  else
    match digits with
    | [] => []
    | d :: rest => d :: ((if rest = [] then [] else '.' :: rest) ++
        'e' :: (if 0 < n then '+' else '-') :: Nat.toDigits 10 (n - 1).natAbs)

def magnitudeText (q : ℚ) : List Char :=
  layout (significant (shortest q).1) ((Nat.toDigits 10 (shortest q).1).length + (shortest q).2)

/-- `String` of a number. -/
def text : Double → List Char
  | .nan => "NaN".toList
  | .infinite true => "-Infinity".toList
  | .infinite false => "Infinity".toList
  | .finite q _ => if q = 0 then ['0'] else if q < 0 then '-' :: magnitudeText (-q) else magnitudeText q

/-! ### Rounding is the same on both sides of zero -/

lemma roundEven_neg (q : ℚ) : roundEven (-q) = -roundEven q := by
  by_cases hint : (⌊q⌋ : ℚ) = q
  · rw [← hint, ← Int.cast_neg, roundEven_intCast, roundEven_intCast]
  · have hle := Int.floor_le q
    have hlt := Int.lt_floor_add_one q
    have hpos : 0 < q - ⌊q⌋ := sub_pos.mpr (lt_of_le_of_ne hle hint)
    have hfloor : ⌊-q⌋ = -(⌊q⌋ + 1) := by
      rw [Int.floor_eq_iff]
      push_cast
      constructor <;> linarith
    have hrest : -q - ((-(⌊q⌋ + 1) : ℤ) : ℚ) = 1 - (q - ⌊q⌋) := by
      push_cast
      ring
    unfold roundEven
    rw [hfloor, hrest]
    generalize q - ⌊q⌋ = f at *
    rcases lt_trichotomy f (1 / 2) with hlow | rfl | hhigh
    · rw [if_neg (by rintro (h | ⟨h, -⟩) <;> linarith), if_pos (.inl hlow)]
      omega
    · have hhalf : (1 : ℚ) - 1 / 2 = 1 / 2 := by norm_num
      rw [hhalf]
      by_cases heven : ⌊q⌋ % 2 = 0
      · have hodd : ¬-(⌊q⌋ + 1) % 2 = 0 := by omega
        rw [if_neg (fun h => h.elim (lt_irrefl _) fun h => hodd h.2), if_pos (.inr ⟨rfl, heven⟩)]
        omega
      · have hodd : -(⌊q⌋ + 1) % 2 = 0 := by omega
        rw [if_pos (.inr ⟨rfl, hodd⟩), if_neg (fun h => h.elim (lt_irrefl _) fun h => heven h.2)]
    · rw [if_pos (.inl (by linarith)), if_neg (by rintro (h | ⟨h, -⟩) <;> linarith)]

lemma nearest_neg (q : ℚ) : nearest (-q) = -nearest q := by
  have hexp : exponent (-q) = exponent q := by unfold exponent; rw [abs_neg]
  unfold nearest
  rw [hexp, neg_div, roundEven_neg]
  push_cast
  ring

/-! ### Digits that read back -/

lemma candidate_reads {q : ℚ} {digits : Nat} {r : Nat × ℤ} (h : candidate q digits = some r) :
    nearest (r.1 * 10 ^ r.2) = q := by
  unfold candidate at h
  dsimp only at h
  split_ifs at h with hlow hhigh
  · rw [← Option.some.inj h]
    exact hlow.1
  · rw [← Option.some.inj h]
    exact hhigh

lemma ten_pow (n : Nat) : (10 : ℚ) ^ n = 2 ^ n * 5 ^ n := by
  rw [← mul_pow]
  norm_num

lemma expansion_of {q : ℚ} (hq : nearest q = q) {n : Nat} (h : -(n : ℤ) ≤ exponent q) : ∃ m : ℤ, q * 10 ^ n = m := by
  refine ⟨roundEven (q / 2 ^ exponent q) * 2 ^ (exponent q + n).toNat * 5 ^ n, ?_⟩
  have hpow : (2 : ℚ) ^ (exponent q + n).toNat = 2 ^ exponent q * 2 ^ n := by
    rw [← zpow_natCast, Int.toNat_of_nonneg (by omega), zpow_add₀ (by norm_num), zpow_natCast]
  unfold nearest at hq
  push_cast
  rw [hpow, ten_pow]
  nth_rewrite 1 [← hq]
  ring

lemma expansion {q : ℚ} (hq : IsDouble q) : ∃ m : ℤ, q * 10 ^ 1074 = m :=
  expansion_of hq.exact (le_max_right _ _)

lemma shortest_reads {q : ℚ} (hq : IsDouble q) (hpos : 0 < q) : nearest ((shortest q).1 * 10 ^ (shortest q).2) = q := by
  unfold shortest
  cases hfound : (List.range' 1 17).findSome? (candidate q) with
  | some r =>
    obtain ⟨digits, -, hdigits⟩ := List.exists_of_findSome?_eq_some hfound
    exact candidate_reads hdigits
  | none =>
    obtain ⟨n, hn⟩ := expansion hq
    have hnonneg : 0 ≤ n := by
      have hprod : (0 : ℚ) ≤ q * 10 ^ 1074 := mul_nonneg hpos.le (pow_nonneg (by norm_num) _)
      rw [hn] at hprod
      exact_mod_cast hprod
    have hnum : ((q * 10 ^ 1074).num.natAbs : ℚ) = q * 10 ^ 1074 := by
      rw [hn, Rat.num_intCast]
      have habs : (n.natAbs : ℤ) = n := Int.natAbs_of_nonneg hnonneg
      rw [← Int.cast_natCast, habs]
    rw [Option.getD_none]
    dsimp only
    rw [hnum, zpow_neg, mul_assoc]
    have hone : (10 : ℚ) ^ 1074 * ((10 : ℚ) ^ (1074 : ℤ))⁻¹ = 1 := by
      rw [← zpow_natCast]
      exact mul_inv_cancel₀ (zpow_ne_zero _ (by norm_num))
    rw [hone, mul_one]
    exact hq.exact

lemma shortest_pos {q : ℚ} (hq : IsDouble q) (hpos : 0 < q) : 0 < (shortest q).1 := by
  rw [Nat.pos_iff_ne_zero]
  intro hzero
  have hreads := shortest_reads hq hpos
  have hround : roundEven 0 = 0 := by exact_mod_cast roundEven_intCast 0
  rw [hzero, Nat.cast_zero, zero_mul, nearest, zero_div, hround, Int.cast_zero, zero_mul] at hreads
  exact hpos.ne hreads

/-! ### The layouts of a numeral read back -/

section Layout

variable {digits rest : List Char} {n : ℤ}

lemma parseMagnitude_parts {whole fraction text text' : List Char} {e : ℤ} (hwhole : AllDigits whole) (hne : whole ≠ [])
    (hzero : whole.head? = some '0' → whole = ['0']) (hstop : ∀ c ∈ text.head?, c.isDigit = false)
    (hfraction : parseFraction text = some (fraction, text')) (hexponent : parseExponent text' = some (e, rest)) :
    parseMagnitude (whole ++ text) = some ((value (whole ++ fraction) : ℚ) * 10 ^ (e - fraction.length), rest) := by
  obtain ⟨htake, hdrop⟩ := takeWhile_digits hwhole hstop
  unfold parseMagnitude
  rw [htake, hdrop, hfraction]
  simp only [Option.bind_eq_bind, Option.bind_some, hexponent, Option.pure_def]
  rw [guard, if_pos ⟨hne, hzero⟩]
  rfl

lemma parseFraction_digits (hdigits : AllDigits digits) (hne : digits ≠ []) {text : List Char}
    (hstop : ∀ c ∈ text.head?, c.isDigit = false) : parseFraction ('.' :: (digits ++ text)) = some (digits, text) := by
  obtain ⟨htake, hdrop⟩ := takeWhile_digits hdigits hstop
  rw [parseFraction, if_pos rfl]
  dsimp only
  rw [htake, hdrop, if_neg hne]

lemma parseExponent_digits (m : ℤ) (hrest : ∀ c ∈ rest.head?, c.isDigit = false) :
    parseExponent ('e' :: (if 0 ≤ m then '+' else '-') :: (Nat.toDigits 10 m.natAbs ++ rest)) = some (m, rest) := by
  obtain ⟨htake, hdrop⟩ := takeWhile_digits (allDigits_toDigits m.natAbs) hrest
  rw [parseExponent, if_pos (.inl rfl)]
  by_cases hm : 0 ≤ m
  · rw [if_pos hm, takeSign, if_neg (by decide), if_pos rfl]
    dsimp only
    rw [htake, hdrop, if_neg Nat.toDigits_ne_nil, value_toDigits, if_neg (by decide), Int.natAbs_of_nonneg hm]
  · rw [if_neg hm, takeSign, if_pos rfl]
    dsimp only
    rw [htake, hdrop, if_neg Nat.toDigits_ne_nil, value_toDigits, if_pos rfl]
    have habs : -(m.natAbs : ℤ) = m := by omega
    rw [habs]

/-- A numeral reads as the number its digits and its point spell. -/
theorem parseMagnitude_layout (hdigits : AllDigits digits) (hne : digits ≠ []) (hzero : digits.head? ≠ some '0')
    (hrest : Ends rest) : parseMagnitude (layout digits n ++ rest) =
      some ((value digits : ℚ) * 10 ^ (n - digits.length), rest) := by
  obtain ⟨hstop, hfraction, hexponent⟩ := ends_tail hrest
  unfold layout
  by_cases hwhole : digits.length ≤ n ∧ n ≤ 21
  · rw [if_pos hwhole]
    have hall : AllDigits (digits ++ List.replicate (n - digits.length).toNat '0') :=
      allDigits_append.mpr ⟨hdigits, allDigits_zeros _⟩
    have hhead : (digits ++ List.replicate (n - digits.length).toNat '0').head? ≠ some '0' := by
      rw [List.head?_append_of_ne_nil _ hne]
      exact hzero
    have hlength : (n - digits.length : ℤ) = ((n - digits.length).toNat : ℤ) := by omega
    rw [parseMagnitude_parts hall (List.append_ne_nil_of_left_ne_nil hne _) (fun h => absurd h hhead) hstop hfraction
      hexponent, List.append_nil, value_append, value_zeros, List.length_replicate, hlength, Int.toNat_natCast]
    simp
  rw [if_neg hwhole]
  by_cases hpoint : 0 < n ∧ n ≤ 21
  · -- The point stands between two of the digits.
    rw [if_pos hpoint]
    have hshort : n.toNat < digits.length := by omega
    have hfront : digits.take n.toNat ≠ [] := by
      rw [Ne, List.take_eq_nil_iff]
      exact not_or.mpr ⟨by omega, hne⟩
    have hback : digits.drop n.toNat ≠ [] := by
      rw [Ne, List.drop_eq_nil_iff]
      omega
    have hhead : (digits.take n.toNat).head? ≠ some '0' := by
      rw [List.head?_take, if_neg (by omega)]
      exact hzero
    have htake : AllDigits (digits.take n.toNat) := fun c hc => hdigits c (List.mem_of_mem_take hc)
    have hdrop : AllDigits (digits.drop n.toNat) := fun c hc => hdigits c (List.mem_of_mem_drop hc)
    have hmark : ∀ c ∈ ('.' :: (digits.drop n.toNat ++ rest)).head?, c.isDigit = false := fun c hc => by
      obtain rfl := Option.some.inj hc
      rfl
    rw [List.append_assoc, List.cons_append, parseMagnitude_parts htake hfront (fun h => absurd h hhead) hmark
      (parseFraction_digits hdrop hback hstop) hexponent, List.take_append_drop, List.length_drop]
    have hplaces : (0 - ((digits.length - n.toNat : Nat) : ℤ)) = n - digits.length := by omega
    rw [hplaces]
  rw [if_neg hpoint]
  by_cases hsmall : -6 < n ∧ n ≤ 0
  · rw [if_pos hsmall]
    have hall : AllDigits (List.replicate (-n).toNat '0' ++ digits) := allDigits_append.mpr ⟨allDigits_zeros _, hdigits⟩
    have hzeros : AllDigits ['0'] := allDigits_zeros 1
    have hmark : ∀ c ∈ ('.' :: (List.replicate (-n).toNat '0' ++ digits ++ rest)).head?, c.isDigit = false := fun c hc => by
      obtain rfl := Option.some.inj hc
      rfl
    have hshape : ('0' :: '.' :: (List.replicate (-n).toNat '0' ++ digits)) ++ rest =
        ['0'] ++ '.' :: (List.replicate (-n).toNat '0' ++ digits ++ rest) := rfl
    rw [hshape, parseMagnitude_parts hzeros (by decide) (fun _ => rfl) hmark
      (parseFraction_digits hall (List.append_ne_nil_of_right_ne_nil _ hne) hstop) hexponent]
    have hvalue : value (['0'] ++ (List.replicate (-n).toNat '0' ++ digits)) = value digits := by
      rw [← List.append_assoc, show ['0'] = List.replicate 1 '0' from rfl, ← List.replicate_add, value_append, value_zeros,
        zero_mul, zero_add]
    have hplaces : (0 - ((List.replicate (-n).toNat '0' ++ digits).length : ℤ)) = n - digits.length := by
      rw [List.length_append, List.length_replicate]
      omega
    rw [hvalue, hplaces]
  rw [if_neg hsmall]
  cases digits with
  | nil => exact absurd rfl hne
  | cons d more =>
    have hsign : (if 0 < n then '+' else '-') = if 0 ≤ n - 1 then '+' else '-' := by
      by_cases h : 0 < n
      · rw [if_pos h, if_pos (by omega)]
      · rw [if_neg h, if_neg (by omega)]
    have hone : AllDigits [d] := fun c hc => hdigits c (by rw [List.mem_singleton.mp hc]; exact List.mem_cons_self)
    have hmore : AllDigits more := fun c hc => hdigits c (List.mem_cons_of_mem _ hc)
    have hread := parseExponent_digits (n - 1) hstop
    have hplaces : n - 1 - (more.length : ℤ) = n - ((d :: more).length : ℤ) := by
      rw [List.length_cons]
      omega
    have hexp : ∀ c ∈ ('e' :: (if 0 ≤ n - 1 then '+' else '-') :: (Nat.toDigits 10 (n - 1).natAbs ++ rest)).head?,
        c.isDigit = false := fun c hc => by
      obtain rfl := Option.some.inj hc
      rfl
    dsimp only
    rw [hsign, ← hplaces]
    by_cases hnil : more = []
    · subst hnil
      exact parseMagnitude_parts hone (List.cons_ne_nil _ _) (fun h => by rw [Option.some.inj h]) hexp
        (show parseFraction _ = some ([], _) from rfl) hread
    · have hshape : d :: ((if more = [] then [] else '.' :: more) ++ 'e' :: (if 0 ≤ n - 1 then '+' else '-') ::
          Nat.toDigits 10 (n - 1).natAbs) ++ rest = [d] ++ '.' :: (more ++ 'e' :: (if 0 ≤ n - 1 then '+' else '-') ::
            (Nat.toDigits 10 (n - 1).natAbs ++ rest)) := by
        rw [if_neg hnil]
        simp only [List.cons_append, List.append_assoc, List.nil_append]
      have hmark : ∀ c ∈ ('.' :: (more ++ 'e' :: (if 0 ≤ n - 1 then '+' else '-') ::
          (Nat.toDigits 10 (n - 1).natAbs ++ rest))).head?, c.isDigit = false := fun c hc => by
        obtain rfl := Option.some.inj hc
        rfl
      rw [hshape]
      exact parseMagnitude_parts hone (List.cons_ne_nil _ _) (fun h => by rw [Option.some.inj h]) hmark
        (parseFraction_digits hmore hnil hexp) hread

end Layout

/-! ### Numbers read back -/

lemma significant_digits {m : Nat} (hm : 0 < m) : AllDigits (significant m) ∧ significant m ≠ [] ∧
    (significant m).head? ≠ some '0' ∧ ∃ k, (Nat.toDigits 10 m).length = (significant m).length + k ∧
      m = value (significant m) * 10 ^ k := by
  have hsplit := List.rdropWhile_append_rtakeWhile (p := fun c => c = '0') (l := Nat.toDigits 10 m)
  obtain ⟨k, hzeros⟩ : ∃ k, (Nat.toDigits 10 m).rtakeWhile (fun c => c = '0') = List.replicate k '0' := by
    refine ⟨_, List.eq_replicate_iff.mpr ⟨rfl, fun c hc => ?_⟩⟩
    have hzero := List.mem_rtakeWhile_imp hc
    exact of_decide_eq_true hzero
  rw [hzeros] at hsplit
  change significant m ++ List.replicate k '0' = Nat.toDigits 10 m at hsplit
  have hvalue : m = value (significant m) * 10 ^ k := by
    conv_lhs => rw [← value_toDigits m, ← hsplit, value_append, value_zeros, List.length_replicate, add_zero]
  have hne : significant m ≠ [] := by
    intro hnil
    rw [hnil, show value [] = 0 from rfl, zero_mul] at hvalue
    omega
  refine ⟨fun c hc => allDigits_toDigits m c (hsplit ▸ List.mem_append_left _ hc), hne, ?_, k, ?_, hvalue⟩
  · intro hhead
    have hfirst : (Nat.toDigits 10 m).head? = some '0' := by
      rw [← hsplit, List.head?_append_of_ne_nil _ hne, hhead]
    have hone := value_toDigits m
    rw [toDigits_zero_head hfirst] at hone
    exact absurd hone hm.ne
  · rw [← hsplit, List.length_append, List.length_replicate]

lemma parseMagnitude_text {q : ℚ} (hq : IsDouble q) (hpos : 0 < q) {rest : List Char} (hrest : Ends rest) :
    ∃ r, parseMagnitude (magnitudeText q ++ rest) = some (r, rest) ∧ nearest r = q := by
  obtain ⟨hdigits, hne, hzero, k, hlength, hvalue⟩ := significant_digits (shortest_pos hq hpos)
  refine ⟨_, parseMagnitude_layout hdigits hne hzero hrest, ?_⟩
  have hplaces : ((Nat.toDigits 10 (shortest q).1).length + (shortest q).2 - (significant (shortest q).1).length : ℤ) =
      k + (shortest q).2 := by
    rw [hlength]
    push_cast
    ring
  have hsame : (value (significant (shortest q).1) : ℚ) * 10 ^ ((Nat.toDigits 10 (shortest q).1).length +
      (shortest q).2 - (significant (shortest q).1).length : ℤ) = (shortest q).1 * 10 ^ (shortest q).2 := by
    rw [hplaces, zpow_add₀ (by norm_num), ← mul_assoc, zpow_natCast]
    conv_rhs => rw [hvalue]
    push_cast
    rfl
  rw [hsame]
  exact shortest_reads hq hpos

lemma magnitudeText_cons {q : ℚ} (hq : IsDouble q) (hpos : 0 < q) :
    ∃ c tail, magnitudeText q = c :: tail ∧ c.isDigit = true := by
  obtain ⟨hdigits, hne, -⟩ := significant_digits (shortest_pos hq hpos)
  unfold magnitudeText
  cases hsig : significant (shortest q).1 with
  | nil => exact absurd hsig hne
  | cons d more =>
    have hd : d.isDigit = true := hdigits d (by rw [hsig]; exact List.mem_cons_self)
    generalize ((Nat.toDigits 10 (shortest q).1).length + (shortest q).2 : ℤ) = n
    unfold layout
    by_cases hwhole : ((d :: more).length : ℤ) ≤ n ∧ n ≤ 21
    · rw [if_pos hwhole]
      exact ⟨d, _, rfl, hd⟩
    rw [if_neg hwhole]
    by_cases hpoint : 0 < n ∧ n ≤ 21
    · obtain ⟨k, hk⟩ : ∃ k, n.toNat = k + 1 := Nat.exists_eq_succ_of_ne_zero (by omega)
      rw [if_pos hpoint, hk]
      exact ⟨d, _, rfl, hd⟩
    rw [if_neg hpoint]
    by_cases hsmall : -6 < n ∧ n ≤ 0
    · rw [if_pos hsmall]
      exact ⟨'0', _, rfl, rfl⟩
    rw [if_neg hsmall]
    exact ⟨d, _, rfl, hd⟩

/-- `Number.isFinite`. -/
def isFinite : Double → Bool
  | .finite _ _ => true
  | _ => false

lemma text_finite {q : ℚ} (hq : IsDouble q) : text (.finite q hq) =
    if q = 0 then ['0'] else if q < 0 then '-' :: magnitudeText (-q) else magnitudeText q := rfl

/-- A finite number reads back as it was printed. -/
theorem parseNumber_text {x : Double} (hx : isFinite x = true) {rest : List Char} (hrest : Ends rest) :
    parseNumber (text x ++ rest) = some (x, rest) := by
  cases x with
  | nan => cases hx
  | infinite negative => cases hx
  | finite q hq =>
    rw [text_finite]
    by_cases hzero : q = 0
    · subst hzero
      have hparse := JsJson.parseMagnitude_digits (n := 0) hrest
      rw [if_pos rfl]
      show (parseMagnitude ('0' :: rest)).map _ = _
      have hdigits : Nat.toDigits 10 0 ++ rest = '0' :: rest := rfl
      rw [← hdigits, hparse, Option.map_some, Nat.cast_zero, Double.ofRat_of_nearest hq hq.exact]
    · rw [if_neg hzero]
      by_cases hneg : q < 0
      · have hpos : 0 < -q := neg_pos.mpr hneg
        have hq' : IsDouble (-q) := ⟨by rw [nearest_neg, hq.exact], by rw [abs_neg]; exact hq.small⟩
        obtain ⟨r, hparse, hr⟩ := parseMagnitude_text hq' hpos hrest
        have hback : nearest (-r) = q := by rw [nearest_neg, hr, neg_neg]
        rw [if_pos hneg, List.cons_append, parseNumber, if_pos rfl, hparse, Option.map_some,
          Double.ofRat_of_nearest hq hback]
      · have hpos : 0 < q := lt_of_le_of_ne (not_lt.mp hneg) (Ne.symm hzero)
        obtain ⟨r, hparse, hr⟩ := parseMagnitude_text hq hpos hrest
        obtain ⟨c, tail, htext, hc⟩ := magnitudeText_cons hq hpos
        have hminus : c ≠ '-' := by
          rintro rfl
          exact absurd hc (by decide)
        rw [if_neg hneg]
        rw [htext, List.cons_append] at hparse ⊢
        rw [parseNumber, if_neg hminus, hparse, Option.map_some, Double.ofRat_of_nearest hq hr]

lemma text_cons {x : Double} (hx : isFinite x = true) : ∃ c tail, text x = c :: tail ∧ (c = '-' ∨ c.isDigit = true) := by
  cases x with
  | nan => cases hx
  | infinite negative => cases hx
  | finite q hq =>
    rw [text_finite]
    by_cases hzero : q = 0
    · rw [if_pos hzero]
      exact ⟨'0', [], rfl, .inr rfl⟩
    rw [if_neg hzero]
    by_cases hneg : q < 0
    · rw [if_pos hneg]
      exact ⟨'-', _, rfl, .inl rfl⟩
    rw [if_neg hneg]
    have hpos : 0 < q := lt_of_le_of_ne (not_lt.mp hneg) (Ne.symm hzero)
    obtain ⟨c, tail, htext, hc⟩ := magnitudeText_cons hq hpos
    exact ⟨c, tail, htext, .inr hc⟩

end Peal.JsDecimals
