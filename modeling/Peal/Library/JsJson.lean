import Mathlib.Data.List.DropRight
import Peal.Library.Doubles
import Peal.Library.Json
import Peal.Library.Numerals
import Peal.Library.Utf16

namespace Peal.JsJson
open Peal.Doubles Peal.Json Peal.Numerals
open Peal.Utf16 (isHigh isLow single pair)

/-! # JSON as a script engine reads and writes it

Strings are UTF-16 units, of which any may be escaped, and numbers are doubles. -/

inductive Value where
  | null
  | bool (b : Bool)
  | num (x : Double)
  | str (s : List UInt16)
  | arr (items : List Value)
  | obj (fields : List (List UInt16 × Value))

/-! ### Numbers -/

/-- The whole number with the fewest digits that reads back as a double, ending in zeros. -/
def shortest (m : Nat) : Nat := ((List.range 310).reverse.findSome? (JsNumbers.candidate m)).getD m

/-- From `10 ^ 21` on, with an exponent. -/
def magnitudeText (m : Nat) : List Char :=
  let digits := Nat.toDigits 10 (shortest m)
  if digits.length ≤ 21 then digits
  else
    match digits.rdropWhile (· = '0') with
    | [] => []
    | d :: rest => d :: (if rest = [] then [] else '.' :: rest) ++ 'e' :: '+' :: Nat.toDigits 10 (digits.length - 1)

/-- What a double that is whole is printed as. -/
def numberText (n : Int) : List Char := if n < 0 then '-' :: magnitudeText n.natAbs else magnitudeText n.natAbs

def parseFraction : List Char → Option (List Char × List Char)
  | [] => some ([], [])
  | c :: rest =>
    if c = '.' then
      let digits := rest.takeWhile Char.isDigit
      if digits = [] then none else some (digits, rest.dropWhile Char.isDigit)
    else some ([], c :: rest)

/-- A sign that may be left out, and what follows it. -/
def takeSign : List Char → Bool × List Char
  | [] => (false, [])
  | c :: rest => if c = '-' then (true, rest) else if c = '+' then (false, rest) else (false, c :: rest)

def parseExponent : List Char → Option (Int × List Char)
  | [] => some (0, [])
  | c :: rest =>
    if c = 'e' ∨ c = 'E' then
      let (negative, rest) := takeSign rest
      let digits := rest.takeWhile Char.isDigit
      if digits = [] then none
      else some (if negative then -(value digits : Int) else value digits, rest.dropWhile Char.isDigit)
    else some (0, c :: rest)

def parseMagnitude (text : List Char) : Option (ℚ × List Char) := do
  let digits := text.takeWhile Char.isDigit
  guard (digits ≠ [] ∧ (digits.head? = some '0' → digits = ['0']))
  let (fraction, rest) ← parseFraction (text.dropWhile Char.isDigit)
  let (exponent, rest) ← parseExponent rest
  return (value (digits ++ fraction) * 10 ^ (exponent - fraction.length), rest)

def parseNumber : List Char → Option (Double × List Char)
  | [] => none
  | c :: rest =>
    if c = '-' then (parseMagnitude rest).map fun p => (.ofRat (-p.1), p.2)
    else (parseMagnitude (c :: rest)).map fun p => (.ofRat p.1, p.2)

/-! ### Strings -/

def fourDigits (n : Nat) : List Char :=
  [hexDigit (n / 4096), hexDigit (n / 256 % 16), hexDigit (n / 16 % 16), hexDigit (n % 16)]

/-- Of a unit that is not in a pair. -/
def escapeUnit (u : UInt16) : List Char :=
  match shortEscapes.find? fun p => p.1.toNat = u.toNat with
  | some p => [backslash, p.2]
  | none =>
    if u.toNat < 32 || isHigh u || isLow u then backslash :: 'u' :: fourDigits u.toNat else [single u]

def escapeUnits : List UInt16 → List Char
  | [] => []
  | [u] => escapeUnit u
  | u :: v :: rest =>
    if isHigh u && isLow v then pair u v :: escapeUnits rest else escapeUnit u ++ escapeUnits (v :: rest)

def quoteUnits (s : List UInt16) : List Char := quoteMark :: escapeUnits s ++ [quoteMark]

/-- An escape gives a single unit. -/
def unescape (e : Char) (rest : List Char) : Option (UInt16 × List Char) :=
  if e = 'u' then (fourHex rest).map fun p => (UInt16.ofNat p.1, p.2)
  else if e = '/' then some (UInt16.ofNat '/'.toNat, rest)
  else (shortEscapes.find? fun p => p.2 = e).map fun p => (UInt16.ofNat p.1.toNat, rest)

/-- The rest of a string after its opening quote. -/
def parseUnits : Nat → List Char → Option (List UInt16 × List Char)
  | 0, _ => none
  | _ + 1, [] => none
  | fuel + 1, c :: rest =>
    if c = quoteMark then some ([], rest)
    else if c = backslash then
      match rest with
      | [] => none
      | e :: rest => do
        let (u, rest) ← unescape e rest
        let (s, rest) ← parseUnits fuel rest
        return (u :: s, rest)
    else if c.toNat < 32 then none
    else do
      let (s, rest) ← parseUnits fuel rest
      return (Utf16.encodeChar c ++ s, rest)

def parseWord (text : List Char) : Option (Value × List Char) :=
  match dropWord "null".toList text with
  | some rest => some (.null, rest)
  | none =>
    match dropWord "true".toList text with
    | some rest => some (.bool true, rest)
    | none => (dropWord "false".toList text).map fun rest => (.bool false, rest)

/-! ### Values -/

mutual

def parseValue : Nat → List Char → Option (Value × List Char)
  | 0, _ => none
  | fuel + 1, text =>
    match skipSpace text with
    | [] => none
    | c :: rest =>
      if c = quoteMark then (parseUnits (rest.length + 1) rest).map fun p => (.str p.1, p.2)
      else if c = '[' then
        if (skipSpace rest).head? = some ']' then some (.arr [], (skipSpace rest).tail)
        else (parseItems fuel rest).map fun p => (.arr p.1, p.2)
      else if c = '{' then
        if (skipSpace rest).head? = some '}' then some (.obj [], (skipSpace rest).tail)
        else (parseFields fuel rest).map fun p => (.obj p.1, p.2)
      else if c = '-' ∨ c.isDigit then (parseNumber (c :: rest)).map fun p => (.num p.1, p.2)
      else parseWord (c :: rest)

def parseItems : Nat → List Char → Option (List Value × List Char)
  | 0, _ => none
  | fuel + 1, text => do
    let (x, rest) ← parseValue fuel text
    match skipSpace rest with
    | [] => none
    | c :: rest =>
      if c = ',' then do
        let (items, rest) ← parseItems fuel rest
        return (x :: items, rest)
      else if c = ']' then return ([x], rest)
      else none

def parseFields : Nat → List Char → Option (List (List UInt16 × Value) × List Char)
  | 0, _ => none
  | fuel + 1, text =>
    match skipSpace text with
    | [] => none
    | c :: rest => do
      guard (c = quoteMark)
      let (key, rest) ← parseUnits (rest.length + 1) rest
      match skipSpace rest with
      | [] => none
      | c :: rest => do
        guard (c = ':')
        let (value, rest) ← parseValue fuel rest
        match skipSpace rest with
        | [] => none
        | c :: rest =>
          if c = ',' then do
            let (fields, rest) ← parseFields fuel rest
            return ((key, value) :: fields, rest)
          else if c = '}' then return ([(key, value)], rest)
          else none

end

/-- `JSON.parse`. -/
def parse (text : List Char) : Option Value := do
  let (v, rest) ← parseValue (2 * text.length) text
  guard (skipSpace rest = [])
  return v

/-! ### Flat tuples -/

/-- What a tuple may hold: its numbers are whole. -/
inductive Item where
  | null
  | num (n : Int)
  | str (s : List UInt16)
  deriving DecidableEq

def Item.text : Item → List Char
  | .null => "null".toList
  | .num n => numberText n
  | .str s => quoteUnits s

def itemsText : List Item → List Char
  | [] => []
  | [x] => x.text
  | x :: y :: items => x.text ++ ',' :: itemsText (y :: items)

/-- `JSON.stringify` of a tuple. -/
def stringify (items : List Item) : List Char := '[' :: itemsText items ++ [']']

/-- What an item reads back as. -/
def Item.value : Item → Value
  | .null => .null
  | .num n => .num (.ofRat n)
  | .str s => .str s

/-! ### Numbers read back -/

lemma roundNat_shortest {m : Nat} (h : JsNumbers.roundNat m = m) : JsNumbers.roundNat (shortest m) = m := by
  unfold shortest
  cases hfound : (List.range 310).reverse.findSome? (JsNumbers.candidate m) with
  | none => exact h
  | some n =>
    obtain ⟨j, -, hj⟩ := List.exists_of_findSome?_eq_some hfound
    exact JsNumbers.candidate_reads hj

lemma ends_tail {rest : List Char} (h : Ends rest) : (∀ c ∈ rest.head?, c.isDigit = false) ∧
    parseFraction rest = some ([], rest) ∧ parseExponent rest = some (0, rest) := by
  cases rest with
  | nil => exact ⟨fun c hc => absurd hc (by simp), rfl, rfl⟩
  | cons c rest =>
    have hc : continuesNumber c = false := by simpa [Ends] using h
    simp only [continuesNumber, Bool.or_eq_false_iff, decide_eq_false_iff_not] at hc
    obtain ⟨⟨⟨hdigit, hpoint⟩, he⟩, hE⟩ := hc
    refine ⟨fun d hd => Option.some.inj hd ▸ hdigit, ?_, ?_⟩
    · rw [parseFraction, if_neg hpoint]
    · rw [parseExponent, if_neg (not_or.mpr ⟨he, hE⟩)]

lemma parseMagnitude_digits {n : Nat} {rest : List Char} (h : Ends rest) :
    parseMagnitude (Nat.toDigits 10 n ++ rest) = some ((n : ℚ), rest) := by
  obtain ⟨hdigit, hfraction, hexponent⟩ := ends_tail h
  obtain ⟨htake, hdrop⟩ := takeWhile_digits (allDigits_toDigits n) hdigit
  unfold parseMagnitude
  rw [htake, hdrop, hfraction]
  simp only [Option.bind_eq_bind, Option.bind_some, hexponent, List.append_nil, value_toDigits, List.length_nil,
    Nat.cast_zero, sub_zero, zpow_zero, mul_one, Option.pure_def]
  rw [guard, if_pos ⟨Nat.toDigits_ne_nil, toDigits_zero_head⟩]
  rfl

lemma parseMagnitude_scientific {d : Char} {fraction : List Char} (hd : d.isDigit = true) (hfraction : AllDigits fraction)
    (e : Nat) {rest : List Char} (h : Ends rest) :
    parseMagnitude (d :: (if fraction = [] then [] else '.' :: fraction) ++ 'e' :: '+' :: Nat.toDigits 10 e ++ rest) =
      some ((value (d :: fraction) : ℚ) * 10 ^ ((e : Int) - fraction.length), rest) := by
  obtain ⟨hdigit, -, -⟩ := ends_tail h
  obtain ⟨htake, hdrop⟩ := takeWhile_digits (allDigits_toDigits e) hdigit
  have hexponent : parseExponent ('e' :: '+' :: (Nat.toDigits 10 e ++ rest)) = some ((e : Int), rest) := by
    rw [parseExponent, if_pos (.inl rfl), takeSign, if_neg (by decide), if_pos rfl]
    dsimp only
    rw [htake, hdrop, if_neg Nat.toDigits_ne_nil, value_toDigits]
    rfl
  have hmid : parseFraction ((if fraction = [] then [] else '.' :: fraction) ++
      'e' :: '+' :: (Nat.toDigits 10 e ++ rest)) = some (fraction, 'e' :: '+' :: (Nat.toDigits 10 e ++ rest)) := by
    split_ifs with hnil
    · rw [hnil, List.nil_append, parseFraction, if_neg (by decide)]
    · have hmark : ∀ c ∈ ('e' :: '+' :: (Nat.toDigits 10 e ++ rest)).head?, c.isDigit = false := fun c hc => by
        obtain rfl := Option.some.inj hc
        rfl
      obtain ⟨htake, hdrop⟩ := takeWhile_digits hfraction hmark
      rw [List.cons_append, parseFraction, if_pos rfl]
      dsimp only
      rw [htake, hdrop, if_neg hnil]
  have hfirst : ∀ c ∈ ((if fraction = [] then [] else '.' :: fraction) ++
      'e' :: '+' :: (Nat.toDigits 10 e ++ rest)).head?, c.isDigit = false := by
    split_ifs
    · intro c hc
      obtain rfl := Option.some.inj hc
      rfl
    · intro c hc
      obtain rfl := Option.some.inj hc
      rfl
  have hone : AllDigits [d] := fun c hc => List.mem_singleton.mp hc ▸ hd
  obtain ⟨htake', hdrop'⟩ := takeWhile_digits hone hfirst
  have hshape : d :: (if fraction = [] then [] else '.' :: fraction) ++ 'e' :: '+' :: Nat.toDigits 10 e ++ rest =
      [d] ++ ((if fraction = [] then [] else '.' :: fraction) ++ 'e' :: '+' :: (Nat.toDigits 10 e ++ rest)) := by
    simp only [List.cons_append, List.append_assoc, List.nil_append]
  unfold parseMagnitude
  rw [hshape, htake', hdrop', hmid]
  simp only [Option.bind_eq_bind, Option.bind_some, hexponent, Option.pure_def]
  rw [guard, if_pos ⟨List.cons_ne_nil _ _, fun hzero => by rw [Option.some.inj hzero]⟩]
  rfl

lemma parseMagnitude_text (m : Nat) {rest : List Char} (h : Ends rest) :
    parseMagnitude (magnitudeText m ++ rest) = some ((shortest m : ℚ), rest) := by
  unfold magnitudeText
  extract_lets digits
  split_ifs with hlength
  · exact parseMagnitude_digits h
  · have hsplit := List.rdropWhile_append_rtakeWhile (p := fun c => c = '0') (l := Nat.toDigits 10 (shortest m))
    generalize hsig : (Nat.toDigits 10 (shortest m)).rdropWhile (fun c => c = '0') = significant at hsplit
    obtain ⟨k, hzeros⟩ : ∃ k, (Nat.toDigits 10 (shortest m)).rtakeWhile (fun c => c = '0') = List.replicate k '0' :=
      by
      refine ⟨_, List.eq_replicate_iff.mpr ⟨rfl, fun c hc => ?_⟩⟩
      have hzero := List.mem_rtakeWhile_imp hc
      exact of_decide_eq_true hzero
    rw [hzeros] at hsplit
    have hvalue : shortest m = value significant * 10 ^ k := by
      rw [← value_toDigits (shortest m), ← hsplit, value_append, value_zeros, List.length_replicate, add_zero]
    cases significant with
    | nil =>
      rw [show value [] = 0 from rfl, zero_mul] at hvalue
      rw [show digits = Nat.toDigits 10 (shortest m) from rfl, hvalue] at hlength
      exact absurd (by decide) hlength
    | cons d fraction =>
      have hall : AllDigits (d :: fraction) := fun c hc =>
        allDigits_toDigits (shortest m) c (hsplit ▸ List.mem_append_left _ hc)
      have hcount : (Nat.toDigits 10 (shortest m)).length = fraction.length + 1 + k := by
        rw [← hsplit, List.length_append, List.length_cons, List.length_replicate]
      dsimp only
      rw [parseMagnitude_scientific (hall d List.mem_cons_self) (fun c hc => hall c (List.mem_cons_of_mem _ hc)) _ h,
        hvalue, hcount]
      have hexp : ((fraction.length + 1 + k - 1 : Nat) : Int) - fraction.length = (k : Int) := by omega
      rw [hexp, zpow_natCast]
      push_cast
      rfl

lemma magnitudeText_cons (m : Nat) : ∃ c tail, magnitudeText m = c :: tail ∧ c.isDigit = true := by
  unfold magnitudeText
  extract_lets digits
  obtain ⟨c, tail, htext, hc⟩ := toDigits_cons (shortest m)
  split_ifs with hlength
  · exact ⟨c, tail, htext, hc⟩
  · have hfirst := List.rdropWhile_prefix (fun c => decide (c = '0')) digits
    cases hsig : digits.rdropWhile (fun c => c = '0') with
    | nil =>
      have hzeros := List.rdropWhile_eq_nil_iff.mp hsig
      have hnumeral : digits = ['0'] := by
        refine toDigits_zero_head ?_
        rw [htext, List.head?_cons, of_decide_eq_true (hzeros c (by rw [show digits = c :: tail from htext]; exact List.mem_cons_self))]
      rw [hnumeral] at hlength
      exact absurd (by decide) hlength
    | cons d fraction =>
      rw [hsig, show digits = c :: tail from htext, List.cons_prefix_cons] at hfirst
      exact ⟨d, _, rfl, hfirst.1 ▸ hc⟩

/-- A whole double reads back as itself. -/
theorem parseNumber_numberText {n : Int} (hn : 0 ≤ n) (hdouble : IsDouble n) {rest : List Char} (h : Ends rest) :
    parseNumber (numberText n ++ rest) = some (.ofRat n, rest) := by
  obtain ⟨m, rfl⟩ := Int.eq_ofNat_of_zero_le hn
  obtain ⟨c, tail, htext, hc⟩ := magnitudeText_cons m
  have hminus : c ≠ '-' := by
    rintro rfl
    cases hc
  have hparse := parseMagnitude_text m h
  have hsame : Double.ofRat (shortest m) = .ofRat ((m : Int) : ℚ) := by
    have hround : JsNumbers.roundNat m = m := by
      have hexact := hdouble.exact
      rw [Int.cast_natCast, nearest_natCast] at hexact
      exact_mod_cast hexact
    have hread : nearest (shortest m) = ((m : Int) : ℚ) := by
      rw [nearest_natCast, roundNat_shortest hround, Int.cast_natCast]
    rw [Double.ofRat_of_nearest hdouble hread, Double.ofRat_of_nearest hdouble hdouble.exact]
  rw [numberText, if_neg (not_lt.mpr hn), Int.natAbs_natCast]
  rw [htext] at hparse ⊢
  rw [List.cons_append] at hparse ⊢
  rw [parseNumber, if_neg hminus, hparse, Option.map_some, hsame]

lemma numberText_cons {n : Int} (hn : 0 ≤ n) : ∃ c tail, numberText n = c :: tail ∧ c.isDigit = true := by
  rw [numberText, if_neg (not_lt.mpr hn)]
  exact magnitudeText_cons _

/-! ### Strings read back -/

lemma hexDigits_fit {n : Nat} (h : n < 0x10000) (rest : List Char) :
    fourHex (fourDigits n ++ rest) = some (n, rest) := by
  have hall : ∀ d < 16, hexValue (hexDigit d) = some d := fun d hd => hexValue_hexDigit hd
  simp only [fourDigits, List.cons_append, List.nil_append, fourHex, hall (n / 4096) (by omega),
    hall (n / 256 % 16) (by omega), hall (n / 16 % 16) (by omega), hall (n % 16) (by omega), Option.bind_eq_bind,
    Option.bind_some, Option.pure_def, Option.some.injEq, Prod.mk.injEq, and_true]
  omega

lemma escapeUnit_ne_nil (u : UInt16) : escapeUnit u ≠ [] := by
  unfold escapeUnit
  split
  · exact List.cons_ne_nil _ _
  · split_ifs
    · exact List.cons_ne_nil _ _
    · exact List.cons_ne_nil _ _

lemma parseUnits_close (fuel : Nat) (rest : List Char) : parseUnits (fuel + 1) (quoteMark :: rest) = some ([], rest) := by
  rw [parseUnits.eq_def]
  exact if_pos rfl

lemma parseUnits_backslash (fuel : Nat) (e : Char) (rest : List Char) :
    parseUnits (fuel + 1) (backslash :: e :: rest) =
      (unescape e rest).bind fun p => (parseUnits fuel p.2).map fun q => (p.1 :: q.1, q.2) := by
  have hback : backslash ≠ quoteMark := by decide
  rw [parseUnits.eq_def]
  dsimp only
  rw [if_neg hback, if_pos rfl]
  cases unescape e rest with
  | none => rfl
  | some p =>
    cases h : parseUnits fuel p.2 with
    | none => simp [h]
    | some q => simp [h]

lemma parseUnits_plain (fuel : Nat) {c : Char} (rest : List Char) (hquote : c ≠ quoteMark) (hslash : c ≠ backslash)
    (hcontrol : ¬c.toNat < 32) :
    parseUnits (fuel + 1) (c :: rest) = (parseUnits fuel rest).map fun p => (Utf16.encodeChar c ++ p.1, p.2) := by
  rw [parseUnits.eq_def]
  dsimp only
  rw [if_neg hquote, if_neg hslash, if_neg hcontrol]
  cases parseUnits fuel rest <;> rfl

lemma parseUnits_escape (fuel : Nat) (u : UInt16) (rest : List Char) :
    parseUnits (fuel + 1) (escapeUnit u ++ rest) = (parseUnits fuel rest).map fun p => (u :: p.1, p.2) := by
  unfold escapeUnit
  cases hfind : shortEscapes.find? fun p => p.1.toNat = u.toNat with
  | some p =>
    have hmem : p ∈ shortEscapes := List.mem_of_find?_eq_some hfind
    have hp : UInt16.ofNat p.1.toNat = u := by
      have hkey : p.1.toNat = u.toNat := by simpa using List.find?_some hfind
      rw [hkey, UInt16.ofNat_toNat]
    have hall : ∀ p ∈ shortEscapes, p.2 ≠ 'u' ∧ p.2 ≠ '/' ∧ (shortEscapes.find? fun q => q.2 = p.2) = some p := by decide
    obtain ⟨hu, hslash, hletter⟩ := hall p hmem
    have hread : unescape p.2 rest = some (u, rest) := by
      rw [unescape, if_neg hu, if_neg hslash, hletter, Option.map_some, hp]
    dsimp only
    rw [List.cons_append, List.singleton_append, parseUnits_backslash, hread, Option.bind_some]
  | none =>
    have hkey : ∀ p ∈ shortEscapes, p.1.toNat ≠ u.toNat := by simpa using List.find?_eq_none.mp hfind
    dsimp only
    split_ifs with hescape
    · have hread : unescape 'u' (fourDigits u.toNat ++ rest) = some (u, rest) := by
        rw [unescape, if_pos rfl, hexDigits_fit u.toNat_lt, Option.map_some, UInt16.ofNat_toNat]
      rw [List.cons_append, List.cons_append, parseUnits_backslash, hread, Option.bind_some]
    · rw [Bool.or_eq_true, Bool.or_eq_true, not_or, not_or, decide_eq_true_eq] at hescape
      obtain ⟨⟨hcontrol, hhigh⟩, hlow⟩ := hescape
      rw [Bool.not_eq_true] at hhigh hlow
      have hnat := Utf16.toNat_single hhigh hlow
      have hquote : single u ≠ quoteMark := fun h => hkey (quoteMark, quoteMark) (by decide) (by rw [← hnat, h])
      have hslash : single u ≠ backslash := fun h => hkey (backslash, backslash) (by decide) (by rw [← hnat, h])
      rw [List.singleton_append, parseUnits_plain fuel rest hquote hslash (by rw [hnat]; exact hcontrol),
        Utf16.encodeChar_single hhigh hlow]
      rfl

lemma parseUnits_quote {fuel : Nat} {s : List UInt16} (h : (escapeUnits s).length < fuel) (rest : List Char) :
    parseUnits fuel (escapeUnits s ++ quoteMark :: rest) = some (s, rest) := by
  induction s using escapeUnits.induct generalizing fuel with
  | case1 =>
    obtain ⟨fuel, rfl⟩ : ∃ k, fuel = k + 1 := ⟨fuel - 1, by omega⟩
    rw [escapeUnits, List.nil_append, parseUnits_close]
  | case2 u =>
    have hpos := List.length_pos_of_ne_nil (escapeUnit_ne_nil u)
    rw [escapeUnits] at h ⊢
    obtain ⟨fuel, rfl⟩ : ∃ k, fuel = k + 2 := ⟨fuel - 2, by omega⟩
    rw [parseUnits_escape, parseUnits_close]
    rfl
  | case3 u v tail hpair ih =>
    rw [escapeUnits, if_pos hpair] at h ⊢
    rw [List.length_cons] at h
    obtain ⟨fuel, rfl⟩ : ∃ k, fuel = k + 1 := ⟨fuel - 1, by omega⟩
    rw [Bool.and_eq_true] at hpair
    have hlarge : 0x10000 ≤ (pair u v).toNat := by
      rw [Utf16.toNat_pair hpair.1 hpair.2]
      omega
    have hne : ∀ c : Char, c.toNat < 0x10000 → pair u v ≠ c := fun c hc heq => by
      rw [heq] at hlarge
      omega
    rw [List.cons_append, parseUnits_plain fuel _ (hne quoteMark (by decide)) (hne backslash (by decide)) (by omega),
      ih (by omega), Utf16.encodeChar_pair hpair.1 hpair.2]
    rfl
  | case4 u v tail hpair ih =>
    have hpos := List.length_pos_of_ne_nil (escapeUnit_ne_nil u)
    rw [escapeUnits, if_neg hpair] at h ⊢
    rw [List.length_append] at h
    obtain ⟨fuel, rfl⟩ : ∃ k, fuel = k + 1 := ⟨fuel - 1, by omega⟩
    rw [List.append_assoc, parseUnits_escape, ih (by omega)]
    rfl

/-! ### Tuples read back -/

/-- The numbers of a tuple are doubles, and none is negative. -/
def Item.Plain : Item → Prop
  | .num n => 0 ≤ n ∧ IsDouble n
  | _ => True

lemma digit_ne {c d : Char} (hc : c.isDigit = true) (hd : d.isDigit = false) : c ≠ d := by
  rintro rfl
  rw [hd] at hc
  cases hc

lemma isSpace_digit {c : Char} (hc : c.isDigit = true) : isSpace c = false := by
  simp only [isSpace, Bool.or_eq_false_iff, decide_eq_false_iff_not]
  exact ⟨⟨⟨digit_ne hc rfl, digit_ne hc (by decide)⟩, digit_ne hc (by decide)⟩, digit_ne hc (by decide)⟩

lemma parseValue_item {x : Item} (hx : x.Plain) (fuel : Nat) {rest : List Char} (h : Ends rest) :
    parseValue (fuel + 1) (x.text ++ rest) = some (x.value, rest) := by
  cases x with
  | null => rfl
  | num n =>
    obtain ⟨hn, hdouble⟩ := hx
    obtain ⟨c, tail, htext, hc⟩ := numberText_cons hn
    have hparse := parseNumber_numberText hn hdouble h
    rw [Item.text]
    rw [htext, List.cons_append] at hparse ⊢
    rw [parseValue, skipSpace_cons (isSpace_digit hc)]
    dsimp only
    rw [if_neg (digit_ne hc (by decide)), if_neg (digit_ne hc rfl), if_neg (digit_ne hc rfl), if_pos (.inr hc), hparse]
    rfl
  | str s =>
    have htext : (Item.str s).text ++ rest = quoteMark :: (escapeUnits s ++ quoteMark :: rest) := by
      simp only [Item.text, quoteUnits, List.cons_append, List.append_assoc, List.nil_append]
    have hparse : parseUnits ((escapeUnits s ++ quoteMark :: rest).length + 1) (escapeUnits s ++ quoteMark :: rest) =
        some (s, rest) := by
      refine parseUnits_quote ?_ rest
      rw [List.length_append]
      omega
    rw [htext, parseValue, skipSpace_cons (show isSpace quoteMark = false by decide)]
    dsimp only
    rw [if_pos rfl, hparse]
    rfl

lemma itemsText_cons {x : Item} (hx : x.Plain) (items : List Item) :
    ∃ c tail, itemsText (x :: items) = c :: tail ∧ isSpace c = false ∧ c ≠ ']' := by
  obtain ⟨c, tail, htext, hc⟩ : ∃ c tail, x.text = c :: tail ∧ isSpace c = false ∧ c ≠ ']' := by
    cases x with
    | null => exact ⟨'n', _, rfl, by decide, by decide⟩
    | num n =>
      obtain ⟨c, tail, htext, hdigit⟩ := numberText_cons hx.1
      exact ⟨c, tail, htext, isSpace_digit hdigit, digit_ne hdigit rfl⟩
    | str s => exact ⟨quoteMark, _, rfl, by decide, by decide⟩
  cases items with
  | nil => exact ⟨c, tail, htext, hc⟩
  | cons y items => exact ⟨c, tail ++ ',' :: itemsText (y :: items), by rw [itemsText, htext, List.cons_append], hc⟩

lemma itemsText_length (items : List Item) : items.length ≤ (itemsText items).length + 1 := by
  induction items with
  | nil => exact Nat.zero_le _
  | cons x items ih =>
    cases items with
    | nil => exact Nat.le_add_left _ _
    | cons y items =>
      rw [itemsText, List.length_append, List.length_cons, List.length_cons (a := ',')]
      omega

lemma parseItems_text {items : List Item} (hitems : ∀ x ∈ items, x.Plain) (hne : items ≠ []) {fuel : Nat}
    (h : items.length < fuel) (rest : List Char) :
    parseItems fuel (itemsText items ++ ']' :: rest) = some (items.map Item.value, rest) := by
  induction items generalizing fuel with
  | nil => exact absurd rfl hne
  | cons x items ih =>
    obtain ⟨hx, hrest⟩ := List.forall_mem_cons.mp hitems
    obtain ⟨fuel, rfl⟩ : ∃ k, fuel = k + 2 := ⟨fuel - 2, by rw [List.length_cons] at h; omega⟩
    cases items with
    | nil =>
      rw [itemsText, parseItems, parseValue_item hx fuel (ends_cons (by decide) rest)]
      rfl
    | cons y items =>
      have hmore := ih hrest (List.cons_ne_nil _ _) (show (y :: items).length < fuel + 1 by
        rw [List.length_cons] at h
        omega)
      rw [itemsText, List.append_assoc, List.cons_append, parseItems,
        parseValue_item hx fuel (ends_cons (by decide) _)]
      simp only [Option.bind_eq_bind, Option.bind_some, skipSpace_cons (show isSpace ',' = false by decide), if_true, hmore]
      rfl

lemma parse_stringify_append {items : List Item} (hitems : ∀ x ∈ items, x.Plain) (hne : items ≠ [])
    (more : List Char) : parse (stringify items ++ more) =
      if skipSpace more = [] then some (.arr (items.map Item.value)) else none := by
  have hlength : items.length < 2 * (stringify items ++ more).length - 1 := by
    have := itemsText_length items
    rw [List.length_append, stringify, List.length_append, List.length_cons, List.length_singleton]
    omega
  have hopen : (skipSpace (itemsText items ++ ']' :: more)).head? ≠ some ']' := by
    obtain ⟨x, items, rfl⟩ := List.exists_cons_of_ne_nil hne
    obtain ⟨c, tail, htext, hspace, hclose⟩ := itemsText_cons (hitems x List.mem_cons_self) items
    rw [htext, List.cons_append, skipSpace_cons hspace]
    exact fun heq => hclose (Option.some.inj heq)
  have htext : stringify items ++ more = '[' :: (itemsText items ++ ']' :: more) := by
    rw [stringify, List.cons_append, List.cons_append, List.append_assoc, List.singleton_append]
  obtain ⟨fuel, hfuel⟩ : ∃ k, 2 * (stringify items ++ more).length = k + 1 :=
    ⟨2 * (stringify items ++ more).length - 1, by omega⟩
  have hparse := parseItems_text hitems hne (show items.length < fuel by omega) more
  unfold parse
  rw [hfuel, htext, parseValue, skipSpace_cons (show isSpace '[' = false by decide)]
  dsimp only
  rw [if_neg (by decide), if_pos rfl, if_neg hopen, hparse]
  by_cases hmore : skipSpace more = []
  · rw [if_pos hmore]
    simp only [Option.map_some, Option.bind_eq_bind, Option.bind_some, hmore, guard_true, Option.pure_def]
  · rw [if_neg hmore]
    simp only [Option.map_some, Option.bind_eq_bind, Option.bind_some, hmore, guard_false]
    rfl

theorem parse_stringify {items : List Item} (hitems : ∀ x ∈ items, x.Plain) (hne : items ≠ []) :
    parse (stringify items) = some (.arr (items.map Item.value)) := by
  have hparse := parse_stringify_append hitems hne []
  rwa [List.append_nil] at hparse

lemma stringify_eq_append {items items' : List Item} (hitems : ∀ x ∈ items, x.Plain) (hne : items ≠ [])
    (hitems' : ∀ x ∈ items', x.Plain) (hne' : items' ≠ []) {more : List Char}
    (h : stringify items = stringify items' ++ more) : more = [] := by
  have hparse := parse_stringify hitems hne
  rw [h, parse_stringify_append hitems' hne'] at hparse
  split_ifs at hparse with hspace
  by_contra hmore
  have hlast : more.getLast? = some ']' := by
    rw [← List.getLast?_append_of_ne_nil (stringify items') hmore, ← h, stringify, List.getLast?_append]
    rfl
  have hclose := List.dropWhile_eq_nil_iff.mp hspace ']' (List.mem_of_getLast? hlast)
  exact absurd hclose (by decide)

/-- An item that a value is. -/
def Value.item : Value → Option Item
  | .null => some .null
  | .str s => some (.str s)
  | .num x => if x.isInteger ∧ 0 ≤ x.whole then some (.num x.whole) else none
  | _ => none

lemma Value.item_plain {v : Value} {x : Item} (h : v.item = some x) : x.Plain := by
  cases v with
  | null => exact Option.some.inj h ▸ trivial
  | str s => exact Option.some.inj h ▸ trivial
  | num d =>
    rw [Value.item] at h
    split_ifs at h with hwhole
    obtain ⟨hdouble, -⟩ := Double.finite_whole hwhole.1
    exact Option.some.inj h ▸ ⟨hwhole.2, hdouble⟩
  | bool b => cases h
  | arr items => cases h
  | obj fields => cases h

lemma Item.item_value {x : Item} (hx : x.Plain) : x.value.item = some x := by
  cases x with
  | null => rfl
  | str s => rfl
  | num n =>
    have hfinite : Double.ofRat n = .finite n hx.2 := Double.ofRat_of_nearest hx.2 hx.2.exact
    rw [Item.value, hfinite, Value.item]
    have hint : (Double.finite n hx.2).isInteger = true := by
      rw [Double.isInteger, Rat.isInt, Rat.den_intCast]
      rfl
    have hwhole : (Double.finite n hx.2).whole = n := Rat.num_intCast n
    rw [hwhole, if_pos ⟨hint, hx.1⟩]

end Peal.JsJson
