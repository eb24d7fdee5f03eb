import Peal.Library.Utf8

namespace Peal.Json
open Peal.Utf8 (encode encodeChar encode_append)

/-! # JSON texts with integer numbers -/

inductive Value where
  | null
  | bool (b : Bool)
  | num (n : Int)
  | str (s : List Char)
  | arr (items : List Value)
  | obj (fields : List (List Char × Value))

def quoteMark : Char := Char.ofNat 34

def backslash : Char := Char.ofNat 92

/-- The characters written as a backslash and a letter. -/
def shortEscapes : List (Char × Char) :=
  [ (quoteMark, quoteMark), (backslash, backslash), (Char.ofNat 8, 'b'), (Char.ofNat 9, 't'), (Char.ofNat 10, 'n'),
    (Char.ofNat 12, 'f'), (Char.ofNat 13, 'r') ]

def hexDigits : List Char := "0123456789abcdef".toList

def hexDigit (n : Nat) : Char := hexDigits.getD n '0'

def hexValue (c : Char) : Option Nat := hexDigits.findIdx? fun d => d = c.toLower

def escape (c : Char) : List Char :=
  match shortEscapes.find? fun p => p.1 = c with
  | some p => [backslash, p.2]
  | none =>
    if c.toNat < 32 then [backslash, 'u', '0', '0', hexDigit (c.toNat / 16), hexDigit (c.toNat % 16)] else [c]

def quote (s : List Char) : List Char := quoteMark :: s.flatMap escape ++ [quoteMark]

def decimal : Int → List Char
  | .ofNat n => Nat.toDigits 10 n
  | .negSucc n => '-' :: Nat.toDigits 10 (n + 1)

mutual

def render : Value → List Char
  | .null => "null".toList
  | .bool true => "true".toList
  | .bool false => "false".toList
  | .num n => decimal n
  | .str s => quote s
  | .arr items => '[' :: renderItems items ++ [']']
  | .obj fields => '{' :: renderFields fields ++ ['}']

def renderItems : List Value → List Char
  | [] => []
  | [x] => render x
  | x :: y :: items => render x ++ ',' :: renderItems (y :: items)

def renderField : List Char × Value → List Char
  | (key, value) => quote key ++ ':' :: render value

def renderFields : List (List Char × Value) → List Char
  | [] => []
  | [f] => renderField f
  | f :: g :: fields => renderField f ++ ',' :: renderFields (g :: fields)

end

/-! ### Reading -/

def isSpace (c : Char) : Bool := c = ' ' || c = Char.ofNat 9 || c = Char.ofNat 10 || c = Char.ofNat 13

def skipSpace (text : List Char) : List Char := text.dropWhile isSpace

def fourHex : List Char → Option (Nat × List Char)
  | a :: b :: c :: d :: rest => do
    let a ← hexValue a
    let b ← hexValue b
    let c ← hexValue c
    let d ← hexValue d
    return (((a * 16 + b) * 16 + c) * 16 + d, rest)
  | _ => none

/-- The character after `\u`; a pair of surrogates is one character, a lone one none. -/
def unescapeCode (text : List Char) : Option (Char × List Char) := do
  let (high, rest) ← fourHex text
  if high < 0xD800 ∨ 0xDFFF < high then
    return (Char.ofNat high, rest)
  else
    match rest with
    | b :: u :: rest => do
      guard (b = backslash ∧ u = 'u' ∧ high < 0xDC00)
      let (low, rest) ← fourHex rest
      guard (0xDC00 ≤ low ∧ low ≤ 0xDFFF)
      return (Char.ofNat (0x10000 + (high - 0xD800) * 0x400 + (low - 0xDC00)), rest)
    | _ => none

def unescape (e : Char) (rest : List Char) : Option (Char × List Char) :=
  if e = 'u' then unescapeCode rest
  else if e = '/' then some ('/', rest)
  else (shortEscapes.find? fun p => p.2 = e).map fun p => (p.1, rest)

/-- The rest of a string after its opening quote. The fuel bounds the number of characters. -/
def parseChars : Nat → List Char → Option (List Char × List Char)
  | 0, _ => none
  | _ + 1, [] => none
  | fuel + 1, c :: rest =>
    if c = quoteMark then some ([], rest)
    else if c = backslash then
      match rest with
      | [] => none
      | e :: rest => do
        let (c, rest) ← unescape e rest
        let (s, rest) ← parseChars fuel rest
        return (c :: s, rest)
    else if c.toNat < 32 then none
    else do
      let (s, rest) ← parseChars fuel rest
      return (c :: s, rest)

/-- What may not follow the digits of an integer. -/
def continuesNumber (c : Char) : Bool := c.isDigit || c = '.' || c = 'e' || c = 'E'

/-- An integer in its shortest form; numbers with a fraction or an exponent are refused. -/
def parseNat (text : List Char) : Option (Nat × List Char) :=
  let digits := text.takeWhile Char.isDigit
  let rest := text.dropWhile Char.isDigit
  let n := Nat.ofDigitChars 10 digits 0
  if Nat.toDigits 10 n = digits ∧ rest.head?.all (fun c => !continuesNumber c) then some (n, rest) else none

def parseNumber : List Char → Option (Int × List Char)
  | [] => none
  | c :: rest =>
    if c = '-' then
      match parseNat rest with
      | some (n + 1, rest) => some (.negSucc n, rest)
      | _ => none
    else (parseNat (c :: rest)).map fun p => (.ofNat p.1, p.2)

def dropWord (word text : List Char) : Option (List Char) :=
  if word <+: text then some (text.drop word.length) else none

def parseWord (text : List Char) : Option (Value × List Char) :=
  match dropWord "null".toList text with
  | some rest => some (.null, rest)
  | none =>
    match dropWord "true".toList text with
    | some rest => some (.bool true, rest)
    | none => (dropWord "false".toList text).map fun rest => (.bool false, rest)

mutual

def parseValue : Nat → List Char → Option (Value × List Char)
  | 0, _ => none
  | fuel + 1, text =>
    match skipSpace text with
    | [] => none
    | c :: rest =>
      if c = quoteMark then (parseChars (rest.length + 1) rest).map fun p => (.str p.1, p.2)
      else if c = '[' then
        if (skipSpace rest).head? = some ']' then some (.arr [], (skipSpace rest).tail)
        else (parseItems fuel rest).map fun p => (.arr p.1, p.2)
      else if c = '{' then
        if (skipSpace rest).head? = some '}' then some (.obj [], (skipSpace rest).tail)
        else (parseFields fuel rest).map fun p => (.obj p.1, p.2)
      else if c = '-' ∨ c.isDigit then (parseNumber (c :: rest)).map fun p => (.num p.1, p.2)
      else parseWord (c :: rest)

def parseItems : Nat → List Char → Option (List Value × List Char)
  | 0, _ => none
  | fuel + 1, text => do
    let (x, rest) ← parseValue fuel text
    match skipSpace rest with
    | [] => none
    | c :: rest =>
      if c = ',' then do
        let (items, rest) ← parseItems fuel rest
        return (x :: items, rest)
      else if c = ']' then return ([x], rest)
      else none

def parseFields : Nat → List Char → Option (List (List Char × Value) × List Char)
  | 0, _ => none
  | fuel + 1, text =>
    match skipSpace text with
    | [] => none
    | c :: rest => do
      guard (c = quoteMark)
      let (key, rest) ← parseChars (rest.length + 1) rest
      match skipSpace rest with
      | [] => none
      | c :: rest => do
        guard (c = ':')
        let (value, rest) ← parseValue fuel rest
        match skipSpace rest with
        | [] => none
        | c :: rest =>
          if c = ',' then do
            let (fields, rest) ← parseFields fuel rest
            return ((key, value) :: fields, rest)
          else if c = '}' then return ([(key, value)], rest)
          else none

end

def parse (text : List Char) : Option Value := do
  let (j, rest) ← parseValue (2 * text.length) text
  guard (skipSpace rest = [])
  return j

/-! ### Strings -/

lemma hexValue_hexDigit {d : Nat} (h : d < 16) : hexValue (hexDigit d) = some d := by
  have hall : ∀ d : Fin 16, hexValue (hexDigit d) = some d.val := by decide
  exact hall ⟨d, h⟩

lemma unescapeCode_control {n : Nat} (h : n < 32) (rest : List Char) :
    unescapeCode ('0' :: '0' :: hexDigit (n / 16) :: hexDigit (n % 16) :: rest) = some (Char.ofNat n, rest) := by
  have hzero : hexValue '0' = some 0 := by decide
  have hhigh : hexValue (hexDigit (n / 16)) = some (n / 16) := hexValue_hexDigit (by omega)
  have hlow : hexValue (hexDigit (n % 16)) = some (n % 16) := hexValue_hexDigit (by omega)
  have hfour : fourHex ('0' :: '0' :: hexDigit (n / 16) :: hexDigit (n % 16) :: rest) = some (n, rest) := by
    simp [fourHex, hzero, hhigh, hlow]
    omega
  unfold unescapeCode
  rw [hfour]
  have hplain : n < 0xD800 ∨ 0xDFFF < n := by omega
  simp [hplain]

lemma unescape_short {p : Char × Char} (hp : p ∈ shortEscapes) (rest : List Char) :
    unescape p.2 rest = some (p.1, rest) := by
  have hall : ∀ p ∈ shortEscapes, p.2 ≠ 'u' ∧ p.2 ≠ '/' ∧ (shortEscapes.find? fun q => q.2 = p.2) = some p := by decide
  obtain ⟨hu, hslash, hfind⟩ := hall p hp
  simp [unescape, hu, hslash, hfind]

lemma escape_ne_nil (c : Char) : escape c ≠ [] := by
  unfold escape
  split
  · simp
  · split <;> simp

lemma parseChars_escape (fuel : Nat) (c : Char) (rest : List Char) :
    parseChars (fuel + 1) (escape c ++ rest) = (parseChars fuel rest).map fun p => (c :: p.1, p.2) := by
  have hback : backslash ≠ quoteMark := by decide
  cases hfind : shortEscapes.find? fun p => p.1 = c with
  | some p =>
    have hmem : p ∈ shortEscapes := List.mem_of_find?_eq_some hfind
    have hp : p.1 = c := by simpa using List.find?_some hfind
    have hesc : escape c = [backslash, p.2] := by simp [escape, hfind]
    rw [hesc]
    simp only [List.cons_append, List.nil_append, parseChars, if_neg hback, if_true]
    rw [unescape_short hmem]
    cases hrest : parseChars fuel rest <;> simp [hrest, hp]
  | none =>
    have hkey : ∀ p ∈ shortEscapes, p.1 ≠ c := by simpa using List.find?_eq_none.mp hfind
    have hquote : c ≠ quoteMark := fun h => hkey (quoteMark, quoteMark) (by decide) h.symm
    have hslash : c ≠ backslash := fun h => hkey (backslash, backslash) (by decide) h.symm
    by_cases hcontrol : c.toNat < 32
    · have hesc : escape c = [backslash, 'u', '0', '0', hexDigit (c.toNat / 16), hexDigit (c.toNat % 16)] := by
        simp [escape, hfind, hcontrol]
      rw [hesc]
      simp only [List.cons_append, List.nil_append, parseChars, if_neg hback, if_true]
      rw [unescape, if_pos rfl, unescapeCode_control hcontrol, Char.ofNat_toNat]
      cases hrest : parseChars fuel rest <;> simp [hrest]
    · have hesc : escape c = [c] := by simp [escape, hfind, hcontrol]
      rw [hesc]
      simp only [List.cons_append, List.nil_append, parseChars, if_neg hquote, if_neg hslash, if_neg hcontrol]
      cases parseChars fuel rest <;> simp

lemma parseChars_quote {fuel : Nat} {s : List Char} (h : s.length < fuel) (rest : List Char) :
    parseChars fuel (s.flatMap escape ++ quoteMark :: rest) = some (s, rest) := by
  induction s generalizing fuel with
  | nil =>
    obtain ⟨fuel, rfl⟩ : ∃ k, fuel = k + 1 := ⟨fuel - 1, by simp at h; omega⟩
    simp [parseChars]
  | cons c s ih =>
    obtain ⟨fuel, rfl⟩ : ∃ k, fuel = k + 1 := ⟨fuel - 1, by simp at h; omega⟩
    rw [List.flatMap_cons, List.append_assoc, parseChars_escape, ih (by simpa using h)]
    rfl

lemma length_le_flatMap_escape (s : List Char) : s.length ≤ (s.flatMap escape).length := by
  induction s with
  | nil => simp
  | cons c s ih =>
    have hpos := List.length_pos_of_ne_nil (escape_ne_nil c)
    simp only [List.length_cons, List.flatMap_cons, List.length_append]
    omega

lemma parseChars_rest (s rest : List Char) :
    parseChars ((s.flatMap escape ++ quoteMark :: rest).length + 1) (s.flatMap escape ++ quoteMark :: rest) =
      some (s, rest) := by
  have hlen := length_le_flatMap_escape s
  refine parseChars_quote ?_ rest
  rw [List.length_append]
  omega

/-! ### Numbers -/

/-- What may stand after a number. -/
def Ends (rest : List Char) : Prop := rest.head?.all (fun c => !continuesNumber c) = true

@[simp] lemma ends_nil : Ends [] := rfl

lemma ends_cons {c : Char} (h : continuesNumber c = false) (rest : List Char) : Ends (c :: rest) := by
  simp [Ends, h]

lemma Ends.not_digit {rest : List Char} (h : Ends rest) : rest.head?.all (fun c => !c.isDigit) = true := by
  cases rest with
  | nil => rfl
  | cons c rest =>
    have : continuesNumber c = false := by simpa [Ends] using h
    simp only [continuesNumber, Bool.or_eq_false_iff] at this
    simp [this.1.1.1]

lemma parseNat_toDigits (n : Nat) {rest : List Char} (h : Ends rest) :
    parseNat (Nat.toDigits 10 n ++ rest) = some (n, rest) := by
  have hdigits : ∀ c ∈ Nat.toDigits 10 n, c.isDigit = true := fun c hc =>
    Nat.isDigit_of_mem_toDigits (by decide) (by decide) hc
  have hstop : rest.takeWhile Char.isDigit = [] ∧ rest.dropWhile Char.isDigit = rest := by
    cases rest with
    | nil => exact ⟨rfl, rfl⟩
    | cons c rest =>
      have hc : c.isDigit = false := by simpa using h.not_digit
      simp [hc]
  have htake : (Nat.toDigits 10 n ++ rest).takeWhile Char.isDigit = Nat.toDigits 10 n := by
    rw [List.takeWhile_append_of_pos hdigits, hstop.1, List.append_nil]
  have hdrop : (Nat.toDigits 10 n ++ rest).dropWhile Char.isDigit = rest := by
    rw [List.dropWhile_append_of_pos hdigits, hstop.2]
  unfold parseNat
  rw [htake, hdrop]
  simp only [Nat.ofDigitChars_ten_toDigits]
  exact if_pos ⟨trivial, h⟩

lemma toDigits_cons (n : Nat) : ∃ c tail, Nat.toDigits 10 n = c :: tail ∧ c.isDigit = true := by
  obtain ⟨c, tail, htext⟩ := List.exists_cons_of_ne_nil (Nat.toDigits_ne_nil (n := n) (b := 10))
  exact ⟨c, tail, htext, Nat.isDigit_of_mem_toDigits (by decide) (by decide) (htext ▸ List.mem_cons_self)⟩

lemma decimal_cons (n : Int) : ∃ c tail, decimal n = c :: tail ∧ (c = '-' ∨ c.isDigit) := by
  cases n with
  | ofNat n =>
    obtain ⟨c, tail, htext, hc⟩ := toDigits_cons n
    exact ⟨c, tail, htext, .inr hc⟩
  | negSucc n => exact ⟨'-', _, rfl, .inl rfl⟩

lemma parseNumber_decimal (n : Int) {rest : List Char} (h : Ends rest) :
    parseNumber (decimal n ++ rest) = some (n, rest) := by
  cases n with
  | ofNat n =>
    have hparse := parseNat_toDigits n h
    obtain ⟨c, tail, htext, hc⟩ := toDigits_cons n
    have hminus : c ≠ '-' := by rintro rfl; simp at hc
    simp only [decimal]
    rw [htext] at hparse ⊢
    simp only [List.cons_append] at hparse ⊢
    simp [parseNumber, hminus, hparse]
  | negSucc n =>
    have hparse := parseNat_toDigits (n + 1) h
    simp [decimal, parseNumber, hparse]

/-! ### Round trip -/

lemma skipSpace_cons {c : Char} (h : isSpace c = false) (rest : List Char) : skipSpace (c :: rest) = c :: rest := by
  simp [skipSpace, h]

lemma render_cons (j : Value) : ∃ c tail, render j = c :: tail ∧ isSpace c = false ∧ c ≠ ']' := by
  have hdigit (c : Char) (h : c = '-' ∨ c.isDigit) : isSpace c = false ∧ c ≠ ']' := by
    have hall : [' ', Char.ofNat 9, Char.ofNat 10, Char.ofNat 13, ']'].all
        (fun d => decide (d ≠ '-' ∧ d.isDigit = false)) = true := by decide
    have hspace : ∀ d ∈ [' ', Char.ofNat 9, Char.ofNat 10, Char.ofNat 13, ']'], d ≠ '-' ∧ d.isDigit = false :=
      fun d hd => of_decide_eq_true (List.all_eq_true.mp hall d hd)
    have hne (d : Char) (hd : d ∈ [' ', Char.ofNat 9, Char.ofNat 10, Char.ofNat 13, ']']) : c ≠ d := by
      rintro rfl
      obtain ⟨hminus, hfalse⟩ := hspace c hd
      rcases h with h | h
      · exact hminus h
      · rw [hfalse] at h
        cases h
    refine ⟨?_, hne ']' (by simp)⟩
    simp [isSpace, hne ' ' (by simp), hne (Char.ofNat 9) (by simp), hne (Char.ofNat 10) (by simp),
      hne (Char.ofNat 13) (by simp)]
  cases j with
  | null => exact ⟨'n', _, rfl, by decide, by decide⟩
  | bool b => cases b <;> exact ⟨_, _, rfl, by decide, by decide⟩
  | num n =>
    obtain ⟨c, tail, htext, hc⟩ := decimal_cons n
    exact ⟨c, tail, htext, hdigit c hc⟩
  | str s => exact ⟨quoteMark, _, rfl, by decide, by decide⟩
  | arr items => exact ⟨'[', _, rfl, by decide, by decide⟩
  | obj fields => exact ⟨'{', _, rfl, by decide, by decide⟩

lemma renderItems_cons (x : Value) (items : List Value) :
    ∃ c tail, renderItems (x :: items) = c :: tail ∧ isSpace c = false ∧ c ≠ ']' := by
  obtain ⟨c, tail, htext, hc⟩ := render_cons x
  cases items with
  | nil => exact ⟨c, tail, htext, hc⟩
  | cons y items => exact ⟨c, tail ++ ',' :: renderItems (y :: items), by simp [renderItems, htext], hc⟩

lemma renderFields_cons (f : List Char × Value) (fields : List (List Char × Value)) :
    ∃ tail, renderFields (f :: fields) = quoteMark :: tail := by
  obtain ⟨key, value⟩ := f
  cases fields with
  | nil => exact ⟨_, rfl⟩
  | cons g fields => exact ⟨_, rfl⟩

lemma parseFields_key (fuel : Nat) (key text : List Char) :
    parseFields (fuel + 1) (quote key ++ ':' :: text) = (do
      let (value, rest) ← parseValue fuel text
      match skipSpace rest with
      | [] => none
      | c :: rest =>
        if c = ',' then do
          let (fields, rest) ← parseFields fuel rest
          return ((key, value) :: fields, rest)
        else if c = '}' then return ([(key, value)], rest)
        else none) := by
  have hparse := parseChars_rest key (':' :: text)
  have htext : quote key ++ ':' :: text = quoteMark :: (key.flatMap escape ++ quoteMark :: ':' :: text) := by
    simp [quote]
  rw [htext]
  simp only [parseFields, skipSpace_cons (show isSpace quoteMark = false by decide), hparse]
  simp [skipSpace_cons (show isSpace ':' = false by decide), guard]

lemma pos_of_render_le {j : Value} {fuel : Nat} (h : 2 * (render j).length ≤ fuel) : ∃ k, fuel = k + 1 := by
  obtain ⟨c, tail, htext, -⟩ := render_cons j
  rw [htext, List.length_cons] at h
  exact ⟨fuel - 1, by omega⟩

mutual

/-- A value is read back, whatever follows it that could not belong to it. -/
theorem parseValue_render (j : Value) (fuel : Nat) (rest : List Char) (h : 2 * (render j).length ≤ fuel)
    (hrest : Ends rest) : parseValue fuel (render j ++ rest) = some (j, rest) := by
  obtain ⟨fuel, rfl⟩ := pos_of_render_le h
  cases j with
  | null => rfl
  | bool b => cases b <;> rfl
  | num n =>
    have hparse := parseNumber_decimal n hrest
    obtain ⟨c, tail, htext, hc⟩ := decimal_cons n
    obtain ⟨c', tail', htext', hspace, -⟩ := render_cons (.num n)
    have heq : c' = c := by
      rw [render, htext] at htext'
      exact (List.cons.inj htext').1.symm
    subst heq
    have hword (d : Char) (hd : d ≠ '-' ∧ d.isDigit = false) : c' ≠ d := by
      rintro rfl
      rcases hc with rfl | hc
      · exact hd.1 rfl
      · rw [hd.2] at hc
        cases hc
    rw [htext, List.cons_append] at hparse
    rw [render, htext, List.cons_append]
    simp only [parseValue, skipSpace_cons hspace]
    rw [if_neg (hword quoteMark (by decide)), if_neg (hword '[' (by decide)), if_neg (hword '\x7b' (by decide)),
      if_pos hc, hparse]
    rfl
  | str s =>
    have hparse := parseChars_rest s rest
    have htext : render (.str s) ++ rest = quoteMark :: (s.flatMap escape ++ quoteMark :: rest) := by
      simp [render, quote]
    rw [htext]
    simp only [parseValue, skipSpace_cons (show isSpace quoteMark = false by decide), if_true, hparse]
    rfl
  | arr items =>
    cases items with
    | nil => rfl
    | cons x items =>
      have hitems := parseItems_render (x :: items) fuel rest (by simp) (by simp [render] at h; omega)
      obtain ⟨c, tail, htext, hspace, hclose⟩ := renderItems_cons x items
      have hopen : (skipSpace (renderItems (x :: items) ++ ']' :: rest)).head? ≠ some ']' := by
        rw [htext, List.cons_append, skipSpace_cons hspace]
        simpa using hclose
      have hwhole : render (.arr (x :: items)) ++ rest = '[' :: (renderItems (x :: items) ++ ']' :: rest) := by
        simp [render]
      rw [hwhole]
      simp only [parseValue, skipSpace_cons (show isSpace '[' = false by decide)]
      rw [if_neg (by decide), if_pos trivial, if_neg hopen, hitems]
      rfl
  | obj fields =>
    cases fields with
    | nil => rfl
    | cons f fields =>
      have hfields := parseFields_render (f :: fields) fuel rest (by simp) (by simp [render] at h; omega)
      obtain ⟨tail, htext⟩ := renderFields_cons f fields
      have hopen : (skipSpace (renderFields (f :: fields) ++ '}' :: rest)).head? ≠ some '}' := by
        rw [htext, List.cons_append, skipSpace_cons (show isSpace quoteMark = false by decide)]
        exact fun heq => absurd (Option.some.inj heq) (by decide)
      have hwhole : render (.obj (f :: fields)) ++ rest = '{' :: (renderFields (f :: fields) ++ '}' :: rest) := by
        simp [render]
      rw [hwhole]
      simp only [parseValue, skipSpace_cons (show isSpace '{' = false by decide)]
      rw [if_neg (by decide), if_neg (by decide), if_pos trivial, if_neg hopen, hfields]
      rfl

theorem parseItems_render (items : List Value) (fuel : Nat) (rest : List Char) (hne : items ≠ [])
    (h : 2 * (renderItems items).length < fuel) :
    parseItems fuel (renderItems items ++ ']' :: rest) = some (items, rest) := by
  obtain ⟨fuel, rfl⟩ : ∃ k, fuel = k + 1 := ⟨fuel - 1, by omega⟩
  cases items with
  | nil => exact absurd rfl hne
  | cons x items =>
    cases items with
    | nil =>
      have hx := parseValue_render x fuel (']' :: rest) (by simp [renderItems] at h; omega)
        (ends_cons (by decide) rest)
      simp [parseItems, renderItems, hx, skipSpace_cons (show isSpace ']' = false by decide)]
    | cons y items =>
      have hx := parseValue_render x fuel (',' :: (renderItems (y :: items) ++ ']' :: rest))
        (by simp [renderItems] at h; omega) (ends_cons (by decide) _)
      have hitems := parseItems_render (y :: items) fuel rest (by simp) (by simp [renderItems] at h ⊢; omega)
      simp [parseItems, renderItems, hx, hitems, skipSpace_cons (show isSpace ',' = false by decide)]

theorem parseFields_render (fields : List (List Char × Value)) (fuel : Nat) (rest : List Char) (hne : fields ≠ [])
    (h : 2 * (renderFields fields).length < fuel) :
    parseFields fuel (renderFields fields ++ '}' :: rest) = some (fields, rest) := by
  obtain ⟨fuel, rfl⟩ : ∃ k, fuel = k + 1 := ⟨fuel - 1, by omega⟩
  cases fields with
  | nil => exact absurd rfl hne
  | cons f fields =>
    obtain ⟨key, x⟩ := f
    cases fields with
    | nil =>
      have hx := parseValue_render x fuel ('}' :: rest) (by simp [renderFields, renderField] at h; omega)
        (ends_cons (by decide) rest)
      rw [renderFields, renderField, List.append_assoc, List.cons_append, parseFields_key, hx]
      rfl
    | cons g fields =>
      have hx := parseValue_render x fuel (',' :: (renderFields (g :: fields) ++ '}' :: rest))
        (by simp [renderFields, renderField] at h; omega) (ends_cons (by decide) _)
      have hfields := parseFields_render (g :: fields) fuel rest (by simp)
        (by simp [renderFields, renderField] at h ⊢; omega)
      rw [renderFields, renderField]
      simp only [List.append_assoc, List.cons_append]
      rw [parseFields_key, hx]
      simp [skipSpace_cons (show isSpace ',' = false by decide), hfields]

end

theorem parse_render (j : Value) : parse (render j) = some j := by
  have hvalue := parseValue_render j _ [] (Nat.le_refl _) ends_nil
  rw [List.append_nil] at hvalue
  unfold parse
  rw [hvalue]
  rfl

theorem render_injective : Function.Injective render := by
  intro j k h
  have hparse := congrArg parse h
  rw [parse_render, parse_render] at hparse
  exact Option.some.inj hparse

/-! ### Sizes -/

/-- The bytes a value takes. -/
def size (v : Value) : Nat := (encode (render v)).length

lemma encode_cons_length (c : Char) (s : List Char) :
    (encode (c :: s)).length = (encodeChar c).length + (encode s).length := by
  rw [Utf8.encode_cons, List.length_append]

lemma encodeChar_ascii {c : Char} (h : c.toNat < 128) : encodeChar c = [c.toNat] := if_pos h

lemma encode_length_ascii {s : List Char} (h : ∀ c ∈ s, c.toNat < 128) : (encode s).length = s.length := by
  induction s with
  | nil => rfl
  | cons c s ih =>
    rw [encode_cons_length, encodeChar_ascii (h c List.mem_cons_self),
      ih fun d hd => h d (List.mem_cons_of_mem _ hd), List.length_singleton, List.length_cons, Nat.add_comm]

lemma size_str (s : List Char) : size (.str s) = (encode (s.flatMap escape)).length + 2 := by
  have hmark : (encodeChar quoteMark).length = 1 := rfl
  have hlast : (encode [quoteMark]).length = 1 := rfl
  rw [size, render, quote, List.cons_append, encode_cons_length, encode_append, List.length_append, hmark, hlast]
  omega

lemma size_str_plain {s : List Char} (h : ∀ c ∈ s, escape c = [c] ∧ c.toNat < 128) :
    size (.str s) = s.length + 2 := by
  have hflat : s.flatMap escape = s := by
    induction s with
    | nil => rfl
    | cons c s ih =>
      rw [List.flatMap_cons, (h c List.mem_cons_self).1, ih fun d hd => h d (List.mem_cons_of_mem _ hd)]
      rfl
  rw [size_str, hflat, encode_length_ascii fun c hc => (h c hc).2]

lemma escape_length_le (c : Char) : (encode (escape c)).length ≤ 6 * (encodeChar c).length := by
  have hpos := List.length_pos_of_ne_nil (Utf8.encodeChar_ne_nil c)
  unfold escape
  split
  case h_1 p hp =>
    have hshort : ∀ p ∈ shortEscapes, (encode [backslash, p.2]).length = 2 := by decide
    rw [hshort p (List.mem_of_find?_eq_some hp)]
    omega
  case h_2 =>
    split
    · have hdigit : ∀ d < 16, (hexDigit d).toNat < 128 := by decide
      rw [encode_length_ascii]
      · simp only [List.length_cons, List.length_nil]
        omega
      · intro d hd
        simp only [List.mem_cons, List.not_mem_nil, or_false] at hd
        rcases hd with rfl | rfl | rfl | rfl | rfl | rfl
        · decide
        · decide
        · decide
        · decide
        · exact hdigit _ (by omega)
        · exact hdigit _ (by omega)
    · rw [encode_cons_length]
      simp only [Utf8.encode, List.flatMap_nil, List.length_nil]
      omega

lemma size_str_le (s : List Char) : size (.str s) ≤ 6 * (encode s).length + 2 := by
  rw [size_str]
  induction s with
  | nil => simp [Utf8.encode]
  | cons c s ih =>
    have hc := escape_length_le c
    rw [List.flatMap_cons, encode_append, List.length_append, encode_cons_length]
    omega

lemma size_num_le {n k : Nat} (hk : 0 < k) (h : n < 10 ^ k) : size (.num n) ≤ k := by
  have hdigits : ∀ c ∈ Nat.toDigits 10 n, c.toNat < 128 := by
    intro c hc
    have hdigit := Nat.isDigit_of_mem_toDigits (by decide) (by decide) hc
    simp only [Char.isDigit, Bool.and_eq_true, decide_eq_true_eq, UInt32.le_iff_toNat_le] at hdigit
    have hle : c.toNat ≤ 57 := hdigit.2
    omega
  show (encode (Nat.toDigits 10 n)).length ≤ k
  rw [encode_length_ascii hdigits]
  exact (Nat.length_toDigits_le_iff (by decide) hk).mpr h

lemma renderItems_length_le (items : List Value) :
    (encode (renderItems items)).length ≤ (items.map fun v => size v + 1).sum := by
  induction items with
  | nil => exact Nat.zero_le _
  | cons x items ih =>
    cases items with
    | nil => simp [renderItems, size]
    | cons y items =>
      have hcomma : (encodeChar ',').length = 1 := rfl
      rw [renderItems, encode_append, List.length_append, encode_cons_length, hcomma, List.map_cons, List.sum_cons]
      simp only [size] at ih ⊢
      omega

lemma size_arr_le (items : List Value) : size (.arr items) ≤ 2 + (items.map fun v => size v + 1).sum := by
  have hitems := renderItems_length_le items
  have hopen : (encodeChar '[').length = 1 := rfl
  have hclose : (encode [']']).length = 1 := rfl
  rw [size, render, List.cons_append, encode_cons_length, encode_append, List.length_append, hopen, hclose]
  omega

/-- What a field takes, its colon and comma counted. -/
def fieldSize (f : List Char × Value) : Nat := size (.str f.1) + size f.2 + 2

lemma renderField_length (f : List Char × Value) : (encode (renderField f)).length + 1 = fieldSize f := by
  obtain ⟨key, value⟩ := f
  have hcolon : (encodeChar ':').length = 1 := rfl
  rw [renderField, encode_append, List.length_append, encode_cons_length, hcolon]
  simp only [fieldSize, size, render]
  omega

lemma renderFields_length_le (fields : List (List Char × Value)) :
    (encode (renderFields fields)).length ≤ (fields.map fieldSize).sum := by
  induction fields with
  | nil => exact Nat.zero_le _
  | cons f fields ih =>
    have hf := renderField_length f
    cases fields with
    | nil =>
      simp only [renderFields, List.map_cons, List.map_nil, List.sum_cons, List.sum_nil]
      omega
    | cons g fields =>
      have hcomma : (encodeChar ',').length = 1 := rfl
      rw [renderFields, encode_append, List.length_append, encode_cons_length, hcomma, List.map_cons, List.sum_cons]
      omega

lemma size_obj_le (fields : List (List Char × Value)) : size (.obj fields) ≤ 2 + (fields.map fieldSize).sum := by
  have hfields := renderFields_length_le fields
  have hopen : (encodeChar '{').length = 1 := rfl
  have hclose : (encode ['}']).length = 1 := rfl
  rw [size, render, List.cons_append, encode_cons_length, encode_append, List.length_append, hopen, hclose]
  omega

end Peal.Json
