import Peal.Library.JsDecimals

namespace Peal.JsRender
open Peal.JsJson
open Peal.Json (quoteMark skipSpace skipSpace_cons isSpace Ends ends_cons ends_nil)

/-! # Nested values as JSON, and read back -/

/-- `Array.prototype.join` with commas. -/
def join : List (List Char) → List Char
  | [] => []
  | [x] => x
  | x :: y :: texts => x ++ ',' :: join (y :: texts)

mutual

def render : Value → List Char
  | .null => "null".toList
  | .bool true => "true".toList
  | .bool false => "false".toList
  | .num x => JsDecimals.text x
  | .str s => quoteUnits s
  | .arr items => '[' :: join (renderItems items) ++ [']']
  | .obj fields => '{' :: join (renderFields fields) ++ ['}']

def renderItems : List Value → List (List Char)
  | [] => []
  | x :: items => render x :: renderItems items

def renderField : List UInt16 × Value → List Char
  | (key, value) => quoteUnits key ++ ':' :: render value

def renderFields : List (List UInt16 × Value) → List (List Char)
  | [] => []
  | f :: fields => renderField f :: renderFields fields

end

mutual

/-- No number of the value is infinite or none. -/
def finite : Value → Bool
  | .num x => JsDecimals.isFinite x
  | .arr items => finiteItems items
  | .obj fields => finiteFields fields
  | .null => true
  | .bool _ => true
  | .str _ => true

def finiteItems : List Value → Bool
  | [] => true
  | x :: items => finite x && finiteItems items

def finiteField : List UInt16 × Value → Bool
  | (_, value) => finite value

def finiteFields : List (List UInt16 × Value) → Bool
  | [] => true
  | f :: fields => finiteField f && finiteFields fields

end

/-! ### First characters -/

lemma number_start {c : Char} (h : c = '-' ∨ c.isDigit = true) : isSpace c = false ∧ c ≠ ']' ∧ c ≠ quoteMark ∧
    c ≠ '[' ∧ c ≠ '\x7b' := by
  rcases h with rfl | h
  · exact ⟨by decide, by decide, by decide, by decide, by decide⟩
  · exact ⟨isSpace_digit h, digit_ne h rfl, digit_ne h (by decide), digit_ne h rfl, digit_ne h rfl⟩

lemma render_cons {v : Value} (hv : finite v = true) :
    ∃ c tail, render v = c :: tail ∧ isSpace c = false ∧ c ≠ ']' := by
  cases v with
  | null => exact ⟨'n', _, rfl, by decide, by decide⟩
  | bool b => cases b <;> exact ⟨_, _, rfl, by decide, by decide⟩
  | num x =>
    obtain ⟨c, tail, htext, hc⟩ := JsDecimals.text_cons hv
    obtain ⟨hspace, hclose, -⟩ := number_start hc
    exact ⟨c, tail, htext, hspace, hclose⟩
  | str s => exact ⟨quoteMark, _, rfl, by decide, by decide⟩
  | arr items => exact ⟨'[', _, rfl, by decide, by decide⟩
  | obj fields => exact ⟨'\x7b', _, rfl, by decide, by decide⟩

lemma join_cons {x : List Char} {c : Char} {tail : List Char} (h : x = c :: tail) (texts : List (List Char)) :
    ∃ tail', join (x :: texts) = c :: tail' := by
  subst h
  cases texts with
  | nil => exact ⟨tail, rfl⟩
  | cons y texts => exact ⟨tail ++ ',' :: join (y :: texts), rfl⟩

lemma renderField_cons (f : List UInt16 × Value) : ∃ tail, renderField f = quoteMark :: tail := by
  obtain ⟨key, value⟩ := f
  rw [renderField]
  exact ⟨_, rfl⟩

lemma parseUnits_rest (s : List UInt16) (rest : List Char) :
    parseUnits ((escapeUnits s ++ quoteMark :: rest).length + 1) (escapeUnits s ++ quoteMark :: rest) = some (s, rest) := by
  refine parseUnits_quote ?_ rest
  rw [List.length_append]
  omega

lemma quoteUnits_append (s : List UInt16) (rest : List Char) :
    quoteUnits s ++ rest = quoteMark :: (escapeUnits s ++ quoteMark :: rest) := by
  simp only [quoteUnits, List.cons_append, List.append_assoc, List.nil_append]

lemma parseFields_key (fuel : Nat) (key : List UInt16) (text : List Char) :
    parseFields (fuel + 1) (quoteUnits key ++ ':' :: text) = (do
      let (value, rest) ← parseValue fuel text
      match skipSpace rest with
      | [] => none
      | c :: rest =>
        if c = ',' then do
          let (fields, rest) ← parseFields fuel rest
          return ((key, value) :: fields, rest)
        else if c = '}' then return ([(key, value)], rest)
        else none) := by
  have hparse := parseUnits_rest key (':' :: text)
  rw [quoteUnits_append]
  simp only [parseFields, skipSpace_cons (show isSpace quoteMark = false by decide), hparse]
  simp only [Option.bind_eq_bind, Option.bind_some, skipSpace_cons (show isSpace ':' = false by decide), guard, if_true]
  rfl

lemma pos_of_render_le {v : Value} {fuel : Nat} (hv : finite v = true) (h : 2 * (render v).length ≤ fuel) :
    ∃ k, fuel = k + 1 := by
  obtain ⟨c, tail, htext, -⟩ := render_cons hv
  rw [htext, List.length_cons] at h
  exact ⟨fuel - 1, by omega⟩

/-! ### Reading -/

mutual

/-- A value is read back, whatever follows it that could not belong to it. -/
theorem parseValue_render (v : Value) (fuel : Nat) (rest : List Char) (hv : finite v = true)
    (h : 2 * (render v).length ≤ fuel) (hrest : Ends rest) : parseValue fuel (render v ++ rest) = some (v, rest) := by
  obtain ⟨fuel, rfl⟩ := pos_of_render_le hv h
  cases v with
  | null => rfl
  | bool b => cases b <;> rfl
  | num x =>
    have hparse := JsDecimals.parseNumber_text hv hrest
    obtain ⟨c, tail, htext, hc⟩ := JsDecimals.text_cons hv
    obtain ⟨hspace, -, hquote, hopen, hbrace⟩ := number_start hc
    rw [render, htext, List.cons_append]
    rw [htext, List.cons_append] at hparse
    rw [parseValue, skipSpace_cons hspace]
    dsimp only
    rw [if_neg hquote, if_neg hopen, if_neg hbrace, if_pos hc, hparse]
    rfl
  | str s =>
    rw [render, quoteUnits_append, parseValue, skipSpace_cons (show isSpace quoteMark = false by decide)]
    dsimp only
    rw [if_pos rfl, parseUnits_rest]
    rfl
  | arr items =>
    cases items with
    | nil => rfl
    | cons x items =>
      rw [render] at h ⊢
      rw [List.length_append, List.length_cons, List.length_singleton] at h
      have hitems := parseItems_render (x :: items) fuel rest hv (List.cons_ne_nil _ _) (by omega)
      rw [finite, finiteItems, Bool.and_eq_true] at hv
      obtain ⟨c, tail, hx, hspace, hclose⟩ := render_cons hv.1
      obtain ⟨tail', htext⟩ := join_cons hx (renderItems items)
      rw [renderItems] at hitems ⊢
      have hopen : (skipSpace (join (render x :: renderItems items) ++ ']' :: rest)).head? ≠ some ']' := by
        rw [htext, List.cons_append, skipSpace_cons hspace]
        exact fun heq => hclose (Option.some.inj heq)
      rw [List.cons_append, List.cons_append, List.append_assoc, List.singleton_append, parseValue,
        skipSpace_cons (show isSpace '[' = false by decide)]
      dsimp only
      rw [if_neg (by decide), if_pos rfl, if_neg hopen, hitems]
      rfl
  | obj fields =>
    cases fields with
    | nil => rfl
    | cons f fields =>
      rw [render] at h ⊢
      rw [List.length_append, List.length_cons, List.length_singleton] at h
      have hfields := parseFields_render (f :: fields) fuel rest hv (List.cons_ne_nil _ _) (by omega)
      obtain ⟨tail, hf⟩ := renderField_cons f
      obtain ⟨tail', htext⟩ := join_cons hf (renderFields fields)
      rw [renderFields] at hfields ⊢
      have hopen : (skipSpace (join (renderField f :: renderFields fields) ++ '}' :: rest)).head? ≠ some '}' := by
        rw [htext, List.cons_append, skipSpace_cons (show isSpace quoteMark = false by decide)]
        exact fun heq => absurd (Option.some.inj heq) (by decide)
      rw [List.cons_append, List.cons_append, List.append_assoc, List.singleton_append, parseValue,
        skipSpace_cons (show isSpace '\x7b' = false by decide)]
      dsimp only
      rw [if_neg (by decide), if_neg (by decide), if_pos rfl, if_neg hopen, hfields]
      rfl

theorem parseItems_render (items : List Value) (fuel : Nat) (rest : List Char) (hitems : finiteItems items = true)
    (hne : items ≠ []) (h : 2 * (join (renderItems items)).length < fuel) :
    parseItems fuel (join (renderItems items) ++ ']' :: rest) = some (items, rest) := by
  obtain ⟨fuel, rfl⟩ : ∃ k, fuel = k + 1 := ⟨fuel - 1, by omega⟩
  cases items with
  | nil => exact absurd rfl hne
  | cons x items =>
    rw [finiteItems, Bool.and_eq_true] at hitems
    cases items with
    | nil =>
      rw [renderItems, renderItems, join] at h ⊢
      have hx := parseValue_render x fuel (']' :: rest) hitems.1 (by omega) (ends_cons (by decide) rest)
      rw [parseItems, hx]
      rfl
    | cons y items =>
      rw [renderItems, renderItems, join] at h ⊢
      rw [List.length_append, List.length_cons] at h
      have hx := parseValue_render x fuel (',' :: (join (renderItems (y :: items)) ++ ']' :: rest)) hitems.1 (by omega)
        (ends_cons (by decide) _)
      have hmore := parseItems_render (y :: items) fuel rest hitems.2 (List.cons_ne_nil _ _) (by
        rw [renderItems]
        omega)
      rw [renderItems] at hx hmore
      rw [List.append_assoc, List.cons_append, parseItems, hx]
      simp only [Option.bind_eq_bind, Option.bind_some, skipSpace_cons (show isSpace ',' = false by decide), if_true, hmore]
      rfl

theorem parseFields_render (fields : List (List UInt16 × Value)) (fuel : Nat) (rest : List Char)
    (hfields : finiteFields fields = true) (hne : fields ≠ []) (h : 2 * (join (renderFields fields)).length < fuel) :
    parseFields fuel (join (renderFields fields) ++ '}' :: rest) = some (fields, rest) := by
  obtain ⟨fuel, rfl⟩ : ∃ k, fuel = k + 1 := ⟨fuel - 1, by omega⟩
  cases fields with
  | nil => exact absurd rfl hne
  | cons f fields =>
    obtain ⟨key, x⟩ := f
    rw [finiteFields, finiteField, Bool.and_eq_true] at hfields
    cases fields with
    | nil =>
      rw [renderFields, renderFields, join, renderField] at h ⊢
      rw [List.length_append, List.length_cons] at h
      have hx := parseValue_render x fuel ('}' :: rest) hfields.1 (by omega) (ends_cons (by decide) rest)
      rw [List.append_assoc, List.cons_append, parseFields_key, hx]
      rfl
    | cons g fields =>
      rw [renderFields, renderFields, join, renderField] at h ⊢
      rw [List.length_append, List.length_cons, List.length_append, List.length_cons] at h
      have hx := parseValue_render x fuel (',' :: (join (renderFields (g :: fields)) ++ '}' :: rest)) hfields.1 (by omega)
        (ends_cons (by decide) _)
      have hmore := parseFields_render (g :: fields) fuel rest hfields.2 (List.cons_ne_nil _ _) (by
        rw [renderFields]
        omega)
      rw [renderFields] at hx hmore
      rw [List.append_assoc, List.append_assoc, List.cons_append, List.cons_append, parseFields_key, hx]
      simp only [Option.bind_eq_bind, Option.bind_some, skipSpace_cons (show isSpace ',' = false by decide), if_true, hmore]
      rfl

end

/-- `JSON.parse` of what is written is the value. -/
theorem parse_render {v : Value} (hv : finite v = true) : parse (render v) = some v := by
  have hvalue := parseValue_render v _ [] hv (Nat.le_refl _) ends_nil
  rw [List.append_nil] at hvalue
  unfold parse
  rw [hvalue]
  rfl

theorem render_injective {v w : Value} (hv : finite v = true) (hw : finite w = true) (h : render v = render w) : v = w := by
  have hparse := congrArg parse h
  rw [parse_render hv, parse_render hw] at hparse
  exact Option.some.inj hparse

end Peal.JsRender
