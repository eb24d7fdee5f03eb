import Mathlib.Data.List.Lex
import Peal.Library.Fallible
import Peal.Library.JsRender
import Peal.Library.Rows

namespace Peal.Actions.Serialisation
open Peal.Fallible Peal.Doubles Peal.JsRender
open Peal.JsJson (quoteUnits)

/-! # Any value of the language as canonical text

Strings are UTF-16 units and numbers doubles, arrays may have holes, and objects have keys that may be undefined. -/

abbrev JsText := List UInt16

/-- The doubles have one zero. A hole of an array is none; an instance is an object of a class, and what is left are
functions and symbols. -/
inductive JsValue where
  | undefined
  | null
  | bool (b : Bool)
  | num (x : Double)
  | negativeZero
  | bigint (n : Int)
  | str (s : JsText)
  | arr (items : List (Option JsValue))
  | obj (fields : List (JsText × JsValue))
  | classInstance (fields : List (JsText × JsValue))
  | other (type : JsText)

def units (s : String) : JsText := Utf16.encode s.toList

def fail {α : Type} (msg : JsText) : Except JsText α := .error (units "cannot canonicalize: " ++ msg)

/-- Keys in the order of their units. -/
def keyOrder {α : Type} (f g : JsText × α) : Prop := f.1.map UInt16.toNat ≤ g.1.map UInt16.toNat

instance {α : Type} : DecidableRel (keyOrder (α := α)) := fun _ _ => inferInstanceAs (Decidable (_ ≤ _))

def itemPath (path : JsText) (i : Nat) : JsText := path ++ units "[" ++ Utf16.encode (Nat.toDigits 10 i) ++ units "]"

def fieldPath (path key : JsText) : JsText := path ++ units "." ++ key

mutual

def enc : JsValue → JsText → Except JsText (List Char)
  | .null, _ => .ok "null".toList
  | .str s, _ => .ok (quoteUnits s)
  | .bool true, _ => .ok "true".toList
  | .bool false, _ => .ok "false".toList
  | .num x, path =>
    if JsDecimals.isFinite x then .ok (JsDecimals.text x)
    else fail (path ++ units " is " ++ Utf16.encode (JsDecimals.text x) ++ units ", which has no JSON representation")
  | .negativeZero, _ => .ok "0".toList
  | .bigint _, path => fail (path ++ units " is a bigint; encode uint256 values as decimal strings")
  | .undefined, path => fail (path ++ units " is undefined and should have been dropped by its parent")
  | .arr items, path => (encItems items path 0).map fun texts => '[' :: join texts ++ [']']
  | .classInstance _, path => fail (path ++ units " is a class instance; only plain objects are canonicalizable")
  | .obj fields, path =>
    (((encFields fields path).insertionSort keyOrder).mapM Prod.snd).map fun parts => '{' :: join parts ++ ['}']
  | .other type, path => fail (path ++ units " has unsupported type " ++ type)

/-- `map` passes over a hole, and `join` writes nothing for it. -/
def encItem : Option JsValue → JsText → Except JsText (List Char)
  | none, _ => .ok []
  | some .undefined, path => fail (path ++ units " is undefined")
  | some x, path => enc x path

def encItems : List (Option JsValue) → JsText → Nat → Except JsText (List (List Char))
  | [], _, _ => .ok []
  | x :: items, path, i => do
    let text ← encItem x (itemPath path i)
    let texts ← encItems items path (i + 1)
    return text :: texts

/-- Nothing for an undefined property. -/
def encField : JsText × JsValue → JsText → Option (JsText × Except JsText (List Char))
  | (_, .undefined), _ => none
  | (key, value), path => some (key, (enc value (fieldPath path key)).map fun text => quoteUnits key ++ ':' :: text)

def encFields : List (JsText × JsValue) → JsText → List (JsText × Except JsText (List Char))
  | [], _ => []
  | f :: fields, path => (encField f path).toList ++ encFields fields path

end

def canonicalize (value : JsValue) : Except JsText (List Char) := enc value (units "$")

/-! ### What a text is read as -/

mutual

/-- Of properties with one key the last counts. -/
def ofJson : JsJson.Value → JsValue
  | .null => .null
  | .bool b => .bool b
  | .num x => .num x
  | .str s => .str s
  | .arr items => .arr (ofItems items)
  | .obj fields => .obj (ofFields fields)

def ofItems : List JsJson.Value → List (Option JsValue)
  | [] => []
  | x :: items => some (ofJson x) :: ofItems items

def ofField : JsText × JsJson.Value → JsText × JsValue
  | (key, value) => (key, ofJson value)

def ofFields : List (JsText × JsJson.Value) → List (JsText × JsValue)
  | [] => []
  | f :: fields => if f.1 ∈ fields.map Prod.fst then ofFields fields else ofField f :: ofFields fields

end

/-- A property of an object, undefined where it is not there. -/
def lookup (fields : List (JsText × JsValue)) (key : JsText) : JsValue := (fields.lookup key).getD .undefined

/-- Equality up to the order of keys, undefined properties and the sign of zero. -/
inductive Alike : JsValue → JsValue → Prop where
  | undefined : Alike .undefined .undefined
  | null : Alike .null .null
  | bool (b : Bool) : Alike (.bool b) (.bool b)
  | num (x : Double) : Alike (.num x) (.num x)
  | str (s : JsText) : Alike (.str s) (.str s)
  | negativeZero : Alike .negativeZero .negativeZero
  | zeros {x : Double} (h : x = .ofRat 0) : Alike (.num x) .negativeZero
  | zeros' {x : Double} (h : x = .ofRat 0) : Alike .negativeZero (.num x)
  | bigint (n : Int) : Alike (.bigint n) (.bigint n)
  | other (type : JsText) : Alike (.other type) (.other type)
  | arr {items items' : List (Option JsValue)} (length : items.length = items'.length)
      (holes : ∀ i : Nat, items[i]? = some none ↔ items'[i]? = some none)
      (same : ∀ (i : Nat) x y, items[i]? = some (some x) → items'[i]? = some (some y) → Alike x y) : Alike (.arr items) (.arr items')
  | obj {fields fields' : List (JsText × JsValue)} (same : ∀ key, Alike (lookup fields key) (lookup fields' key)) :
      Alike (.obj fields) (.obj fields')
  | classInstance {fields fields' : List (JsText × JsValue)} (same : ∀ key, Alike (lookup fields key) (lookup fields' key)) :
      Alike (.classInstance fields) (.classInstance fields')

mutual

/-- Somewhere in the value an array has a hole. -/
def sparse : JsValue → Bool
  | .arr items => sparseItems items
  | .obj fields => sparseFields fields
  | .undefined => false
  | .null => false
  | .bool _ => false
  | .num _ => false
  | .negativeZero => false
  | .bigint _ => false
  | .str _ => false
  | .classInstance _ => false
  | .other _ => false

def sparseItem : Option JsValue → Bool
  | none => true
  | some x => sparse x

def sparseItems : List (Option JsValue) → Bool
  | [] => false
  | x :: items => sparseItem x || sparseItems items

def sparseField : JsText × JsValue → Bool
  | (_, value) => sparse value

def sparseFields : List (JsText × JsValue) → Bool
  | [] => false
  | f :: fields => sparseField f || sparseFields fields

end

mutual

/-- The value holds something that has no place in JSON: an item that is undefined, a number that is not finite, a bigint,
an instance of a class, a function or a symbol. -/
def refused : JsValue → Bool
  | .arr items => refusedItems items
  | .obj fields => refusedFields fields
  | .undefined => true
  | .null => false
  | .bool _ => false
  | .num x => !JsDecimals.isFinite x
  | .negativeZero => false
  | .bigint _ => true
  | .str _ => false
  | .classInstance _ => true
  | .other _ => true

def refusedItem : Option JsValue → Bool
  | none => false
  | some x => refused x

def refusedItems : List (Option JsValue) → Bool
  | [] => false
  | x :: items => refusedItem x || refusedItems items

def refusedField : JsText × JsValue → Bool
  | (_, .undefined) => false
  | (_, value) => refused value

def refusedFields : List (JsText × JsValue) → Bool
  | [] => false
  | f :: fields => refusedField f || refusedFields fields

end

mutual

/-- No object has two properties of one key. -/
def Plain : JsValue → Prop
  | .arr items => PlainItems items
  | .obj fields => (fields.map Prod.fst).Nodup ∧ PlainFields fields
  | .classInstance fields => (fields.map Prod.fst).Nodup ∧ PlainFields fields
  | .undefined => True
  | .null => True
  | .bool _ => True
  | .num _ => True
  | .negativeZero => True
  | .bigint _ => True
  | .str _ => True
  | .other _ => True

def PlainItem : Option JsValue → Prop
  | none => True
  | some x => Plain x

def PlainItems : List (Option JsValue) → Prop
  | [] => True
  | x :: items => PlainItem x ∧ PlainItems items

def PlainField : JsText × JsValue → Prop
  | (_, value) => Plain value

def PlainFields : List (JsText × JsValue) → Prop
  | [] => True
  | f :: fields => PlainField f ∧ PlainFields fields

end

/-! ### The values one by one -/

/-- Arrays by their items and objects by their properties. -/
@[elab_as_elim]
theorem JsValue.ind {P : JsValue → Prop} (v : JsValue) (undefined : P .undefined) (null : P .null) (bool : ∀ b, P (.bool b))
    (num : ∀ x, P (.num x)) (negativeZero : P .negativeZero) (bigint : ∀ n, P (.bigint n)) (str : ∀ s, P (.str s))
    (arr : ∀ items, (∀ x, some x ∈ items → P x) → P (.arr items))
    (obj : ∀ fields, (∀ f ∈ fields, P f.2) → P (.obj fields))
    (classInstance : ∀ fields, (∀ f ∈ fields, P f.2) → P (.classInstance fields)) (other : ∀ type, P (.other type)) : P v := by
  refine @JsValue.rec P (fun items => ∀ x, some x ∈ items → P x) (fun fields => ∀ f ∈ fields, P f.2)
    (fun item => ∀ x, item = some x → P x) (fun f => P f.2) undefined null bool num negativeZero bigint str arr obj
    classInstance other ?_ ?_ ?_ ?_ ?_ ?_ ?_ v
  · exact fun x h => absurd h List.not_mem_nil
  · intro item items hitem hitems x h
    rcases List.mem_cons.mp h with heq | hrest
    · exact hitem x heq.symm
    · exact hitems x hrest
  · exact fun f h => absurd h List.not_mem_nil
  · intro f fields hf hfields g h
    rcases List.mem_cons.mp h with rfl | hrest
    · exact hf
    · exact hfields g hrest
  · exact fun x h => absurd h (by simp)
  · rintro x hx y ⟨⟩
    exact hx
  · exact fun key value h => h

lemma sparseItems_iff {items : List (Option JsValue)} :
    sparseItems items = true ↔ none ∈ items ∨ ∃ x, some x ∈ items ∧ sparse x = true := by
  induction items with
  | nil => simp [sparseItems]
  | cons x items ih =>
    rw [sparseItems, Bool.or_eq_true, ih]
    cases x with
    | none => simp [sparseItem]
    | some x => simp only [sparseItem, List.mem_cons, reduceCtorEq, false_or, Option.some.injEq]; grind

lemma sparseFields_iff {fields : List (JsText × JsValue)} :
    sparseFields fields = true ↔ ∃ f ∈ fields, sparse f.2 = true := by
  induction fields with
  | nil => simp [sparseFields]
  | cons f fields ih =>
    have hf : sparseField f = sparse f.2 := by rw [sparseField]
    rw [sparseFields, Bool.or_eq_true, ih, hf]
    simp

lemma refusedItems_iff {items : List (Option JsValue)} :
    refusedItems items = true ↔ ∃ x, some x ∈ items ∧ refused x = true := by
  induction items with
  | nil => simp [refusedItems]
  | cons x items ih =>
    rw [refusedItems, Bool.or_eq_true, ih]
    cases x with
    | none => simp [refusedItem]
    | some x => simp only [refusedItem, List.mem_cons, Option.some.injEq]; grind

lemma refusedField_iff {f : JsText × JsValue} : refusedField f = true ↔ f.2 ≠ .undefined ∧ refused f.2 = true := by
  obtain ⟨key, value⟩ := f
  cases value <;> simp [refusedField]

lemma refusedFields_iff {fields : List (JsText × JsValue)} :
    refusedFields fields = true ↔ ∃ f ∈ fields, f.2 ≠ .undefined ∧ refused f.2 = true := by
  induction fields with
  | nil => simp [refusedFields]
  | cons f fields ih =>
    rw [refusedFields, Bool.or_eq_true, ih, refusedField_iff]
    simp

lemma plainItems_iff {items : List (Option JsValue)} : PlainItems items ↔ ∀ x, some x ∈ items → Plain x := by
  induction items with
  | nil => simp [PlainItems]
  | cons x items ih =>
    rw [PlainItems, ih]
    cases x with
    | none => simp [PlainItem]
    | some x => simp only [PlainItem, List.mem_cons, Option.some.injEq]; grind

lemma plainFields_iff {fields : List (JsText × JsValue)} : PlainFields fields ↔ ∀ f ∈ fields, Plain f.2 := by
  induction fields with
  | nil => simp [PlainFields]
  | cons f fields ih =>
    have hf : PlainField f = Plain f.2 := by rw [PlainField]
    rw [PlainFields, ih, hf, List.forall_mem_cons]

/-! ### Properties by their keys -/

section Lookup

variable {fields : List (JsText × JsValue)} {key : JsText} {value : JsValue}

lemma lookup_cons (f : JsText × JsValue) (fields : List (JsText × JsValue)) (key : JsText) :
    lookup (f :: fields) key = if key = f.1 then f.2 else lookup fields key := by
  unfold lookup
  rw [List.lookup_cons]
  by_cases h : key = f.1
  · rw [if_pos h, beq_iff_eq.mpr h]
    rfl
  · rw [if_neg h, beq_eq_false_iff_ne.mpr h]

lemma lookup_of_mem (hkeys : (fields.map Prod.fst).Nodup) (h : (key, value) ∈ fields) : lookup fields key = value := by
  induction fields with
  | nil => cases h
  | cons f fields ih =>
    rw [List.map_cons, List.nodup_cons] at hkeys
    rw [lookup_cons]
    rcases List.mem_cons.mp h with rfl | hrest
    · rw [if_pos rfl]
    · have hne : key ≠ f.1 := fun heq => hkeys.1 (heq ▸ List.mem_map_of_mem hrest)
      rw [if_neg hne, ih hkeys.2 hrest]

lemma mem_of_lookup (h : lookup fields key ≠ .undefined) : (key, lookup fields key) ∈ fields := by
  induction fields with
  | nil => exact absurd rfl h
  | cons f fields ih =>
    rw [lookup_cons] at h ⊢
    by_cases heq : key = f.1
    · rw [if_pos heq, heq]
      exact List.mem_cons_self
    · rw [if_neg heq] at h ⊢
      exact List.mem_cons_of_mem _ (ih h)

end Lookup

end Peal.Actions.Serialisation
