import Peal.Library.Json
import Peal.Actions.Commitment

namespace Peal.Actions
open Peal.Json
open Peal.Links (Text Bytes)

/-! # Canonical texts -/

/-- Keys are compared code unit by code unit. -/
def keyLe : Text → Text → Bool
  | [], _ => true
  | _ :: _, [] => false
  | a :: s, b :: t => a.toNat < b.toNat || (a = b && keyLe s t)

mutual

def sortKeys : Value → Value
  | .arr items => .arr (sortItems items)
  | .obj fields => .obj ((sortFields fields).insertionSort fun f g => keyLe f.1 g.1)
  | .null => .null
  | .bool b => .bool b
  | .num n => .num n
  | .str s => .str s

def sortItems : List Value → List Value
  | [] => []
  | x :: items => sortKeys x :: sortItems items

def sortField : Text × Value → Text × Value
  | (key, value) => (key, sortKeys value)

def sortFields : List (Text × Value) → List (Text × Value)
  | [] => []
  | f :: fields => sortField f :: sortFields fields

end

def canonicalize (value : Value) : Text := render (sortKeys value)

lemma sortItems_eq_map (items : List Value) : sortItems items = items.map sortKeys := by
  induction items with
  | nil => rfl
  | cons x items ih => rw [sortItems, ih, List.map_cons]

lemma sortKeys_eq_of_canonicalize {v w : Value} (h : canonicalize v = canonicalize w) : sortKeys v = sortKeys w :=
  render_injective h

end Peal.Actions
