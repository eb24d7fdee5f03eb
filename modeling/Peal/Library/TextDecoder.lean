import Peal.Library.Utf8

namespace Peal.TextDecoder
open Peal.Utf8

/-! # A decoder that never fails

Bytes that are no character's are replaced, and the mark a text may begin with is taken away. -/

/-- Within a character: the value so far, how many bytes are still owed, and the bounds of the next. -/
structure Pending where
  codePoint : Nat
  needed : Nat
  lower : Nat
  upper : Nat

def replacement : Char := '\uFFFD'

/-- A byte between characters. -/
def first (b : Nat) : List Char × Option Pending :=
  if b < 0x80 then ([Char.ofNat b], none)
  else if b < 0xC2 then ([replacement], none)
  else if b < 0xE0 then ([], some ⟨b - 0xC0, 1, 0x80, 0xBF⟩)
  else if b < 0xF0 then ([], some ⟨b - 0xE0, 2, if b = 0xE0 then 0xA0 else 0x80, if b = 0xED then 0x9F else 0xBF⟩)
  else if b < 0xF5 then ([], some ⟨b - 0xF0, 3, if b = 0xF0 then 0x90 else 0x80, if b = 0xF4 then 0x8F else 0xBF⟩)
  else ([replacement], none)

/-- A byte within a character; out of bounds it is read once more, as a first one. -/
def next (p : Pending) (b : Nat) : List Char × Option Pending :=
  if p.lower ≤ b ∧ b ≤ p.upper then
    if p.needed = 1 then ([Char.ofNat (p.codePoint * 0x40 + (b - 0x80))], none)
    else ([], some ⟨p.codePoint * 0x40 + (b - 0x80), p.needed - 1, 0x80, 0xBF⟩)
  else (replacement :: (first b).1, (first b).2)

def decodeFrom : Option Pending → List Nat → List Char
  | none, [] => []
  | some _, [] => [replacement]
  | none, b :: bytes => (first b).1 ++ decodeFrom (first b).2 bytes
  | some p, b :: bytes => (next p b).1 ++ decodeFrom (next p b).2 bytes

def decode (bytes : List Nat) : List Char := dropBom (decodeFrom none bytes)

lemma decodeFrom_last {p : Pending} {b n : Nat} (hneeded : p.needed = 1) (hlower : p.lower ≤ b) (hupper : b ≤ p.upper)
    (hn : p.codePoint * 0x40 + (b - 0x80) = n) (bytes : List Nat) :
    decodeFrom (some p) (b :: bytes) = Char.ofNat n :: decodeFrom none bytes := by
  rw [decodeFrom, next, if_pos ⟨hlower, hupper⟩, if_pos hneeded, hn]
  rfl

lemma decodeFrom_more {p : Pending} {b : Nat} (hneeded : p.needed ≠ 1) (hlower : p.lower ≤ b) (hupper : b ≤ p.upper)
    (bytes : List Nat) : decodeFrom (some p) (b :: bytes) =
      decodeFrom (some ⟨p.codePoint * 0x40 + (b - 0x80), p.needed - 1, 0x80, 0xBF⟩) bytes := by
  rw [decodeFrom, next, if_pos ⟨hlower, hupper⟩, if_neg hneeded]
  rfl

lemma decodeFrom_encodeChar (c : Char) (bytes : List Nat) :
    decodeFrom none (encodeChar c ++ bytes) = c :: decodeFrom none bytes := by
  have hc := char_cases c
  conv_rhs => rw [← Char.ofNat_toNat c]
  unfold encodeChar encodeScalar
  split_ifs with h1 h2 h3
  · rw [List.singleton_append, decodeFrom, first, if_pos h1]
    rfl
  · rw [List.cons_append, decodeFrom, first, if_neg (by omega), if_neg (by omega), if_pos (by omega)]
    exact decodeFrom_last rfl (by dsimp only; omega) (by dsimp only; omega) (by dsimp only; omega) bytes
  · rw [List.cons_append, List.cons_append, decodeFrom, first, if_neg (by omega), if_neg (by omega), if_neg (by omega),
      if_pos (by omega)]
    refine (decodeFrom_more (show 2 ≠ 1 by decide) (by dsimp only; split_ifs <;> omega) (by dsimp only; split_ifs <;> omega) _).trans ?_
    exact decodeFrom_last rfl (by dsimp only; omega) (by dsimp only; omega) (by dsimp only; omega) bytes
  · rw [List.cons_append, List.cons_append, List.cons_append, decodeFrom, first, if_neg (by omega), if_neg (by omega),
      if_neg (by omega), if_neg (by omega), if_pos (by omega)]
    refine (decodeFrom_more (show 3 ≠ 1 by decide) (by dsimp only; split_ifs <;> omega) (by dsimp only; split_ifs <;> omega) _).trans ?_
    refine (decodeFrom_more (show 2 ≠ 1 by decide) (by dsimp only; omega) (by dsimp only; omega) _).trans ?_
    exact decodeFrom_last rfl (by dsimp only; omega) (by dsimp only; omega) (by dsimp only; omega) bytes

/-- What is encoded is read as it is, but for a mark. -/
theorem decode_encode (s : List Char) : decode (encode s) = dropBom s := by
  have hall : decodeFrom none (encode s) = s := by
    induction s with
    | nil => rfl
    | cons c s ih => rw [encode_cons, decodeFrom_encodeChar, ih]
  rw [decode, hall]

end Peal.TextDecoder
