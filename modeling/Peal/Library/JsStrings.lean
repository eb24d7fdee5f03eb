import Mathlib.Tactic
import Mathlib.Data.List.DropRight

namespace Peal.JsStrings

/-! # Strings as a script engine reads them -/

def isWhiteSpace (c : Char) : Bool :=
  let n := c.toNat
  n == 9 || n == 10 || n == 11 || n == 12 || n == 13 || n == 32 || n == 0xA0 || n == 0x1680 ||
    (0x2000 ≤ n && n ≤ 0x200A) || n == 0x2028 || n == 0x2029 || n == 0x202F || n == 0x205F || n == 0x3000 ||
    n == 0xFEFF

def trim (s : List Char) : List Char := ((s.dropWhile isWhiteSpace).reverse.dropWhile isWhiteSpace).reverse

lemma dropWhile_of_begins {α : Type} {p : α → Bool} {s t : List α} (h : t <+: s) (hs : s.dropWhile p = s) :
    t.dropWhile p = t := by
  rw [List.dropWhile_eq_self_iff] at hs ⊢
  intro ht
  have hlt : 0 < s.length := ht.trans_le h.length_le
  rw [h.getElem ht]
  exact hs hlt

lemma strip_strip {α : Type} (p : α → Bool) (s : List α) :
    (((s.dropWhile p).rdropWhile p).dropWhile p).rdropWhile p = (s.dropWhile p).rdropWhile p := by
  rw [dropWhile_of_begins (List.rdropWhile_prefix p _) (List.dropWhile_idempotent p s), List.rdropWhile_idempotent]

lemma strip_eq_self {α : Type} {p : α → Bool} {s : List α} :
    (s.dropWhile p).rdropWhile p = s ↔ (∀ c ∈ s.head?, p c = false) ∧ ∀ c ∈ s.getLast?, p c = false := by
  constructor
  · intro h
    have hfront : s.dropWhile p = s := by
      refine (List.dropWhile_suffix p).eq_of_length_le ?_
      conv_lhs => rw [← h]
      exact (List.rdropWhile_prefix p _).length_le
    rw [hfront] at h
    constructor
    · intro c hc
      obtain ⟨rest, rfl⟩ := List.head?_eq_some_iff.mp hc
      by_contra hno
      rw [List.dropWhile_cons_of_pos (by simpa using hno)] at hfront
      have hlength := congrArg List.length hfront
      have hle := (List.dropWhile_suffix (l := rest) p).length_le
      rw [List.length_cons] at hlength
      omega
    · intro c hc
      obtain ⟨front, rfl⟩ := List.getLast?_eq_some_iff.mp hc
      by_contra hno
      rw [List.rdropWhile_concat_pos _ _ _ (by simpa using hno)] at h
      have hlength := congrArg List.length h
      have hle := (List.rdropWhile_prefix p front).length_le
      rw [List.length_append, List.length_singleton] at hlength
      omega
  · rintro ⟨hfirst, hlast⟩
    have hfront : s.dropWhile p = s := by
      cases s with
      | nil => rfl
      | cons c rest => rw [List.dropWhile_cons_of_neg (by rw [hfirst c rfl]; decide)]
    rw [hfront]
    rcases List.eq_nil_or_concat s with rfl | ⟨front, c, rfl⟩
    · rfl
    · rw [List.concat_eq_append] at hlast ⊢
      rw [List.rdropWhile_concat_neg _ _ _ (by rw [hlast c List.getLast?_concat]; decide)]

lemma trim_trim (s : List Char) : trim (trim s) = trim s := strip_strip isWhiteSpace s

lemma trim_pad {before core after : List Char} (hpad : ∀ c ∈ before ++ after, isWhiteSpace c = true)
    (hfirst : ∀ c ∈ core.head?, isWhiteSpace c = false) (hlast : ∀ c ∈ core.getLast?, isWhiteSpace c = false) :
    core ≠ [] → trim (before ++ core ++ after) = core := by
  intro hne
  obtain ⟨hbefore, hafter⟩ := List.forall_mem_append.mp hpad
  have hstart : (before ++ core ++ after).dropWhile isWhiteSpace = core ++ after := by
    rw [List.append_assoc, List.dropWhile_append_of_pos hbefore]
    cases core with
    | nil => exact absurd rfl hne
    | cons c core => simp [hfirst c rfl]
  have hend : ((core ++ after).reverse.dropWhile isWhiteSpace) = core.reverse := by
    rw [List.reverse_append, List.dropWhile_append_of_pos fun c hc => hafter c (List.mem_reverse.mp hc)]
    cases hrev : core.reverse with
    | nil => rfl
    | cons c rest =>
      have hc : core.getLast? = some c := by rw [← List.head?_reverse, hrev]; rfl
      simp [hlast c hc]
  rw [trim, hstart, hend, List.reverse_reverse]

lemma trim_split (s : List Char) :
    ∃ before after, s = before ++ trim s ++ after ∧ ∀ c ∈ before ++ after, isWhiteSpace c = true := by
  refine ⟨s.takeWhile isWhiteSpace, (s.dropWhile isWhiteSpace).rtakeWhile isWhiteSpace, ?_, ?_⟩
  · have hend := List.rdropWhile_append_rtakeWhile (p := isWhiteSpace) (l := s.dropWhile isWhiteSpace)
    rw [List.append_assoc, trim, ← List.rdropWhile, hend, List.takeWhile_append_dropWhile]
  · refine List.forall_mem_append.mpr ⟨fun c hc => List.mem_takeWhile_imp hc, fun c hc => ?_⟩
    exact List.mem_rtakeWhile_imp hc

/-- `length`, in UTF-16 units. -/
def utf16Length (s : List Char) : Nat := (s.map fun c => if c.toNat < 0x10000 then 1 else 2).sum

lemma utf16Length_of_lt {s : List Char} (h : ∀ c ∈ s, c.toNat < 0x10000) : utf16Length s = s.length := by
  induction s with
  | nil => rfl
  | cons c s ih =>
    obtain ⟨hc, hs⟩ := List.forall_mem_cons.mp h
    rw [utf16Length, List.map_cons, if_pos hc, List.sum_cons, List.length_cons, add_comm]
    exact congrArg (· + 1) (ih hs)

lemma utf16Length_le (s : List Char) : utf16Length s ≤ 2 * s.length := by
  induction s with
  | nil => exact le_refl 0
  | cons c s ih =>
    rw [utf16Length] at ih
    rw [utf16Length, List.map_cons, List.sum_cons, List.length_cons]
    split_ifs
    · omega
    · omega

/-- The value of a digit below the base. -/
def digit (base : Nat) (c : Char) : Option Nat :=
  ("0123456789abcdef".toList.findIdx? fun d => d = c.toLower).filter fun d => d < base

def digits (base : Nat) : List Char → Option Nat
  | [] => none
  | s => s.foldlM (fun n c => (digit base c).map fun d => n * base + d) 0

/-- The integer a string denotes: blank is zero, and only a decimal may carry a sign. -/
def toBigInt (s : List Char) : Option Int :=
  match trim s with
  | [] => some 0
  | '0' :: 'x' :: rest => (digits 16 rest).map fun n => (n : Int)
  | '0' :: 'X' :: rest => (digits 16 rest).map fun n => (n : Int)
  | '0' :: 'o' :: rest => (digits 8 rest).map fun n => (n : Int)
  | '0' :: 'O' :: rest => (digits 8 rest).map fun n => (n : Int)
  | '0' :: 'b' :: rest => (digits 2 rest).map fun n => (n : Int)
  | '0' :: 'B' :: rest => (digits 2 rest).map fun n => (n : Int)
  | '-' :: rest => (digits 10 rest).map fun n => -(n : Int)
  | '+' :: rest => (digits 10 rest).map fun n => (n : Int)
  | rest => (digits 10 rest).map fun n => (n : Int)

end Peal.JsStrings
