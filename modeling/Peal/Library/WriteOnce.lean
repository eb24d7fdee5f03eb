import Mathlib.Logic.Function.Basic
import Peal.Library.Firsts

namespace Peal.WriteOnce

/-! # Tables whose entries are written once -/

variable {κ α : Type} [DecidableEq κ] (key : α → κ) (fits : α → Bool)

/-- A write that fits takes its entry, unless it is taken. -/
def put (table : κ → Option α) (a : α) : κ → Option α :=
  if fits a = true ∧ (table (key a)).isNone = true then Function.update table (key a) (some a) else table

/-- The first write to an entry that fits. -/
def first (as : List α) (k : κ) : Option α := as.find? fun a => fits a = true ∧ key a = k

/-- The writes that take their entries. -/
def taking (table : κ → Option α) : List α → List α
  | [] => []
  | a :: as =>
    if fits a = true ∧ (table (key a)).isNone = true then a :: taking (put key fits table a) as
    else taking (put key fits table a) as

variable {key fits} {table : κ → Option α} {as bs : List α} {a : α} {k : κ}

lemma put_of_taken (h : table k = some a) (b : α) : put key fits table b k = some a := by
  unfold put
  split_ifs with htakes
  · have hne : k ≠ key b := by
      rintro rfl
      rw [h] at htakes
      cases htakes.2
    rw [Function.update_of_ne hne, h]
  · exact h

lemma put_of_free (h : table k = none) (b : α) :
    put key fits table b k = if fits b = true ∧ key b = k then some b else none := by
  unfold put
  by_cases hkey : key b = k
  · subst hkey
    simp only [h, Option.isNone_none, and_true]
    split_ifs
    · exact Function.update_self _ _ _
    · exact h
  · rw [if_neg (fun hb => hkey hb.2 : ¬(fits b = true ∧ key b = k))]
    split_ifs
    · rw [Function.update_of_ne (Ne.symm hkey), h]
    · exact h

theorem foldl_put_taken (h : table k = some a) (as : List α) : as.foldl (put key fits) table k = some a := by
  induction as generalizing table with
  | nil => exact h
  | cons b as ih => exact ih (put_of_taken h b)

/-- An entry holds the first write to it that fits. -/
theorem foldl_put_free (h : table k = none) (as : List α) : as.foldl (put key fits) table k = first key fits as k := by
  induction as generalizing table with
  | nil => exact h
  | cons b as ih =>
    have hput : put key fits table b k = if fits b = true ∧ key b = k then some b else none := put_of_free h b
    by_cases hb : fits b = true ∧ key b = k
    · rw [if_pos hb] at hput
      have hfirst : first key fits (b :: as) k = some b := List.find?_cons_of_pos (decide_eq_true hb)
      rw [hfirst]
      exact foldl_put_taken hput as
    · rw [if_neg hb] at hput
      have hfirst : first key fits (b :: as) k = first key fits as k :=
        List.find?_cons_of_neg (fun hd => hb (of_decide_eq_true hd))
      rw [hfirst]
      exact ih hput

lemma first_append (as bs : List α) (k : κ) :
    first key fits (as ++ bs) k = (first key fits as k).or (first key fits bs k) :=
  List.find?_append

lemma taking_concat (table : κ → Option α) (as : List α) (a : α) : taking key fits table (as ++ [a]) =
    taking key fits table as ++
      if fits a = true ∧ (as.foldl (put key fits) table (key a)).isNone = true then [a] else [] := by
  induction as generalizing table with
  | nil => rfl
  | cons b as ih =>
    rw [List.cons_append, taking, taking, ih, List.foldl_cons]
    by_cases hb : fits b = true ∧ (table (key b)).isNone = true
    · rw [if_pos hb, if_pos hb, List.cons_append]
    · rw [if_neg hb, if_neg hb]

/-- From an empty table, the writes that take their entries are the first that fit. -/
theorem taking_eq_newOnes {seen : List κ} (h : ∀ k, k ∈ seen ↔ (table k).isNone = false) (as : List α) :
    taking key fits table as = Firsts.newOnes key seen (as.filter fits) := by
  induction as generalizing table seen with
  | nil => rfl
  | cons a as ih =>
    cases hfits : fits a with
    | false =>
      have hput : put key fits table a = table := if_neg fun hb => by simp [hfits] at hb
      rw [taking, if_neg (by simp [hfits]), hput, List.filter_cons_of_neg (by simp [hfits]), ih h]
    | true =>
      rw [List.filter_cons_of_pos hfits, taking, Firsts.newOnes]
      by_cases hseen : key a ∈ seen
      · have htaken := (h _).mp hseen
        have hnot : ¬(fits a = true ∧ (table (key a)).isNone = true) := fun hb => by simp [htaken] at hb
        rw [if_neg hnot, if_pos hseen, put, if_neg hnot, ih h]
      · have hfree : (table (key a)).isNone = true := by
          rw [← Bool.not_eq_false, ← h]
          exact hseen
        rw [if_pos ⟨hfits, hfree⟩, if_neg hseen, put, if_pos ⟨hfits, hfree⟩]
        congr 1
        refine ih fun k => ?_
        rw [List.mem_cons, h]
        by_cases hk : k = key a
        · subst hk
          simp
        · rw [Function.update_of_ne hk]
          simp [hk]

lemma first_congr {κ' : Type} [DecidableEq κ'] {key' : α → κ'} {k' : κ'} (h : ∀ a ∈ as, key a = k ↔ key' a = k') :
    first key fits as k = first key' fits as k' := by
  unfold first
  refine List.find?_congr fun a ha => ?_
  simp only [h a ha]

lemma newOnes_congr {κ' : Type} [DecidableEq κ'] {key' : α → κ'} {seen : List κ} {seen' : List κ'}
    (hseen : ∀ a ∈ as, key a ∈ seen ↔ key' a ∈ seen') (h : ∀ a ∈ as, ∀ b ∈ as, key a = key b ↔ key' a = key' b) :
    Firsts.newOnes key seen as = Firsts.newOnes key' seen' as := by
  induction as generalizing seen seen' with
  | nil => rfl
  | cons a as ih =>
    have hrest : ∀ x ∈ as, ∀ b ∈ as, key x = key b ↔ key' x = key' b := fun x hx b hb =>
      h x (List.mem_cons_of_mem a hx) b (List.mem_cons_of_mem a hb)
    rw [Firsts.newOnes, Firsts.newOnes]
    by_cases ha : key a ∈ seen
    · rw [if_pos ha, if_pos ((hseen a List.mem_cons_self).mp ha)]
      exact ih (fun x hx => hseen x (List.mem_cons_of_mem a hx)) hrest
    · rw [if_neg ha, if_neg fun ha' => ha ((hseen a List.mem_cons_self).mpr ha')]
      congr 1
      refine ih (fun x hx => ?_) hrest
      rw [List.mem_cons, List.mem_cons, hseen x (List.mem_cons_of_mem a hx),
        h x (List.mem_cons_of_mem a hx) a List.mem_cons_self]

end Peal.WriteOnce
