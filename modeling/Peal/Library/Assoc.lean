import Mathlib.Data.List.Basic

namespace Peal.Assoc

/-! # Tables as lists of keyed values -/

variable {κ ν : Type} [DecidableEq κ] {m : List (κ × ν)} {k k' : κ} {v v' : ν}

def get (m : List (κ × ν)) (k : κ) : Option ν := (m.find? fun e => e.1 = k).map Prod.snd

def erase (m : List (κ × ν)) (k : κ) : List (κ × ν) := m.filter fun e => e.1 ≠ k

def insert (m : List (κ × ν)) (k : κ) (v : ν) : List (κ × ν) := (k, v) :: erase m k

lemma mem_of_get (h : get m k = some v) : (k, v) ∈ m := by
  obtain ⟨e, he, rfl⟩ := Option.map_eq_some_iff.mp h
  have htest := List.find?_some he
  have hk : e.1 = k := of_decide_eq_true htest
  exact hk ▸ List.mem_of_find?_eq_some he

lemma mem_erase {e : κ × ν} : e ∈ erase m k ↔ e ∈ m ∧ e.1 ≠ k := by simp [erase]

lemma mem_insert {e : κ × ν} : e ∈ insert m k v ↔ e = (k, v) ∨ e ∈ m ∧ e.1 ≠ k := by
  rw [insert, List.mem_cons, mem_erase]

lemma get_insert_self : get (insert m k v) k = some v := by simp [get, insert]

lemma get_insert_of_ne (h : k' ≠ k) : get (insert m k v) k' = get m k' := by
  unfold get insert erase
  rw [List.find?_cons_of_neg (by simpa using h.symm), List.find?_filter]
  congr 2
  funext e
  by_cases he : e.1 = k'
  · simp [he, h]
  · simp [he]

/-- The same, the keys kept in order. -/
def insertSorted (m : List (Nat × ν)) (k : Nat) (v : ν) : List (Nat × ν) :=
  match m with
  | [] => [(k, v)]
  | (k', v') :: rest =>
    if k < k' then (k, v) :: (k', v') :: rest
    else if k = k' then (k, v) :: rest
    else (k', v') :: insertSorted rest k v

lemma mem_of_mem_insertSorted {m : List (Nat × ν)} {k : Nat} {e : Nat × ν} (h : e ∈ insertSorted m k v) :
    e = (k, v) ∨ e ∈ m := by
  induction m with
  | nil => exact .inl (List.mem_singleton.mp h)
  | cons head rest ih =>
    obtain ⟨k', v'⟩ := head
    rw [insertSorted] at h
    split_ifs at h
    · exact List.mem_cons.mp h
    · exact (List.mem_cons.mp h).imp_right (List.mem_cons_of_mem _)
    · rcases List.mem_cons.mp h with heq | hrest
      · exact .inr (heq ▸ List.mem_cons_self)
      · exact (ih hrest).imp_right (List.mem_cons_of_mem _)

section Sorted

variable {m : List (Nat × ν)} {k : Nat}

lemma get_eq_none_of_lt (h : ∀ e ∈ m, k < e.1) : get m k = none := by
  unfold get
  rw [Option.map_eq_none_iff, List.find?_eq_none]
  intro e he
  simpa using Nat.ne_of_gt (h e he)

lemma erase_first (h : ∀ e ∈ m, k < e.1) : erase ((k, v) :: m) k = m := by
  unfold erase
  rw [List.filter_cons_of_neg (by simp), List.filter_eq_self]
  intro e he
  simpa using Nat.ne_of_gt (h e he)

lemma insertSorted_below (h : ∀ e ∈ m, k < e.1) : insertSorted m k v = (k, v) :: m := by
  cases m with
  | nil => rfl
  | cons e m => exact if_pos (h e List.mem_cons_self)

lemma insertSorted_first : insertSorted ((k, v') :: m) k v = (k, v) :: m := by
  rw [insertSorted, if_neg (Nat.lt_irrefl k), if_pos rfl]

end Sorted

end Peal.Assoc
