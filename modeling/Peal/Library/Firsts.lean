import Mathlib.Data.Finset.Card
import Mathlib.Data.List.Dedup
import Mathlib.Tactic

namespace Peal.Firsts

/-! # The first element of each key -/

variable {α κ : Type} [DecidableEq κ] (key : α → κ)

/-- The elements whose key comes for the first time, `seen` being the keys that came before. -/
def newOnes (seen : List κ) : List α → List α
  | [] => []
  | a :: rest => if key a ∈ seen then newOnes seen rest else a :: newOnes (key a :: seen) rest

/-- The first elements of their keys that pass a test. -/
def passing (p : α → Bool) (l : List α) : List α := (newOnes key [] l).filter p

/-- The keys of which some element passes. -/
def passingKeys (p : α → Bool) (l : List α) : Finset κ := ((l.filter p).map key).toFinset

/-- The keys of which some element passes and none fails. -/
def soundKeys (p : α → Bool) (l : List α) : Finset κ :=
  (passingKeys key p l).filter fun k => ∀ a ∈ l, key a = k → p a = true

variable {key} {p : α → Bool} {seen : List κ} {l l' : List α}

lemma mem_newOnes {a : α} (h : a ∈ newOnes key seen l) : a ∈ l ∧ key a ∉ seen := by
  induction l generalizing seen with
  | nil => cases h
  | cons b rest ih =>
    rw [newOnes] at h
    split at h
    · exact ⟨List.mem_cons_of_mem b (ih h).1, (ih h).2⟩
    · next hb =>
      rcases List.mem_cons.mp h with rfl | hrest
      · exact ⟨List.mem_cons_self, hb⟩
      · obtain ⟨hmem, hkey⟩ := ih hrest
        exact ⟨List.mem_cons_of_mem b hmem, fun hseen => hkey (List.mem_cons_of_mem _ hseen)⟩

lemma newOnes_nodup (seen : List κ) (l : List α) : ((newOnes key seen l).map key).Nodup := by
  induction l generalizing seen with
  | nil => exact List.nodup_nil
  | cons b rest ih =>
    rw [newOnes]
    split
    · exact ih seen
    · rw [List.map_cons, List.nodup_cons]
      refine ⟨?_, ih _⟩
      intro hmem
      obtain ⟨a, ha, hkey⟩ := List.mem_map.mp hmem
      exact (mem_newOnes ha).2 (hkey ▸ List.mem_cons_self)

lemma exists_newOnes {a : α} (ha : a ∈ l) (hseen : key a ∉ seen) : ∃ b ∈ newOnes key seen l, key b = key a := by
  induction l generalizing seen with
  | nil => cases ha
  | cons b rest ih =>
    rw [newOnes]
    rcases List.mem_cons.mp ha with rfl | hrest
    · rw [if_neg hseen]
      exact ⟨a, List.mem_cons_self, rfl⟩
    · split
      · exact ih hrest hseen
      · by_cases hkey : key b = key a
        · exact ⟨b, List.mem_cons_self, hkey⟩
        · have hnew : key a ∉ key b :: seen := by
            rw [List.mem_cons, not_or]
            exact ⟨fun h => hkey h.symm, hseen⟩
          obtain ⟨x, hx, hsame⟩ := ih hrest hnew
          exact ⟨x, List.mem_cons_of_mem b hx, hsame⟩

lemma exists_first {a : α} (ha : a ∈ l) : ∃ b ∈ newOnes key [] l, key b = key a :=
  exists_newOnes ha List.not_mem_nil

variable (key) in
lemma newOnes_append (seen : List κ) (l l' : List α) : ∃ seen', (∀ k, k ∈ seen' ↔ k ∈ l.map key ∨ k ∈ seen) ∧
    newOnes key seen (l ++ l') = newOnes key seen l ++ newOnes key seen' l' := by
  induction l generalizing seen with
  | nil => exact ⟨seen, fun k => by simp, rfl⟩
  | cons b rest ih =>
    rw [List.cons_append, newOnes, newOnes]
    split
    · next hb =>
      obtain ⟨seen', hseen', happend⟩ := ih seen
      refine ⟨seen', fun k => ?_, happend⟩
      rw [hseen', List.map_cons, List.mem_cons]
      constructor
      · exact Or.imp_left .inr
      · rintro ((rfl | hrest) | hk)
        · exact .inr hb
        · exact .inl hrest
        · exact .inr hk
    · obtain ⟨seen', hseen', happend⟩ := ih (key b :: seen)
      refine ⟨seen', fun k => ?_, by rw [happend, List.cons_append]⟩
      rw [hseen', List.map_cons, List.mem_cons, List.mem_cons]
      tauto

lemma mem_passingKeys {k : κ} : k ∈ passingKeys key p l ↔ ∃ a ∈ l, key a = k ∧ p a = true := by
  unfold passingKeys
  simp only [List.mem_toFinset, List.mem_map, List.mem_filter]
  tauto

lemma mem_soundKeys {k : κ} :
    k ∈ soundKeys key p l ↔ k ∈ passingKeys key p l ∧ ∀ a ∈ l, key a = k → p a = true := Finset.mem_filter

lemma passing_nodup (p : α → Bool) (l : List α) : ((passing key p l).map key).Nodup :=
  (newOnes_nodup [] l).sublist (List.filter_sublist.map key)

lemma length_passing (p : α → Bool) (l : List α) :
    (passing key p l).length = ((passing key p l).map key).toFinset.card := by
  rw [List.toFinset_card_of_nodup (passing_nodup p l), List.length_map]

lemma card_soundKeys_le (p : α → Bool) (l : List α) : (soundKeys key p l).card ≤ (passing key p l).length := by
  rw [length_passing]
  apply Finset.card_le_card
  intro k hk
  obtain ⟨hpassing, hall⟩ := mem_soundKeys.mp hk
  obtain ⟨a, ha, rfl, -⟩ := mem_passingKeys.mp hpassing
  obtain ⟨b, hb, hsame⟩ : ∃ b ∈ newOnes key [] l, key b = key a := exists_first ha
  rw [List.mem_toFinset, ← hsame]
  exact List.mem_map_of_mem (List.mem_filter.mpr ⟨hb, hall b (mem_newOnes hb).1 hsame⟩)

lemma length_passing_le (p : α → Bool) (l : List α) : (passing key p l).length ≤ (passingKeys key p l).card := by
  rw [length_passing]
  apply Finset.card_le_card
  intro k hk
  obtain ⟨a, ha, rfl⟩ := List.mem_map.mp (List.mem_toFinset.mp hk)
  obtain ⟨hfirst, hp⟩ := List.mem_filter.mp ha
  exact mem_passingKeys.mpr ⟨a, (mem_newOnes hfirst).1, rfl, hp⟩

lemma passingKeys_perm (h : l.Perm l') : passingKeys key p l = passingKeys key p l' := by
  ext k
  simp only [mem_passingKeys, h.mem_iff]

lemma soundKeys_perm (h : l.Perm l') : soundKeys key p l = soundKeys key p l' := by
  ext k
  simp only [mem_soundKeys, passingKeys_perm h, h.mem_iff]

lemma length_passing_front (p : α → Bool) (l : List α) :
    (passing key p (l.filter p ++ l.filter fun a => !p a)).length = (passingKeys key p l).card := by
  rw [length_passing]
  congr 1
  obtain ⟨seen', -, happend⟩ := newOnes_append key [] (l.filter p) (l.filter fun a => !p a)
  ext k
  unfold passing
  rw [happend, List.filter_append, List.mem_toFinset, List.map_append, List.mem_append, mem_passingKeys]
  constructor
  · rintro (h | h)
    · obtain ⟨a, ha, rfl⟩ := List.mem_map.mp h
      obtain ⟨hfirst, hp⟩ := List.mem_filter.mp ha
      exact ⟨a, (List.mem_filter.mp (mem_newOnes hfirst).1).1, rfl, hp⟩
    · obtain ⟨a, ha, rfl⟩ := List.mem_map.mp h
      obtain ⟨hfirst, hp⟩ := List.mem_filter.mp ha
      have hfails := (List.mem_filter.mp (mem_newOnes hfirst).1).2
      rw [hp] at hfails
      cases hfails
  · rintro ⟨a, ha, rfl, hp⟩
    obtain ⟨b, hb, hsame⟩ : ∃ b ∈ newOnes key [] (l.filter p), key b = key a :=
      exists_first (List.mem_filter.mpr ⟨ha, hp⟩)
    refine .inl (hsame ▸ List.mem_map_of_mem (List.mem_filter.mpr ⟨hb, ?_⟩))
    exact (List.mem_filter.mp (mem_newOnes hb).1).2

lemma length_passing_back (p : α → Bool) (l : List α) :
    (passing key p ((l.filter fun a => !p a) ++ l.filter p)).length = (soundKeys key p l).card := by
  rw [length_passing]
  congr 1
  obtain ⟨seen', hseen', happend⟩ := newOnes_append key [] (l.filter fun a => !p a) (l.filter p)
  have hfails : ∀ k, k ∈ seen' ↔ ∃ a ∈ l, key a = k ∧ p a = false := by
    intro k
    rw [hseen']
    simp only [List.mem_map, List.mem_filter, Bool.not_eq_true', List.not_mem_nil, or_false]
    tauto
  ext k
  unfold passing
  rw [happend, List.filter_append, List.mem_toFinset, List.map_append, List.mem_append, mem_soundKeys,
    mem_passingKeys]
  constructor
  · rintro (h | h)
    · obtain ⟨a, ha, rfl⟩ := List.mem_map.mp h
      obtain ⟨hfirst, hp⟩ := List.mem_filter.mp ha
      have hnot := (List.mem_filter.mp (mem_newOnes hfirst).1).2
      rw [hp] at hnot
      cases hnot
    · obtain ⟨a, ha, rfl⟩ := List.mem_map.mp h
      obtain ⟨hfirst, hp⟩ := List.mem_filter.mp ha
      obtain ⟨hmem, hunseen⟩ := mem_newOnes hfirst
      refine ⟨⟨a, (List.mem_filter.mp hmem).1, rfl, hp⟩, fun b hb hsame => ?_⟩
      by_contra hb'
      exact hunseen ((hfails _).mpr ⟨b, hb, hsame, by simpa using hb'⟩)
  · rintro ⟨⟨a, ha, rfl, hp⟩, hall⟩
    have hunseen : key a ∉ seen' := by
      intro hseen
      obtain ⟨b, hb, hsame, hnot⟩ := (hfails _).mp hseen
      rw [hall b hb hsame] at hnot
      cases hnot
    obtain ⟨b, hb, hsame⟩ := exists_newOnes (List.mem_filter.mpr ⟨ha, hp⟩) hunseen
    refine .inr (hsame ▸ List.mem_map_of_mem (List.mem_filter.mpr ⟨hb, ?_⟩))
    exact (List.mem_filter.mp (mem_newOnes hb).1).2

end Peal.Firsts
