import Mathlib.Data.List.Basic

namespace Peal.Paths

/-! # Paths of recorded moves -/

variable {σ ρ : Type} (source target : ρ → σ) (edge : σ → σ → Prop)

/-- The records lead from the one state to the other, each along an edge. -/
def Path : σ → List ρ → σ → Prop
  | s, [], t => s = t
  | s, r :: rest, t => source r = s ∧ edge s (target r) ∧ Path (target r) rest t

variable {source target edge} {s t u : σ} {front back log : List ρ} {r : ρ}

lemma path_append : Path source target edge s (front ++ back) u ↔
    ∃ t, Path source target edge s front t ∧ Path source target edge t back u := by
  induction front generalizing s with
  | nil =>
    constructor
    · exact fun h => ⟨s, rfl, h⟩
    · rintro ⟨t, rfl, h⟩
      exact h
  | cons r front ih =>
    rw [List.cons_append, Path, ih]
    constructor
    · rintro ⟨hsource, hedge, t, hfront, hback⟩
      exact ⟨t, ⟨hsource, hedge, hfront⟩, hback⟩
    · rintro ⟨t, ⟨hsource, hedge, hfront⟩, hback⟩
      exact ⟨hsource, hedge, t, hfront, hback⟩

lemma Path.concat (h : Path source target edge s log (source r)) (hedge : edge (source r) (target r)) :
    Path source target edge s (log ++ [r]) (target r) :=
  path_append.mpr ⟨source r, h, rfl, hedge, rfl⟩

lemma Path.unique (h : Path source target edge s log t) (h' : Path source target edge s log u) : t = u := by
  induction log generalizing s with
  | nil => exact h.symm.trans h'
  | cons r log ih => exact ih h.2.2 h'.2.2

/-- A path that leaves a set of states leaves it through the one state that its edges lead out to. -/
theorem Path.enters {S : σ → Prop} {gate : σ} (hexit : ∀ x y, edge x y → S x → ¬S y → y = gate) (hs : S s) (ht : ¬S t)
    (h : Path source target edge s log t) :
    ∃ front r back, log = front ++ r :: back ∧ target r = gate ∧ Path source target edge gate back t := by
  induction log generalizing s with
  | nil =>
    obtain rfl : s = t := h
    exact absurd hs ht
  | cons r log ih =>
    obtain ⟨-, hedge, hrest⟩ := h
    by_cases hr : S (target r)
    · obtain ⟨front, r', back, rfl, hgate, hback⟩ := ih hr hrest
      exact ⟨r :: front, r', back, rfl, hgate, hback⟩
    · have hgate := hexit _ _ hedge hs hr
      exact ⟨[], r, log, rfl, hgate, hgate ▸ hrest⟩

lemma Path.ends (hstuck : ∀ y, ¬edge (target r) y) (h : Path source target edge s (front ++ r :: back) t) :
    back = [] ∧ target r = t := by
  obtain ⟨u, -, -, -, hback⟩ := path_append.mp h
  cases back with
  | nil => exact ⟨rfl, hback⟩
  | cons r' back => exact absurd hback.2.1 (hstuck _)

end Peal.Paths
