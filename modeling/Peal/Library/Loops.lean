import Mathlib.Logic.Basic

namespace Peal.Loops

/-! # Loops without a bound

A turn goes on with another state or leaves with a result. -/

variable {σ ρ : Type} (turn : σ → σ ⊕ ρ)

/-- None where the loop still goes after the turns it is given. -/
def loop : Nat → σ → Option ρ
  | 0, _ => none
  | turns + 1, s =>
    match turn s with
    | .inl s => loop turns s
    | .inr r => some r

def Ends (s : σ) (r : ρ) : Prop := ∃ turns, loop turn turns s = some r

variable {turn} {s s' : σ} {r r' : ρ} {n m : Nat}

lemma loop_again (h : turn s = .inl s') : loop turn (n + 1) s = loop turn n s' := by rw [loop, h]

lemma loop_done (h : turn s = .inr r) : loop turn (n + 1) s = some r := by rw [loop, h]

lemma loop_mono (h : loop turn n s = some r) (hle : n ≤ m) : loop turn m s = some r := by
  induction n generalizing m s with
  | zero => cases h
  | succ n ih =>
    obtain ⟨m, rfl⟩ : ∃ k, m = k + 1 := Nat.exists_eq_succ_of_ne_zero (Nat.ne_of_gt (Nat.lt_of_lt_of_le n.succ_pos hle))
    cases hturn : turn s with
    | inl s' =>
      rw [loop_again hturn] at h ⊢
      exact ih h (Nat.le_of_succ_le_succ hle)
    | inr r' =>
      rw [loop_done hturn] at h ⊢
      exact h

lemma ends_again (h : turn s = .inl s') : Ends turn s r ↔ Ends turn s' r := by
  constructor
  · rintro ⟨n, hn⟩
    cases n with
    | zero => cases hn
    | succ n => exact ⟨n, by rwa [loop_again h] at hn⟩
  · rintro ⟨n, hn⟩
    exact ⟨n + 1, by rwa [loop_again h]⟩

lemma ends_done (h : turn s = .inr r) : Ends turn s r' ↔ r' = r := by
  constructor
  · rintro ⟨n, hn⟩
    cases n with
    | zero => cases hn
    | succ n =>
      rw [loop_done h] at hn
      exact (Option.some.inj hn).symm
  · rintro rfl
    exact ⟨1, loop_done h⟩

lemma Ends.unique (h : Ends turn s r) (h' : Ends turn s r') : r = r' := by
  obtain ⟨n, hn⟩ := h
  obtain ⟨m, hm⟩ := h'
  have hfar := loop_mono hn (Nat.le_max_left n m)
  rw [loop_mono hm (Nat.le_max_right n m)] at hfar
  exact (Option.some.inj hfar).symm

/-- A loop never ends that goes from each of some states to another of them. -/
theorem never_ends {P : σ → Prop} (hturn : ∀ s, P s → ∃ s', turn s = .inl s' ∧ P s') (h : P s) : ¬∃ r, Ends turn s r := by
  rintro ⟨r, n, hn⟩
  induction n generalizing s with
  | zero => cases hn
  | succ n ih =>
    obtain ⟨s', hs', hP⟩ := hturn s h
    rw [loop_again hs'] at hn
    exact ih hP hn

end Peal.Loops
