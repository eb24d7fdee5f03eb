import Mathlib.Tactic

namespace Peal.Bisection

/-! # Bisecting for the last point of an initial segment -/

/-- At most `rounds` halvings of the integers from `lo` up to `hi`, keeping what is kept at `lo`. -/
def bisect (p : Int → Bool) : Nat → Int → Int → Int
  | 0, lo, _ => lo
  | rounds + 1, lo, hi =>
    if 1 < hi - lo then
      let mid := (lo + hi).tdiv 2
      if p mid then bisect p rounds mid hi else bisect p rounds lo mid
    else lo

variable {p : Int → Bool}

lemma bisect_cases (rounds : Nat) {lo hi : Int} (h : 1 < hi - lo) (hlo : 0 ≤ lo) :
    ∃ mid, lo < mid ∧ mid < hi ∧ 2 * mid ≤ lo + hi ∧ lo + hi ≤ 2 * mid + 1 ∧
      bisect p (rounds + 1) lo hi = if p mid then bisect p rounds mid hi else bisect p rounds lo mid := by
  refine ⟨(lo + hi).tdiv 2, ?_⟩
  rw [Int.tdiv_eq_ediv_of_nonneg (by omega)]
  refine ⟨by omega, by omega, by omega, by omega, ?_⟩
  rw [bisect, if_pos h, Int.tdiv_eq_ediv_of_nonneg (by omega)]

/-- The search stays between its bounds, what it moves to is kept, and what follows it is not, if there were rounds
enough. -/
theorem bisect_between {rounds : Nat} {lo hi : Int} (hlo : 0 ≤ lo) (hlt : lo < hi) (hrounds : hi - lo ≤ 2 ^ rounds) :
    lo ≤ bisect p rounds lo hi ∧ bisect p rounds lo hi < hi ∧
      (bisect p rounds lo hi = lo ∨ p (bisect p rounds lo hi) = true) ∧
      (bisect p rounds lo hi + 1 = hi ∨ p (bisect p rounds lo hi + 1) = false) := by
  induction rounds generalizing lo hi with
  | zero =>
    rw [pow_zero] at hrounds
    have heq : lo + 1 = hi := by omega
    exact ⟨le_rfl, hlt, .inl rfl, .inl heq⟩
  | succ rounds ih =>
    by_cases h : 1 < hi - lo
    · obtain ⟨mid, hlomid, hmidhi, hlower, hupper, hstep⟩ := bisect_cases (p := p) rounds h hlo
      rw [pow_succ] at hrounds
      rw [hstep]
      split_ifs with hmid
      · obtain ⟨hle, hbelow, hkept, hnext⟩ := ih (by omega) hmidhi (by omega)
        refine ⟨by omega, hbelow, ?_, hnext⟩
        rcases hkept with heq | hkept
        · rw [heq]
          exact .inr hmid
        · exact .inr hkept
      · obtain ⟨hle, hbelow, hkept, hnext⟩ := ih hlo hlomid (by omega)
        refine ⟨hle, by omega, hkept, ?_⟩
        rcases hnext with heq | hnext
        · rw [heq]
          exact .inr (Bool.not_eq_true _ ▸ hmid)
        · exact .inr hnext
    · rw [bisect, if_neg h]
      exact ⟨le_rfl, hlt, .inl rfl, .inl (by omega)⟩

/-- Where what is kept is an initial segment, the search finds its last point, or stays where it started. -/
theorem bisect_isGreatest {rounds : Nat} {lo hi : Int} (hlo : 0 ≤ lo) (hlt : lo < hi)
    (hrounds : hi - lo ≤ 2 ^ rounds) (hsegment : ∀ a b, lo < a → a ≤ b → b < hi → p b = true → p a = true) :
    IsGreatest {a | lo < a ∧ a < hi ∧ p a = true} (bisect p rounds lo hi) ∨
      bisect p rounds lo hi = lo ∧ ∀ a, lo < a → a < hi → p a = false := by
  obtain ⟨hle, hbelow, hkept, hnext⟩ := bisect_between (p := p) hlo hlt hrounds
  generalize bisect p rounds lo hi = m at hle hbelow hkept hnext
  have hlast : ∀ a, m < a → a < hi → p a = false := by
    intro a hma hahi
    rcases hnext with heq | hfalse
    · omega
    · rw [← Bool.not_eq_true]
      intro htrue
      rw [hsegment (m + 1) a (by omega) (by omega) hahi htrue] at hfalse
      cases hfalse
  rcases hkept with rfl | htrue
  · exact .inr ⟨rfl, hlast⟩
  · rcases hle.lt_or_eq with hlt | rfl
    · refine .inl ⟨⟨hlt, hbelow, htrue⟩, ?_⟩
      rintro a ⟨-, hahi, ha⟩
      by_contra hma
      rw [hlast a (by omega) hahi] at ha
      cases ha
    · exact .inr ⟨rfl, hlast⟩

end Peal.Bisection
