import Peal.Auction.ClearingPrice
import Mathlib.Order.Bounds.Basic

namespace Peal.Auction
open Peal.Fallible Peal.UniformPrice

/-! # What a demand array clears at -/

/-- The result of a scan: the highest tick whose demand from the top reaches the supply, else the reserve. -/
structure ClearsAt (demand : List Nat) (supply : Nat) (r : Result) : Prop where
  covered : supply ≤ demand.sum → IsGreatest {t | t < demand.length ∧ supply ≤ (demand.drop t).sum} r.clearingTick
  uncovered : demand.sum < supply → r.clearingTick = 0
  sold : r.supplySold = min supply demand.sum
  cleared : r.cleared = true ↔ 0 < demand.sum

/-- Demand is added, to any ticks. -/
def Raises (demand demand' : List Nat) : Prop := List.Forall₂ (· ≤ ·) demand demand'

/-- One order for the whole demand of each tick. -/
def ladder (demand : List Nat) : List Order := demand.zipIdx.map fun x => ⟨x.1, x.2⟩

section Ladder

variable (demand : List Nat)

lemma demandFrom_zipIdx (n t : Nat) :
    demandFrom ((demand.zipIdx n).map fun x => ⟨x.1, x.2⟩) t = (demand.drop (t - n)).sum := by
  induction demand generalizing n with
  | nil => simp [demandFrom]
  | cons q demand ih =>
    rw [List.zipIdx_cons, List.map_cons, demandFrom, quantityWhere_cons]
    change _ + demandFrom _ t = _
    rw [ih (n + 1)]
    by_cases h : t ≤ n
    · rw [if_pos (by simpa using h), Nat.sub_eq_zero_of_le h, Nat.sub_eq_zero_of_le (by omega), List.drop_zero,
        List.drop_zero, List.sum_cons]
    · have hsub : t - n = t - (n + 1) + 1 := by omega
      rw [if_neg (by simpa using h), hsub, List.drop_succ_cons, Nat.zero_add]

lemma demandFrom_ladder (t : Nat) : demandFrom (ladder demand) t = (demand.drop t).sum :=
  demandFrom_zipIdx demand 0 t

lemma ladder_buckets : Buckets demand (ladder demand) where
  in_range o ho := by
    obtain ⟨⟨q, t⟩, hmem, rfl⟩ := List.mem_map.mp ho
    exact List.snd_lt_of_mem_zipIdx hmem
  bucket t ht := by
    have hstep := demandFrom_step (ladder demand) t
    rw [demandFrom_ladder, demandFrom_ladder, List.drop_eq_getElem_cons ht, List.sum_cons] at hstep
    rw [List.getD_eq_getElem?_getD, List.getElem?_eq_getElem ht, Option.getD_some]
    omega

end Ladder

section Scan

variable {demand demand' : List Nat} {supply : Nat} {r : Result}

lemma drop_sum_le (demand : List Nat) (t : Nat) : (demand.drop t).sum ≤ demand.sum := by
  have h := demandFrom_antitone (ladder demand) (Nat.zero_le t)
  rwa [demandFrom_ladder, demandFrom_ladder, List.drop_zero] at h

lemma clearingTick_isGreatest (hlen : 0 < demand.length) (hfull : supply ≤ demand.sum) :
    IsGreatest {t | t < demand.length ∧ supply ≤ (demand.drop t).sum}
      (clearingTick (ladder demand) supply demand.length) := by
  have hle := clearingTick_le (ladder demand) supply demand.length
  constructor
  · refine ⟨by omega, ?_⟩
    rw [← demandFrom_ladder]
    rcases clearingTick_covers (ladder demand) supply demand.length with h | ⟨-, h⟩
    · exact h
    · rw [demandFrom_ladder, List.drop_zero] at h
      omega
  · rintro t ⟨ht, hcover⟩
    rw [← demandFrom_ladder] at hcover
    exact Nat.le_findGreatest (by omega) hcover

lemma findClearingTick_ladder (hs : 0 < supply) (hfit : demand.sum < 2 ^ 256) :
    findClearingTick demand supply = .ok r ↔
      (0 < demand.length ∧ demand.length ≤ maxTicks) ∧ r = clearingOf (ladder demand) supply demand.length := by
  by_cases hlen : 0 < demand.length ∧ demand.length ≤ maxTicks
  · have hword : demandFrom (ladder demand) (clearingTick (ladder demand) supply demand.length) < 2 ^ 256 := by
      rw [demandFrom_ladder]
      exact (drop_sum_le demand _).trans_lt hfit
    rw [findClearingTick_eq_ok (ladder_buckets demand) hlen.1 hlen.2 hs]
    exact ⟨fun h => ⟨hlen, h.2⟩, fun h => ⟨hword, h.2⟩⟩
  · refine iff_of_false (fun h => hlen ?_) fun h => hlen h.1
    simp only [findClearingTick, bind_eq_ok, require_eq_ok] at h
    obtain ⟨-, h, -⟩ := h
    exact h

lemma clearingOf_clearsAt (hlen : 0 < demand.length) (hs : 0 < supply) :
    ClearsAt demand supply (clearingOf (ladder demand) supply demand.length) := by
  have htotal : demandFrom (ladder demand) 0 = demand.sum := by rw [demandFrom_ladder, List.drop_zero]
  have htick (hsome : demand.sum ≠ 0) : (clearingOf (ladder demand) supply demand.length).clearingTick =
      clearingTick (ladder demand) supply demand.length := clearingOf_tick (by rwa [htotal])
  refine ⟨fun hfull => ?_, fun hshort => ?_, ?_, ?_⟩
  · rw [htick (by omega)]
    exact clearingTick_isGreatest hlen hfull
  · by_cases hnone : demand.sum = 0
    · rw [clearingOf, if_pos (htotal.trans hnone)]
      rfl
    · rw [htick hnone]
      exact clearingTick_undersubscribed _ _ _ (by rwa [htotal])
  · by_cases hnone : demand.sum = 0
    · rw [clearingOf, if_pos (htotal.trans hnone), hnone, Nat.min_zero]
      rfl
    · rw [clearingOf_sold hs (by rwa [htotal]), sold, htotal]
  · rw [clearingOf_cleared, htotal, Nat.pos_iff_ne_zero]

lemma clearingTick_same_above (hlen : 0 < demand.length) (hs : 0 < supply) (hfull : supply ≤ demand.sum)
    (hlength : demand'.length = demand.length)
    (habove : demand'.drop (clearingTick (ladder demand) supply demand.length) =
      demand.drop (clearingTick (ladder demand) supply demand.length)) :
    clearingTick (ladder demand') supply demand'.length = clearingTick (ladder demand) supply demand.length ∧
      ∀ t, clearingTick (ladder demand) supply demand.length ≤ t →
        demandFrom (ladder demand') t = demandFrom (ladder demand) t := by
  have hfrom (t : Nat) (ht : clearingTick (ladder demand) supply demand.length ≤ t) :
      demandFrom (ladder demand') t = demandFrom (ladder demand) t := by
    have hsplit (l : List Nat) : (l.drop (clearingTick (ladder demand) supply demand.length)).drop
        (t - clearingTick (ladder demand) supply demand.length) = l.drop t := by
      rw [List.drop_drop, Nat.add_sub_cancel' ht]
    rw [demandFrom_ladder, demandFrom_ladder, ← hsplit demand', habove, hsplit]
  refine ⟨?_, hfrom⟩
  obtain ⟨⟨hlt, hcover⟩, -⟩ := clearingTick_isGreatest hlen hfull
  rw [← demandFrom_ladder] at hcover
  have hbelow := demandFrom_above_lt (ladder demand) supply demand.length (ladder_buckets demand).in_range hs
    (Nat.lt_add_one (clearingTick (ladder demand) supply demand.length))
  apply clearingTick_unique (ladder demand') supply demand'.length
  · omega
  · rw [hfrom _ le_rfl]
    exact hcover
  · rw [hfrom _ (Nat.le_add_right _ 1)]
    exact hbelow

lemma clearingOf_same_above (hlen : 0 < demand.length) (hs : 0 < supply) (hfull : supply ≤ demand.sum)
    (hlength : demand'.length = demand.length)
    (habove : demand'.drop (clearingTick (ladder demand) supply demand.length) =
      demand.drop (clearingTick (ladder demand) supply demand.length)) :
    clearingOf (ladder demand') supply demand'.length = clearingOf (ladder demand) supply demand.length := by
  obtain ⟨htick, hfrom⟩ := clearingTick_same_above hlen hs hfull hlength habove
  have hcover := (clearingTick_isGreatest hlen hfull).1.2
  rw [← demandFrom_ladder, ← hfrom _ le_rfl] at hcover
  have hfull' : supply ≤ demandFrom (ladder demand') 0 := hcover.trans (demandFrom_antitone _ (Nat.zero_le _))
  have hat : demandAt (ladder demand') (clearingTick (ladder demand) supply demand.length) =
      demandAt (ladder demand) (clearingTick (ladder demand) supply demand.length) := by
    have hstep := demandFrom_step (ladder demand) (clearingTick (ladder demand) supply demand.length)
    have hstep' := demandFrom_step (ladder demand') (clearingTick (ladder demand) supply demand.length)
    rw [hfrom _ le_rfl, hfrom _ (Nat.le_add_right _ 1)] at hstep'
    omega
  rw [clearingOf_covered hs hfull', clearingOf_covered hs (by rwa [demandFrom_ladder, List.drop_zero]), htick, hat, shared,
    htick, hfrom _ (Nat.le_add_right _ 1), shared]

lemma Raises.drop_sum (h : Raises demand demand') (t : Nat) : (demand.drop t).sum ≤ (demand'.drop t).sum :=
  (List.forall₂_drop t h).sum_le_sum

lemma clearingTick_raises (h : Raises demand demand') :
    clearingTick (ladder demand) supply demand.length ≤ clearingTick (ladder demand') supply demand'.length := by
  have hlength : demand.length = demand'.length := h.length_eq
  unfold clearingTick
  rw [← hlength]
  refine Nat.findGreatest_mono_left (fun t ht => ?_) _
  rw [demandFrom_ladder] at ht ⊢
  exact ht.trans (h.drop_sum t)

lemma clearingOf_raises (h : Raises demand demand') :
    (clearingOf (ladder demand) supply demand.length).clearingTick ≤
      (clearingOf (ladder demand') supply demand'.length).clearingTick := by
  by_cases hnone : demandFrom (ladder demand) 0 = 0
  · rw [clearingOf, if_pos hnone]
    exact Nat.zero_le _
  · have hle := h.drop_sum 0
    rw [← demandFrom_ladder, ← demandFrom_ladder] at hle
    rw [clearingOf_tick hnone, clearingOf_tick (by omega)]
    exact clearingTick_raises h

end Scan

/-- For every array of one to 256 ticks the scan returns the highest tick that the demand from the top covers; demand
below it does not matter once the supply is covered, and more demand never lowers it. -/
theorem clearing_tick_correct (demand : List Nat) (supply : Nat) (hs : 0 < supply) (hfit : demand.sum < 2 ^ 256) :
    ((∃ r, findClearingTick demand supply = .ok r) ↔ 0 < demand.length ∧ demand.length ≤ maxTicks) ∧
      ∀ r, findClearingTick demand supply = .ok r → ClearsAt demand supply r ∧
        (supply ≤ demand.sum → ∀ demand', demand'.length = demand.length →
          demand'.drop r.clearingTick = demand.drop r.clearingTick → findClearingTick demand' supply = .ok r) ∧
        ∀ demand', Raises demand demand' → demand'.sum < 2 ^ 256 →
          ∃ r', findClearingTick demand' supply = .ok r' ∧ r.clearingTick ≤ r'.clearingTick := by
  refine ⟨⟨fun ⟨r, hr⟩ => ((findClearingTick_ladder hs hfit).mp hr).1,
    fun hlen => ⟨_, (findClearingTick_ladder hs hfit).mpr ⟨hlen, rfl⟩⟩⟩, fun r hr => ?_⟩
  obtain ⟨hlen, rfl⟩ := (findClearingTick_ladder hs hfit).mp hr
  refine ⟨clearingOf_clearsAt hlen.1 hs, fun hfull demand' hlength habove => ?_, fun demand' hraises hfit' => ?_⟩
  · have hsome : demandFrom (ladder demand) 0 ≠ 0 := by
      rw [demandFrom_ladder, List.drop_zero]
      omega
    rw [clearingOf_tick hsome] at habove
    obtain ⟨htick, hfrom⟩ := clearingTick_same_above hlen.1 hs hfull hlength habove
    refine (findClearingTick_eq_ok (ladder_buckets demand') (hlength ▸ hlen.1) (hlength ▸ hlen.2) hs).mpr ⟨?_, ?_⟩
    · rw [htick, hfrom _ le_rfl, demandFrom_ladder]
      exact (drop_sum_le demand _).trans_lt hfit
    · exact (clearingOf_same_above hlen.1 hs hfull hlength habove).symm
  · have hlength : demand.length = demand'.length := hraises.length_eq
    rw [hlength] at hlen
    exact ⟨_, (findClearingTick_ladder hs hfit').mpr ⟨hlen, rfl⟩, clearingOf_raises hraises⟩

/-- Three ticks wanting forty, sixty and sixty, and a hundred on offer. -/
theorem clearing_tick_sample :
    (∀ r, findClearingTick [40, 60, 60] 100 = .ok r → ClearsAt [40, 60, 60] 100 r) ∧
      findClearingTick [40, 60, 60] 100 = .ok ⟨true, 1, 100, 60, 40⟩ ∧
      findClearingTick [10000, 60, 60] 100 = .ok ⟨true, 1, 100, 60, 40⟩ := by
  have hfound : findClearingTick [40, 60, 60] 100 = .ok ⟨true, 1, 100, 60, 40⟩ := by decide
  have h := clearing_tick_correct [40, 60, 60] 100 (by decide) (by decide)
  exact ⟨fun r hr => (h.2 r hr).1, hfound, (h.2 _ hfound).2.1 (by decide) [10000, 60, 60] rfl rfl⟩

end Peal.Auction
