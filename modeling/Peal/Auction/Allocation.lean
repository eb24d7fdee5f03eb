import Peal.Auction.ClearingPrice

namespace Peal.Auction
open Peal.Fallible Peal.UniformPrice

/-! # What the bids of a book are allocated -/

/-- `allocationFor` once for every bid. -/
def allocations (result : Result) (book : List Order) : Except Revert (List Nat) :=
  book.mapM fun o => allocationFor result o.quantity o.tick

/-- What the bids of the book are allocated when `share` says it for each of them. -/
structure Allocated (result : Result) (book : List Order) (share : Order → Nat) : Prop where
  amounts : allocations result book = .ok (book.map share)
  total : (book.map share).sum ≤ result.supplySold
  capped : ∀ o ∈ book, share o ≤ o.quantity
  below : ∀ o ∈ book, o.tick < result.clearingTick → share o = 0
  above : ∀ o ∈ book, result.clearingTick < o.tick → share o = o.quantity
  dust : (book.map share).sum = result.supplySold ∨
    result.supplySold < (book.map share).sum +
      (book.filter fun o => o.tick == result.clearingTick).length

section Book

variable {demand : List Nat} {book book' : List Order} {supply numTicks : Nat}

lemma Buckets.perm (hb : Buckets demand book) (hperm : book.Perm book') : Buckets demand book' := by
  constructor
  · intro o ho
    exact hb.in_range o (hperm.mem_iff.mpr ho)
  · intro t ht
    rw [hb.bucket t ht]
    exact quantityWhere_perm _ hperm

lemma quantity_eq_zero (hnone : demandFrom book 0 = 0) {o : Order} (ho : o ∈ book) : o.quantity = 0 := by
  have hq := quantity_le_demandAt ho
  have hstep := demandFrom_step book o.tick
  have hanti := demandFrom_antitone book (Nat.zero_le o.tick)
  omega

lemma fill_eq_zero (hnone : demandFrom book 0 = 0) {o : Order} (ho : o ∈ book) :
    fill book supply numTicks o = 0 := by
  have hle := fill_le_quantity book supply numTicks o
  have hq := quantity_eq_zero hnone ho
  omega

lemma allocationFor_clearingOf (hs : 0 < supply)
    (hfit : demandFrom book (clearingTick book supply numTicks) < 2 ^ 256) {o : Order}
    (ho : o ∈ book) : allocationFor (clearingOf book supply numTicks) o.quantity o.tick =
      .ok (fill book supply numTicks o) := by
  by_cases hnone : demandFrom book 0 = 0
  · have hdefault : clearingOf book supply numTicks = default := by
      unfold clearingOf
      rw [if_pos hnone]
    rw [hdefault, fill_eq_zero hnone ho]
    rfl
  · exact allocationFor_eq_fill hs hnone hfit ho

lemma allocations_clearingOf (hs : 0 < supply)
    (hfit : demandFrom book (clearingTick book supply numTicks) < 2 ^ 256) :
    allocations (clearingOf book supply numTicks) book = .ok (book.map (fill book supply numTicks)) := by
  have hpart : ∀ part : List Order, (∀ o ∈ part, o ∈ book) →
      part.mapM (fun o => allocationFor (clearingOf book supply numTicks) o.quantity o.tick) =
        .ok (part.map (fill book supply numTicks)) := by
    intro part
    induction part with
    | nil => intro _; rfl
    | cons o part ih =>
      intro hmem
      rw [List.mapM_cons, allocationFor_clearingOf hs hfit (hmem o List.mem_cons_self),
        ih fun o' ho' => hmem o' (List.mem_cons_of_mem o ho')]
      rfl
  exact hpart book fun o ho => ho

lemma clearingOf_allocated (hbook : ∀ o ∈ book, o.tick < numTicks) (hs : 0 < supply)
    (hfit : demandFrom book (clearingTick book supply numTicks) < 2 ^ 256) :
    Allocated (clearingOf book supply numTicks) book (fill book supply numTicks) := by
  have hamounts := allocations_clearingOf hs hfit
  have hcapped : ∀ o ∈ book, fill book supply numTicks o ≤ o.quantity :=
    fun o _ => fill_le_quantity book supply numTicks o
  by_cases hnone : demandFrom book 0 = 0
  · -- the sale failed, and every bid was for nothing
    have hdefault : clearingOf book supply numTicks = default := by
      unfold clearingOf
      rw [if_pos hnone]
    have hsum : (book.map (fill book supply numTicks)).sum = 0 := by
      rw [List.sum_eq_zero_iff]
      intro n hn
      obtain ⟨o, ho, rfl⟩ := List.mem_map.mp hn
      exact fill_eq_zero hnone ho
    rw [hdefault] at hamounts ⊢
    refine ⟨hamounts, by omega, hcapped, ?_, ?_, Or.inl hsum⟩
    · intro o ho _
      exact fill_eq_zero hnone ho
    · intro o ho _
      exact (fill_eq_zero hnone ho).trans (quantity_eq_zero hnone ho).symm
  · have htick := @clearingOf_tick book supply numTicks hnone
    have hsold := @clearingOf_sold book supply numTicks hs hnone
    refine ⟨hamounts, ?_, hcapped, ?_, ?_, ?_⟩
    · rw [hsold]
      exact sum_fill_le_sold book supply numTicks hbook hs
    · intro o _ hbelow
      rw [htick] at hbelow
      exact fill_below book supply numTicks hbelow
    · intro o _ habove
      rw [htick] at habove
      exact fill_above book supply numTicks habove
    · have hdust := sold_lt_sum_fill_add book supply numTicks hbook hs
      unfold onTick at hdust
      rw [List.length_map] at hdust
      rw [hsold, htick]
      exact hdust

/-- The allocations of any book with these buckets, in whatever order its bids stand. -/
theorem allocations_sound (hb : Buckets demand book) (hlen : 0 < demand.length)
    (hmax : demand.length ≤ maxTicks) (hs : 0 < supply) :
    (demandFrom book 0 < 2 ^ 256 → ∃ result, findClearingTick demand supply = .ok result) ∧
      ∀ result, findClearingTick demand supply = .ok result →
        ∃ share, ∀ book', book.Perm book' → Allocated result book' share := by
  have hspec := fun result => @findClearingTick_eq_ok demand book supply hb hlen hmax hs result
  constructor
  · intro hfit
    have hanti := demandFrom_antitone book (Nat.zero_le (clearingTick book supply demand.length))
    exact ⟨_, (hspec _).mpr ⟨by omega, rfl⟩⟩
  · intro result hrun
    refine ⟨fill book supply demand.length, fun book' hperm => ?_⟩
    have hat (t : Nat) : demandAt book t = demandAt book' t := quantityWhere_perm _ hperm
    have hfrom := demandFrom_congr hat
    have htick := clearingTick_congr book supply demand.length hat
    obtain ⟨hfit, rfl⟩ := (hspec result).mp hrun
    have hshared : shared book supply demand.length = shared book' supply demand.length := by
      unfold shared
      rw [hfrom, htick]
    have hfill : fill book supply demand.length = fill book' supply demand.length := by
      funext o
      unfold fill ration
      rw [htick, hshared, hat]
    have hclearing : clearingOf book supply demand.length = clearingOf book' supply demand.length := by
      unfold clearingOf
      rw [hfrom, htick, hshared, hat, hat]
    rw [hfrom, htick] at hfit
    rw [hfill, hclearing]
    exact clearingOf_allocated (hb.perm hperm).in_range hs hfit

end Book

section Reserve

/-- Two ticks, and one bid for 10 above the reserve. -/
def aboveReserve : List Order := [⟨10, 1⟩]

lemma aboveReserve_buckets : Buckets [0, 10] aboveReserve := by
  constructor
  · decide
  · decide

theorem allocations_sound_aboveReserve :
    (demandFrom aboveReserve 0 < 2 ^ 256 → ∃ result, findClearingTick [0, 10] 100 = .ok result) ∧
      ∀ result, findClearingTick [0, 10] 100 = .ok result →
        ∃ share, ∀ book', aboveReserve.Perm book' → Allocated result book' share :=
  allocations_sound aboveReserve_buckets (by decide) (by decide) (by decide)

/-- A sale that is not fully subscribed clears at the reserve, where there need be no bid at all. -/
theorem dust_not_lt : ¬∀ (demand : List Nat) (book : List Order) (supply : Nat) (result : Result)
    (amounts : List Nat), Buckets demand book → 0 < supply →
      findClearingTick demand supply = .ok result → allocations result book = .ok amounts →
        result.supplySold - amounts.sum <
          (book.filter fun o => o.tick == result.clearingTick).length := by
  intro h
  exact absurd (h [0, 10] aboveReserve 100 ⟨true, 0, 10, 0, 0⟩ [10] aboveReserve_buckets
    (by decide) rfl rfl) (by decide)

end Reserve

end Peal.Auction
