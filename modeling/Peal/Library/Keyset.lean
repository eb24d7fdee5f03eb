import Mathlib.Tactic
import Mathlib.Data.List.Sort

namespace Peal.Keyset

/-! # Reading a changing table page by page

Keys are read from the greatest down; a page ends with the key the next one starts below. -/

variable {κ : Type} [LinearOrder κ]

/-- The keys below the bound, the greatest first; without a bound, all of them. -/
def below (keys : List κ) (bound : WithTop κ) : List κ :=
  (keys.filter fun k : κ => decide ((k : WithTop κ) < bound)).insertionSort fun a b => b ≤ a

def page (keys : List κ) (bound : WithTop κ) (limit : Nat) : List κ := (below keys bound).take limit

/-- Where the next page starts, when there is one more key than fits. -/
def next (keys : List κ) (bound : WithTop κ) (limit : Nat) : Option κ :=
  if limit < (below keys bound).length then (page keys bound limit).getLast? else none

/-- What a reader gets who follows the pages, each read from the table as it then is, and whether the last page came. -/
def follow : List (List κ × Nat) → WithTop κ → List κ × Bool
  | [], _ => ([], false)
  | (keys, limit) :: rest, bound =>
    match next keys bound limit with
    | none => (page keys bound limit, true)
    | some k => (page keys bound limit ++ (follow rest k).1, (follow rest k).2)

variable {keys : List κ} {bound : WithTop κ} {limit : Nat} {k : κ}

lemma mem_below : k ∈ below keys bound ↔ k ∈ keys ∧ (k : WithTop κ) < bound := by
  rw [below, List.mem_insertionSort, List.mem_filter, decide_eq_true_eq]

lemma below_sorted (hkeys : keys.Nodup) : (below keys bound).Pairwise fun a b => b < a := by
  have hsorted : (below keys bound).Pairwise fun a b => b ≤ a := List.pairwise_insertionSort _ _
  have hnodup : (below keys bound).Nodup := (List.perm_insertionSort _ _).nodup_iff.mpr (hkeys.filter _)
  exact (hsorted.and hnodup).imp fun h => lt_of_le_of_ne h.1 (Ne.symm h.2)

lemma mem_page (h : k ∈ page keys bound limit) : k ∈ keys ∧ (k : WithTop κ) < bound :=
  mem_below.mp (List.mem_of_mem_take h)

lemma next_mem (h : next keys bound limit = some k) : k ∈ page keys bound limit := by
  unfold next at h
  split_ifs at h
  exact List.mem_of_getLast? h

lemma next_lt (h : next keys bound limit = some k) : (k : WithTop κ) < bound := (mem_page (next_mem h)).2

lemma page_sorted (hkeys : keys.Nodup) : (page keys bound limit).Pairwise fun a b => b < a :=
  (below_sorted hkeys).sublist (List.take_sublist _ _)

lemma next_le (hkeys : keys.Nodup) (h : next keys bound limit = some k) : ∀ a ∈ page keys bound limit, k ≤ a := by
  unfold next at h
  split_ifs at h
  obtain ⟨front, hfront⟩ := List.getLast?_eq_some_iff.mp h
  have hsorted : (page keys bound limit).Pairwise fun a b => b < a := page_sorted hkeys
  rw [hfront] at hsorted ⊢
  intro a ha
  rcases List.mem_append.mp ha with ha | ha
  · exact le_of_lt ((List.pairwise_append.mp hsorted).2.2 a ha k List.mem_cons_self)
  · rw [List.mem_singleton.mp ha]

lemma page_complete (hkeys : keys.Nodup) (hlimit : 0 < limit) (hk : k ∈ keys) (hbound : (k : WithTop κ) < bound) :
    k ∈ page keys bound limit ∨ ∃ c ∈ next keys bound limit, k < c := by
  have hmem : k ∈ below keys bound := mem_below.mpr ⟨hk, hbound⟩
  rw [← List.take_append_drop limit (below keys bound)] at hmem
  rcases List.mem_append.mp hmem with hmem | hmem
  · exact .inl hmem
  · right
    have hmore : limit < (below keys bound).length := by
      by_contra hle
      rw [List.drop_eq_nil_of_le (not_lt.mp hle)] at hmem
      exact List.not_mem_nil hmem
    have hne : page keys bound limit ≠ [] := by
      rw [page, ← List.length_pos_iff, List.length_take]
      omega
    have hlast : (page keys bound limit).getLast hne ∈ page keys bound limit := List.getLast_mem hne
    have hsplit : (below keys bound).Pairwise fun a b => b < a := below_sorted hkeys
    rw [← List.take_append_drop limit (below keys bound)] at hsplit
    refine ⟨(page keys bound limit).getLast hne, ?_, (List.pairwise_append.mp hsplit).2.2 _ hlast k hmem⟩
    rw [next, if_pos hmore, List.getLast?_eq_some_getLast hne]
    rfl

/-! ### The whole walk -/

variable {tables : List (List κ × Nat)}

lemma follow_lt (hk : k ∈ (follow tables bound).1) : (k : WithTop κ) < bound := by
  induction tables generalizing bound with
  | nil => exact absurd hk List.not_mem_nil
  | cons table tables ih =>
    obtain ⟨keys, limit⟩ := table
    unfold follow at hk
    split at hk
    · exact (mem_page hk).2
    · rename_i c hnext
      rcases List.mem_append.mp hk with hk | hk
      · exact (mem_page hk).2
      · exact (ih hk).trans (next_lt hnext)

/-- Keys come in decreasing order, so none twice. -/
theorem follow_sorted (hkeys : ∀ t ∈ tables, t.1.Nodup) : (follow tables bound).1.Pairwise fun a b => b < a := by
  induction tables generalizing bound with
  | nil => exact List.Pairwise.nil
  | cons table tables ih =>
    obtain ⟨keys, limit⟩ := table
    obtain ⟨hfirst, hrest⟩ := List.forall_mem_cons.mp hkeys
    unfold follow
    split
    · exact page_sorted hfirst
    · rename_i c hnext
      refine List.pairwise_append.mpr ⟨page_sorted hfirst, ih hrest, fun a ha b hb => ?_⟩
      exact lt_of_lt_of_le (WithTop.coe_lt_coe.mp (follow_lt hb)) (next_le hfirst hnext a ha)

/-- A key that is there at every page is read. -/
theorem follow_complete (hkeys : ∀ t ∈ tables, t.1.Nodup ∧ 0 < t.2 ∧ k ∈ t.1) (hbound : (k : WithTop κ) < bound)
    (hdone : (follow tables bound).2 = true) : k ∈ (follow tables bound).1 := by
  induction tables generalizing bound with
  | nil => cases hdone
  | cons table tables ih =>
    obtain ⟨keys, limit⟩ := table
    obtain ⟨⟨hnodup, hlimit, hmem⟩, hrest⟩ := List.forall_mem_cons.mp hkeys
    have hpage := page_complete hnodup hlimit hmem hbound
    unfold follow at hdone ⊢
    split at hdone
    · rename_i hnext
      rw [hnext] at hpage
      exact hpage.resolve_right fun ⟨c, hc, _⟩ => by cases hc
    · rename_i c hnext
      rw [hnext] at hpage
      rcases hpage with hpage | ⟨c', hc', hlt⟩
      · exact List.mem_append_left _ hpage
      · obtain rfl := Option.some.inj hc'
        exact List.mem_append_right _ (ih hrest (WithTop.coe_lt_coe.mpr hlt) hdone)

lemma follow_length (hdone : (follow tables bound).2 = false) : tables.length ≤ (follow tables bound).1.length := by
  induction tables generalizing bound with
  | nil => exact Nat.zero_le _
  | cons table tables ih =>
    obtain ⟨keys, limit⟩ := table
    unfold follow at hdone ⊢
    split at hdone
    · cases hdone
    · rename_i c hnext
      have hpos : 0 < (page keys bound limit).length := List.length_pos_of_mem (next_mem hnext)
      have hrest := ih hdone
      dsimp only
      rw [List.length_append, List.length_cons]
      omega

lemma follow_mem (hk : k ∈ (follow tables bound).1) : ∃ t ∈ tables, k ∈ t.1 := by
  induction tables generalizing bound with
  | nil => exact absurd hk List.not_mem_nil
  | cons table tables ih =>
    obtain ⟨keys, limit⟩ := table
    unfold follow at hk
    split at hk
    · exact ⟨_, List.mem_cons_self, (mem_page hk).1⟩
    · rcases List.mem_append.mp hk with hk | hk
      · exact ⟨_, List.mem_cons_self, (mem_page hk).1⟩
      · obtain ⟨t, ht, hmem⟩ := ih hk
        exact ⟨t, List.mem_cons_of_mem _ ht, hmem⟩

/-- When the keys that ever come below the bound are finitely many, the last page comes. -/
theorem follow_finite (all : Finset κ) (hkeys : ∀ t ∈ tables, t.1.Nodup)
    (hall : ∀ t ∈ tables, ∀ k ∈ t.1, (k : WithTop κ) < bound → k ∈ all) (hmany : all.card < tables.length) :
    (follow tables bound).2 = true := by
  by_contra hdone
  have hlength := follow_length (Bool.eq_false_iff.mpr hdone)
  have hnodup : (follow tables bound).1.Nodup := (follow_sorted hkeys).imp fun h => ne_of_gt h
  have hsub : (follow tables bound).1.toFinset ⊆ all := by
    intro k hk
    obtain ⟨t, ht, hmem⟩ := follow_mem (List.mem_toFinset.mp hk)
    exact hall t ht k hmem (follow_lt (List.mem_toFinset.mp hk))
  have hcard := Finset.card_le_card hsub
  rw [List.toFinset_card_of_nodup hnodup] at hcard
  omega

end Peal.Keyset
