import Mathlib.Tactic

namespace Peal.SortedPairTree

/-! # Hash trees whose nodes hash the sorted pair of their children

A proof is the list of siblings from the leaf to the root; sorting each pair makes the position of a
leaf irrelevant to the proof. -/

inductive HashTree where
  | leaf (value : Nat)
  | node (left right : HashTree)
  deriving DecidableEq, Repr

variable (hash : List Nat → Nat)

def pairHash (a b : Nat) : Nat := if a < b then hash [a, b] else hash [b, a]

/-- The root that a leaf and the siblings on its way up produce. -/
def climb (leaf : Nat) (proof : List Nat) : Nat := proof.foldl (pairHash hash) leaf

namespace HashTree

def root : HashTree → Nat
  | .leaf value => value
  | .node left right => pairHash hash left.root right.root

def leaves : HashTree → List Nat
  | .leaf value => [value]
  | .node left right => left.leaves ++ right.leaves

end HashTree

lemma climb_concat (leaf : Nat) (proof : List Nat) (sibling : Nat) :
    climb hash leaf (proof ++ [sibling]) = pairHash hash (climb hash leaf proof) sibling := by
  simp [climb]

lemma pairHash_eq (a b : Nat) : ∃ c d, pairHash hash a b = hash [c, d] := by
  unfold pairHash
  split_ifs with h
  · exact ⟨a, b, rfl⟩
  · exact ⟨b, a, rfl⟩

lemma pairHash_comm (a b : Nat) : pairHash hash a b = pairHash hash b a := by
  unfold pairHash
  rcases Nat.lt_trichotomy a b with h | h | h
  · rw [if_pos h, if_neg (by omega)]
  · rw [h]
  · rw [if_neg (by omega), if_pos h]

variable {hash}

lemma pairHash_inj (hinj : Function.Injective hash) {a b c d : Nat}
    (h : pairHash hash a b = pairHash hash c d) : (a = c ∧ b = d) ∨ (a = d ∧ b = c) := by
  unfold pairHash at h
  split_ifs at h with hab hcd hcd
  · have heq := hinj h
    simp only [List.cons.injEq, and_true] at heq
    exact Or.inl heq
  · have heq := hinj h
    simp only [List.cons.injEq, and_true] at heq
    exact Or.inr heq
  · have heq := hinj h
    simp only [List.cons.injEq, and_true] at heq
    exact Or.inr ⟨heq.2, heq.1⟩
  · have heq := hinj h
    simp only [List.cons.injEq, and_true] at heq
    exact Or.inl ⟨heq.2, heq.1⟩

lemma pairHash_ne_single (hinj : Function.Injective hash) (a b w : Nat) :
    pairHash hash a b ≠ hash [w] := by
  obtain ⟨c, d, h⟩ := pairHash_eq hash a b
  rw [h]
  intro heq
  have := hinj heq
  simp at this

/-- Only leaves of the tree climb to its root, whatever siblings are supplied. -/
theorem climb_sound (hinj : Function.Injective hash) {t : HashTree} {w : Nat}
    (hleaves : ∀ v ∈ t.leaves, ∃ u, v = hash [u]) {proof : List Nat}
    (h : climb hash (hash [w]) proof = t.root hash) : hash [w] ∈ t.leaves := by
  induction t generalizing proof with
  | leaf value =>
    obtain ⟨u, hu⟩ := hleaves value (by simp [HashTree.leaves])
    rcases List.eq_nil_or_concat proof with hp | ⟨init, sibling, hp⟩
    · rw [hp] at h
      simpa [climb, HashTree.root, HashTree.leaves] using h
    · rw [hp, List.concat_eq_append, climb_concat] at h
      rw [HashTree.root, hu] at h
      exact absurd h (pairHash_ne_single hinj _ _ u)
  | node left right ihl ihr =>
    rcases List.eq_nil_or_concat proof with hp | ⟨init, sibling, hp⟩
    · rw [hp] at h
      exact absurd h.symm (pairHash_ne_single hinj _ _ w)
    · rw [hp, List.concat_eq_append, climb_concat] at h
      have hl : ∀ v ∈ left.leaves, ∃ u, v = hash [u] := fun v hv =>
        hleaves v (List.mem_append_left _ hv)
      have hr : ∀ v ∈ right.leaves, ∃ u, v = hash [u] := fun v hv =>
        hleaves v (List.mem_append_right _ hv)
      rcases pairHash_inj hinj h with ⟨hleft, -⟩ | ⟨hright, -⟩
      · exact List.mem_append_left _ (ihl hl hleft)
      · exact List.mem_append_right _ (ihr hr hright)

/-- Every leaf has a proof. -/
theorem climb_complete (hash : List Nat → Nat) {t : HashTree} {v : Nat} (hv : v ∈ t.leaves) :
    ∃ proof, climb hash v proof = t.root hash := by
  induction t with
  | leaf value =>
    have heq : v = value := by simpa [HashTree.leaves] using hv
    exact ⟨[], by rw [heq]; rfl⟩
  | node left right ihl ihr =>
    rcases List.mem_append.mp hv with h | h
    · obtain ⟨proof, hp⟩ := ihl h
      refine ⟨proof ++ [right.root hash], ?_⟩
      rw [climb_concat, hp]
      rfl
    · obtain ⟨proof, hp⟩ := ihr h
      refine ⟨proof ++ [left.root hash], ?_⟩
      rw [climb_concat, hp, pairHash_comm]
      rfl

/-- A hash on word lists without collisions: the iterated pairing function. -/
def pairingHash (words : List Nat) : Nat := words.foldr (fun word rest => Nat.pair word rest + 1) 0

lemma pairingHash_injective : Function.Injective pairingHash := by
  intro xs
  induction xs with
  | nil =>
    intro ys h
    cases ys with
    | nil => rfl
    | cons y ys => exact absurd h (Nat.succ_ne_zero _).symm
  | cons x xs ih =>
    intro ys h
    cases ys with
    | nil => exact absurd h (Nat.succ_ne_zero _)
    | cons y ys =>
      have hpair : Nat.pair x (pairingHash xs) = Nat.pair y (pairingHash ys) := Nat.succ.inj h
      obtain ⟨hx, hxs⟩ := Nat.pair_eq_pair.mp hpair
      rw [hx, ih hxs]

end Peal.SortedPairTree
