import Peal.Library.AppendTree

namespace Peal.AppendTree

/-! # The levels of an append-only tree, kept up to date leaf by leaf -/

variable {α : Type} (node : α → α → α) (zero : α)

/-- How many nodes of a level stand over some of the first `size` leaves. -/
def cover (size level : Nat) : Nat := (size + (2 ^ level - 1)) / 2 ^ level

/-- Recompute the node over position `index` of the level `below`, and so on up. `z` is the digest of an
all-zero subtree of that level. -/
def raise : α → Nat → List α → List (List α) → List (List α)
  | _, _, below, [] => [below]
  | z, index, below, up :: rest =>
    let pair := index / 2 * 2
    let parent := node (below.getD pair z) (below.getD (pair + 1) z)
    let up := if pair / 2 < up.length then up.set (pair / 2) parent else up ++ [parent]
    below :: raise (node z z) (index / 2) up rest

/-- Append a leaf; only the nodes on its path change. -/
def appendLevels (leaf : α) : List (List α) → List (List α)
  | [] => []
  | leaves :: rest => raise node zero leaves.length (leaves ++ [leaf]) rest

/-- The node at a level and index of the tree of the first `size` leaves: a stored one where its subtree is
full, recomputed from the level below where it is not. -/
def storedNode (levels : List (List α)) (size : Nat) : Nat → Nat → α
  | 0, index => if size ≤ index then zero else (levels.getD 0 []).getD index zero
  | level + 1, index =>
    if size ≤ index * 2 ^ (level + 1) then zeroDigest node zero (level + 1)
    else if index * 2 ^ (level + 1) + 2 ^ (level + 1) ≤ size then
      (levels.getD (level + 1) []).getD index (zeroDigest node zero (level + 1))
    else node (storedNode levels size level (2 * index)) (storedNode levels size level (2 * index + 1))

/-- `nodes` is what the tree over `leaves` has at a level. -/
structure LevelOf (leaves : List α) (level : Nat) (nodes : List α) : Prop where
  length : nodes.length = cover leaves.length level
  node : ∀ i, nodes.getD i (zeroDigest node zero level) = nodeAt node zero leaves leaves.length level i

/-- `levels` are the levels of the tree over `leaves`, from the leaves up to `depth`. -/
structure LevelsOf (leaves : List α) (depth : Nat) (levels : List (List α)) : Prop where
  length : levels.length = depth + 1
  bottom : levels.getD 0 [] = leaves
  level : ∀ j, j ≤ depth → LevelOf node zero leaves j (levels.getD j [])

variable {node zero}

lemma nodeAt_beyond {leaves : List α} {size level index : Nat} (h : size ≤ index * 2 ^ level) :
    nodeAt node zero leaves size level index = zeroDigest node zero level := by
  cases level with
  | zero => rw [nodeAt, if_pos (by simpa using h), zeroDigest]
  | succ level => rw [nodeAt, if_pos h]

lemma nodeAt_full {leaves leaves' : List α} {size size' level index : Nat}
    (hfull : (index + 1) * 2 ^ level ≤ size) (hsize : size ≤ size')
    (h : ∀ i, i < size → leaves'.getD i zero = leaves.getD i zero) :
    nodeAt node zero leaves' size' level index = nodeAt node zero leaves size level index := by
  induction level generalizing index with
  | zero =>
    rw [Nat.pow_zero, Nat.mul_one] at hfull
    rw [nodeAt, nodeAt, if_neg (by omega), if_neg (by omega), h index (by omega)]
  | succ level ih =>
    have hpow : 2 ^ (level + 1) = 2 * 2 ^ level := Nat.pow_succ'
    have hpos : 0 < 2 ^ level := Nat.two_pow_pos level
    have hright : (2 * index + 1 + 1) * 2 ^ level ≤ size := by
      calc (2 * index + 1 + 1) * 2 ^ level = (index + 1) * 2 ^ (level + 1) := by rw [hpow]; ring
        _ ≤ size := hfull
    have hleft : (2 * index + 1) * 2 ^ level ≤ size :=
      le_trans (Nat.mul_le_mul_right _ (by omega)) hright
    have hstart : index * 2 ^ (level + 1) < size := by
      rw [Nat.add_mul, Nat.one_mul] at hfull
      omega
    rw [nodeAt, nodeAt, if_neg (by omega), if_neg (by omega), ih hleft, ih hright]

lemma cover_le_iff (size level index : Nat) : cover size level ≤ index ↔ size ≤ index * 2 ^ level := by
  have hpos : 0 < 2 ^ level := Nat.two_pow_pos level
  unfold cover
  rw [Nat.div_le_iff_le_mul_add_pred hpos, Nat.mul_comm]
  omega

lemma cover_zero (size : Nat) : cover size 0 = size := by simp [cover]

lemma lt_cover_iff {size level index : Nat} : index < cover size level ↔ index * 2 ^ level < size := by
  have := cover_le_iff size level index
  omega

lemma cover_succ (size level : Nat) : cover (size + 1) level = size / 2 ^ level + 1 := by
  have hpos : 0 < 2 ^ level := Nat.two_pow_pos level
  unfold cover
  rw [show size + 1 + (2 ^ level - 1) = size + 2 ^ level by omega, Nat.add_div_right _ hpos]

lemma le_cover (size level : Nat) : size / 2 ^ level ≤ cover size level := by
  unfold cover
  exact Nat.div_le_div_right (Nat.le_add_right _ _)

lemma levelOf_leaves (leaves : List α) : LevelOf node zero leaves 0 leaves := by
  refine ⟨(cover_zero _).symm, ?_⟩
  intro i
  rw [nodeAt, zeroDigest]
  by_cases hi : leaves.length ≤ i
  · rw [if_pos hi, List.getD_eq_default _ _ hi]
  · rw [if_neg hi]

lemma levelOf_up {leaves below up : List α} {leaf : α} {level : Nat}
    (hbelow : LevelOf node zero (leaves ++ [leaf]) level below)
    (hup : LevelOf node zero leaves (level + 1) up) :
    let index := leaves.length / 2 ^ level
    let parent := node (below.getD (index / 2 * 2) (zeroDigest node zero level))
      (below.getD (index / 2 * 2 + 1) (zeroDigest node zero level))
    LevelOf node zero (leaves ++ [leaf]) (level + 1)
      (if index / 2 * 2 / 2 < up.length then up.set (index / 2 * 2 / 2) parent else up ++ [parent]) := by
  intro index parent
  have hlen : (leaves ++ [leaf]).length = leaves.length + 1 := by simp
  have hhalf : index / 2 * 2 / 2 = index / 2 := by omega
  have habove : index / 2 = leaves.length / 2 ^ (level + 1) := by
    rw [Nat.pow_succ, ← Nat.div_div_eq_div_mul]
  have hcover := cover_succ leaves.length (level + 1)
  have hle := le_cover leaves.length (level + 1)
  have hlast : cover leaves.length (level + 1) ≤ index / 2 + 1 := by
    rw [cover_le_iff, habove]
    have hpos : 0 < 2 ^ (level + 1) := Nat.two_pow_pos _
    have := Nat.lt_div_mul_add hpos (a := leaves.length)
    rw [Nat.add_mul, Nat.one_mul]
    omega
  have hparent : parent = nodeAt node zero (leaves ++ [leaf]) (leaves.length + 1) (level + 1) (index / 2) := by
    have hstart : ¬leaves.length + 1 ≤ index / 2 * 2 ^ (level + 1) := by
      have := Nat.div_mul_le_self leaves.length (2 ^ (level + 1))
      rw [habove]
      omega
    rw [nodeAt, if_neg hstart, ← hlen, ← hbelow.node, ← hbelow.node, Nat.mul_comm 2 (index / 2)]
  -- the nodes before the new leaf's path are over full subtrees
  have hold : ∀ i, i < index / 2 → nodeAt node zero (leaves ++ [leaf]) (leaves.length + 1) (level + 1) i =
      nodeAt node zero leaves leaves.length (level + 1) i := by
    intro i hi
    apply nodeAt_full _ (Nat.le_succ _)
    · intro k hk
      rw [List.getD_append _ _ _ _ hk]
    · calc (i + 1) * 2 ^ (level + 1) ≤ index / 2 * 2 ^ (level + 1) := Nat.mul_le_mul_right _ hi
        _ ≤ leaves.length := by rw [habove]; exact Nat.div_mul_le_self _ _
  have hbeyond : ∀ i, index / 2 < i → nodeAt node zero (leaves ++ [leaf]) (leaves.length + 1) (level + 1) i =
      zeroDigest node zero (level + 1) := by
    intro i hi
    apply nodeAt_beyond
    rw [← cover_le_iff, hcover, ← habove]
    exact hi
  rw [hhalf]
  have huplen := hup.length
  constructor
  · rw [hlen, hcover, ← habove]
    split
    · rw [List.length_set, huplen]
      omega
    · rw [List.length_append, List.length_singleton, huplen]
      omega
  · intro i
    rw [hlen]
    rcases Nat.lt_trichotomy i (index / 2) with hi | rfl | hi
    · rw [hold i hi, ← hup.node i]
      split
      · rw [List.getD_eq_getElem?_getD, List.getElem?_set_ne (by omega), List.getD_eq_getElem?_getD]
      · rw [List.getD_append _ _ _ _ (by omega)]
    · rw [← hparent]
      split
      · next hset => rw [List.getD_eq_getElem?_getD, List.getElem?_set_self hset, Option.getD_some]
      · next hset =>
        rw [show index / 2 = up.length by omega, List.getD_append_right _ _ _ _ (le_refl _)]
        simp
    · rw [hbeyond i hi]
      apply List.getD_eq_default
      split
      · rw [List.length_set]
        omega
      · rw [List.length_append, List.length_singleton]
        omega

lemma levelsOf_raise {leaves below : List α} {leaf : α} {rest : List (List α)} {level : Nat}
    (hbelow : LevelOf node zero (leaves ++ [leaf]) level below)
    (hrest : ∀ j, j < rest.length → LevelOf node zero leaves (level + 1 + j) (rest.getD j [])) :
    (raise node (zeroDigest node zero level) (leaves.length / 2 ^ level) below rest).length = rest.length + 1 ∧
      (raise node (zeroDigest node zero level) (leaves.length / 2 ^ level) below rest).getD 0 [] = below ∧
      ∀ j, j ≤ rest.length → LevelOf node zero (leaves ++ [leaf]) (level + j)
        ((raise node (zeroDigest node zero level) (leaves.length / 2 ^ level) below rest).getD j []) := by
  induction rest generalizing below level with
  | nil =>
    refine ⟨rfl, rfl, ?_⟩
    intro j hj
    obtain rfl : j = 0 := by simpa using hj
    exact hbelow
  | cons up rest ih =>
    have hup := levelOf_up hbelow (by simpa using hrest 0 (Nat.zero_lt_succ _))
    have hindex : leaves.length / 2 ^ level / 2 = leaves.length / 2 ^ (level + 1) := by
      rw [Nat.pow_succ, ← Nat.div_div_eq_div_mul]
    obtain ⟨hlength, -, hlevels⟩ := ih hup fun j hj => by
      have := hrest (j + 1) (Nat.succ_lt_succ hj)
      rwa [show level + 1 + (j + 1) = level + 1 + 1 + j by omega, List.getD_cons_succ] at this
    rw [← hindex] at hlength hlevels
    refine ⟨congrArg (· + 1) hlength, rfl, ?_⟩
    intro j hj
    cases j with
    | zero => exact hbelow
    | succ j =>
      rw [raise, List.getD_cons_succ, show level + (j + 1) = level + 1 + j by omega]
      exact hlevels j (Nat.le_of_succ_le_succ hj)

/-- Appending keeps the levels those of the longer log. -/
theorem levelsOf_append {leaves : List α} {depth : Nat} {levels : List (List α)} (leaf : α)
    (h : LevelsOf node zero leaves depth levels) :
    LevelsOf node zero (leaves ++ [leaf]) depth (appendLevels node zero leaf levels) := by
  obtain ⟨hlength, hleaves, hlevel⟩ := h
  cases levels with
  | nil => cases hlength
  | cons below rest =>
    obtain rfl : below = leaves := hleaves
    have hrest : rest.length = depth := by simpa using hlength
    have hbelow : LevelOf node zero (below ++ [leaf]) 0 (below ++ [leaf]) := levelOf_leaves _
    have habove : ∀ j, j < rest.length → LevelOf node zero below (0 + 1 + j) (rest.getD j []) := by
      intro j hj
      have hnext := hlevel (j + 1) (by omega)
      rwa [List.getD_cons_succ, Nat.add_comm j 1] at hnext
    obtain ⟨hlen, hfirst, hall⟩ := levelsOf_raise hbelow habove
    rw [Nat.pow_zero, Nat.div_one] at hlen hfirst hall
    refine ⟨hlen.trans (by omega), hfirst, ?_⟩
    intro j hj
    have := hall j (by omega)
    rwa [Nat.zero_add] at this

variable (node zero) in
lemma levelsOf_empty (depth : Nat) : LevelsOf node zero [] depth (List.replicate (depth + 1) []) := by
  have hlevel : ∀ j, (List.replicate (depth + 1) ([] : List α)).getD j [] = [] := by
    intro j
    by_cases hj : j < depth + 1
    · simp [hj]
    · simp [hj]
  refine ⟨List.length_replicate, hlevel 0, ?_⟩
  intro j _
  rw [hlevel j]
  constructor
  · exact (Nat.le_zero.mp ((cover_le_iff _ _ _).mpr (by simp))).symm
  · intro i
    rw [nodeAt_beyond (by simp), List.getD_nil]

/-- The stored nodes give every tree of the log's past. -/
theorem storedNode_eq {leaves : List α} {depth size : Nat} {levels : List (List α)}
    (h : LevelsOf node zero leaves depth levels) (hsize : size ≤ leaves.length) {level : Nat}
    (hlevel : level ≤ depth) (index : Nat) :
    storedNode node zero levels size level index = nodeAt node zero leaves size level index := by
  induction level generalizing index with
  | zero => rw [storedNode, nodeAt, h.bottom]
  | succ level ih =>
    rw [storedNode, nodeAt]
    by_cases hbeyond : size ≤ index * 2 ^ (level + 1)
    · rw [if_pos hbeyond, if_pos hbeyond]
    · rw [if_neg hbeyond, if_neg hbeyond]
      by_cases hfull : index * 2 ^ (level + 1) + 2 ^ (level + 1) ≤ size
      · rw [if_pos hfull, (h.level _ hlevel).node,
          nodeAt_full (by rwa [Nat.add_mul, Nat.one_mul]) hsize fun _ _ => rfl, nodeAt, if_neg hbeyond]
      · rw [if_neg hfull, ih (by omega), ih (by omega)]

end Peal.AppendTree
