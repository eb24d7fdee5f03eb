import Mathlib.Data.Nat.Bitwise
import Mathlib.Tactic

namespace Peal.AppendTree

/-! # Append-only trees of a fixed depth

Empty positions hold `zero`, and a subtree beyond the last leaf has the digest of an all-zero one. -/

variable {α : Type} (node : α → α → α) (zero : α)

/-- The root of the all-zero subtree of a given height. -/
def zeroDigest : Nat → α
  | 0 => zero
  | height + 1 =>
    let z := zeroDigest height
    node z z

/-- The node at a level and index of the tree that holds the first `size` leaves. -/
def nodeAt (leaves : List α) (size : Nat) : Nat → Nat → α
  | 0, index => if size ≤ index then zero else leaves.getD index zero
  | level + 1, index =>
    if size ≤ index * 2 ^ (level + 1) then zeroDigest node zero (level + 1)
    else node (nodeAt leaves size level (2 * index)) (nodeAt leaves size level (2 * index + 1))

/-- The siblings on the way up from a position, each with whether it stands on the left. -/
def pathAt (leaves : List α) (size depth pos : Nat) : List (α × Bool) :=
  (List.range depth).map fun level =>
    (nodeAt node zero leaves size level ((pos / 2 ^ level) ^^^ 1), decide (pos / 2 ^ level % 2 = 1))

def climb (leaf : α) (path : List (α × Bool)) : α :=
  path.foldl (fun n step => if step.2 then node step.1 n else node n step.1) leaf

/-- The last `window` roots of the log, the current one last. -/
def recentRoots (rootAt : Nat → α) (window size : Nat) : List α :=
  (List.range' (size - (max window 1 - 1)) (size + 1 - (size - (max window 1 - 1)))).map rootAt

/-- Record a root as the newest, and drop the oldest beyond the window. -/
def pushRecent (window : Nat) (recent : List α) (root : α) : List α :=
  (recent ++ [root]).drop (recent.length + 1 - max window 1)

variable {node zero}

lemma nodeAt_congr {leaves leaves' : List α} {size : Nat}
    (h : ∀ i, i < size → leaves.getD i zero = leaves'.getD i zero) (level index : Nat) :
    nodeAt node zero leaves size level index = nodeAt node zero leaves' size level index := by
  induction level generalizing index with
  | zero =>
    unfold nodeAt
    by_cases hi : size ≤ index
    · rw [if_pos hi, if_pos hi]
    · rw [if_neg hi, if_neg hi, h index (by omega)]
  | succ level ih =>
    unfold nodeAt
    rw [ih (2 * index), ih (2 * index + 1)]

lemma nodeAt_append {leaves : List α} {size : Nat} (h : size ≤ leaves.length) (leaf : α)
    (level index : Nat) :
    nodeAt node zero (leaves ++ [leaf]) size level index = nodeAt node zero leaves size level index := by
  apply nodeAt_congr
  intro i hi
  rw [List.getD_eq_getElem?_getD, List.getD_eq_getElem?_getD, List.getElem?_append_left (by omega)]

lemma nodeAt_parent {leaves : List α} {size level index : Nat} (h : index / 2 * 2 ^ (level + 1) < size) :
    nodeAt node zero leaves size (level + 1) (index / 2) =
      if index % 2 = 1 then
        node (nodeAt node zero leaves size level (index ^^^ 1)) (nodeAt node zero leaves size level index)
      else
        node (nodeAt node zero leaves size level index) (nodeAt node zero leaves size level (index ^^^ 1)) := by
  rw [nodeAt, if_neg (by omega)]
  rcases Nat.mod_two_eq_zero_or_one index with heven | hodd
  · rw [if_neg (by omega), Nat.xor_one_of_even (Nat.even_iff.mpr heven),
      show 2 * (index / 2) = index by omega]
  · rw [if_pos hodd, Nat.xor_one_of_odd (Nat.odd_iff.mpr hodd), show 2 * (index / 2) = index - 1 by omega,
      show index - 1 + 1 = index by omega]

/-- The path of a position within the log climbs from its leaf to the node above it. -/
theorem climb_pathAt {leaves : List α} {size pos : Nat} (h : pos < size) (depth : Nat) :
    climb node (leaves.getD pos zero) (pathAt node zero leaves size depth pos) =
      nodeAt node zero leaves size depth (pos / 2 ^ depth) := by
  induction depth with
  | zero =>
    rw [Nat.pow_zero, Nat.div_one, nodeAt, if_neg (by omega)]
    rfl
  | succ depth ih =>
    unfold climb pathAt at ih ⊢
    rw [List.range_succ, List.map_append, List.foldl_append, ih]
    have hcovered : pos / 2 ^ depth / 2 * 2 ^ (depth + 1) < size := by
      rw [Nat.div_div_eq_div_mul, ← Nat.pow_succ]
      exact lt_of_le_of_lt (Nat.div_mul_le_self _ _) h
    rw [Nat.pow_succ, ← Nat.div_div_eq_div_mul, nodeAt_parent hcovered]
    simp only [List.map_cons, List.map_nil, List.foldl_cons, List.foldl_nil, decide_eq_true_eq]

lemma pushRecent_recentRoots {rootAt rootAt' : Nat → α} {window size : Nat}
    (h : ∀ s, s ≤ size → rootAt' s = rootAt s) :
    pushRecent window (recentRoots rootAt window size) (rootAt' (size + 1)) =
      recentRoots rootAt' window (size + 1) := by
  have hold : recentRoots rootAt window size = recentRoots rootAt' window size := by
    unfold recentRoots
    apply List.map_congr_left
    intro s hs
    rw [List.mem_range'_1] at hs
    exact (h s (by omega)).symm
  rw [hold]
  unfold pushRecent recentRoots
  have hlast : rootAt' (size + 1) = rootAt' (size - (max window 1 - 1) +
      (size + 1 - (size - (max window 1 - 1)))) := by
    congr 1
    omega
  rw [hlast, ← List.map_singleton (f := rootAt'), ← List.map_append, ← List.range'_1_concat,
    ← List.map_drop, List.drop_range', List.length_map, List.length_range']
  congr 2
  · omega
  · omega

end Peal.AppendTree
