import Peal.Library.TreeLevels

namespace Peal.AppendTree

/-! # The full tree of a height over all of its leaves -/

variable {α : Type} (node : α → α → α) (zero : α)

/-- The root of the full tree over the first `2 ^ height` values of `leaf`. -/
def plainRoot : Nat → (Nat → α) → α
  | 0, leaf => leaf 0
  | height + 1, leaf => node (plainRoot height leaf) (plainRoot height fun i => leaf (2 ^ height + i))

/-- The node of the full tree at a level and index. -/
def plainNode (leaf : Nat → α) (level index : Nat) : α :=
  plainRoot node level fun i => leaf (index * 2 ^ level + i)

/-- The siblings on the way up from a position of the full tree. -/
def plainSiblings (leaf : Nat → α) (depth pos : Nat) : List α :=
  (List.range depth).map fun level => plainNode node leaf level ((pos / 2 ^ level) ^^^ 1)

/-- For each level on the way up from a position, whether its node is a right child. -/
def indexBits (depth pos : Nat) : List Bool := (List.range depth).map pos.testBit

/-- The first `size` leaves, and zeros after them. -/
def padded (leaves : List α) (size i : Nat) : α := if i < size then leaves.getD i zero else zero

variable {node zero}

lemma padded_of_lt (leaves : List α) {size i : Nat} (h : i < size) :
    padded zero leaves size i = leaves.getD i zero := if_pos h

lemma plainNode_zero (leaf : Nat → α) (index : Nat) : plainNode node leaf 0 index = leaf index := by
  simp [plainNode, plainRoot]

lemma plainNode_succ (leaf : Nat → α) (level index : Nat) :
    plainNode node leaf (level + 1) index =
      node (plainNode node leaf level (2 * index)) (plainNode node leaf level (2 * index + 1)) := by
  have hleft : index * 2 ^ (level + 1) = 2 * index * 2 ^ level := by ring
  have hright : ∀ i, index * 2 ^ (level + 1) + (2 ^ level + i) = (2 * index + 1) * 2 ^ level + i := by
    intro i
    ring
  simp only [plainNode, plainRoot, hright]
  rw [hleft]

lemma plainNode_root (leaf : Nat → α) (depth : Nat) : plainNode node leaf depth 0 = plainRoot node depth leaf := by
  simp only [plainNode, Nat.zero_mul, Nat.zero_add]

lemma plainNode_congr {leaf leaf' : Nat → α} {level index : Nat}
    (h : ∀ i, i / 2 ^ level = index → leaf i = leaf' i) :
    plainNode node leaf level index = plainNode node leaf' level index := by
  induction level generalizing index with
  | zero =>
    rw [plainNode_zero, plainNode_zero]
    exact h index (by simp)
  | succ level ih =>
    have hup : ∀ {i child : Nat}, i / 2 ^ level = child → i / 2 ^ (level + 1) = child / 2 := by
      intro i child hi
      rw [Nat.pow_succ, ← Nat.div_div_eq_div_mul, hi]
    rw [plainNode_succ, plainNode_succ, ih fun i hi => h i ((hup hi).trans (by omega)),
      ih fun i hi => h i ((hup hi).trans (by omega))]

lemma plainNode_const (level index : Nat) :
    plainNode node (fun _ => zero) level index = zeroDigest node zero level := by
  induction level generalizing index with
  | zero => rw [plainNode_zero, zeroDigest]
  | succ level ih => rw [plainNode_succ, ih, ih, zeroDigest]

lemma plainNode_parent (leaf : Nat → α) (level index : Nat) :
    plainNode node leaf (level + 1) (index / 2) =
      if index % 2 = 1 then
        node (plainNode node leaf level (index ^^^ 1)) (plainNode node leaf level index)
      else node (plainNode node leaf level index) (plainNode node leaf level (index ^^^ 1)) := by
  rw [plainNode_succ]
  rcases Nat.mod_two_eq_zero_or_one index with heven | hodd
  · rw [if_neg (by omega), Nat.xor_one_of_even (Nat.even_iff.mpr heven),
      show 2 * (index / 2) = index by omega]
  · rw [if_pos hodd, Nat.xor_one_of_odd (Nat.odd_iff.mpr hodd), show 2 * (index / 2) = index - 1 by omega,
      show index - 1 + 1 = index by omega]

lemma xor_one_ne (index : Nat) : index ^^^ 1 ≠ index := by
  rcases Nat.mod_two_eq_zero_or_one index with heven | hodd
  · rw [Nat.xor_one_of_even (Nat.even_iff.mpr heven)]
    omega
  · rw [Nat.xor_one_of_odd (Nat.odd_iff.mpr hodd)]
    omega

lemma testBit_eq_mod (pos level : Nat) : pos.testBit level = decide (pos / 2 ^ level % 2 = 1) := by
  rw [Nat.testBit_eq_decide_div_mod_eq]

lemma zip_indexBits (leaf : Nat → α) (depth pos : Nat) :
    (plainSiblings node leaf depth pos).zip (indexBits depth pos) =
      (List.range depth).map fun level =>
        (plainNode node leaf level ((pos / 2 ^ level) ^^^ 1), pos.testBit level) := by
  unfold plainSiblings indexBits
  rw [List.zip_map']

/-- Climbing from any value at a position gives the tree that has it there. -/
theorem climb_update (leaf : Nat → α) (pos : Nat) (value : α) (depth : Nat) :
    climb node value ((plainSiblings node leaf depth pos).zip (indexBits depth pos)) =
      plainNode node (Function.update leaf pos value) depth (pos / 2 ^ depth) := by
  rw [zip_indexBits]
  induction depth with
  | zero => simp [climb, plainNode_zero]
  | succ depth ih =>
    have hsibling : plainNode node leaf depth (pos / 2 ^ depth ^^^ 1) =
        plainNode node (Function.update leaf pos value) depth (pos / 2 ^ depth ^^^ 1) := by
      apply plainNode_congr
      rintro i hi
      rw [Function.update_of_ne]
      rintro rfl
      exact xor_one_ne _ hi.symm
    unfold climb at ih ⊢
    rw [List.range_succ, List.map_append, List.foldl_append, ih, Nat.pow_succ, ← Nat.div_div_eq_div_mul,
      plainNode_parent]
    simp only [List.map_cons, List.map_nil, List.foldl_cons, List.foldl_nil, hsibling, testBit_eq_mod,
      decide_eq_true_eq]

lemma climb_leaf (leaf : Nat → α) (pos depth : Nat) :
    climb node (leaf pos) ((plainSiblings node leaf depth pos).zip (indexBits depth pos)) =
      plainNode node leaf depth (pos / 2 ^ depth) := by
  rw [climb_update, Function.update_eq_self]

lemma climb_injective (hnode : Function.Injective2 node) {siblings siblings' : List α} {bits : List Bool}
    {value value' : α} (hlen : siblings.length = siblings'.length)
    (h : climb node value (siblings.zip bits) = climb node value' (siblings'.zip bits)) : value = value' := by
  induction siblings generalizing siblings' bits value value' with
  | nil =>
    cases siblings' with
    | nil => exact h
    | cons sibling rest => cases hlen
  | cons sibling rest ih =>
    cases siblings' with
    | nil => cases hlen
    | cons sibling' rest' =>
      cases bits with
      | nil => exact h
      | cons bit bits =>
        have hup := ih (Nat.succ.inj hlen) h
        cases bit with
        | true => exact (hnode hup).2
        | false => exact (hnode hup).1

lemma climb_siblings (hnode : Function.Injective2 node) {siblings siblings' : List α} {bits : List Bool}
    {value value' : α} (hlen : siblings.length = siblings'.length) (hbits : siblings.length = bits.length)
    (h : climb node value (siblings.zip bits) = climb node value' (siblings'.zip bits)) : siblings = siblings' := by
  induction siblings generalizing siblings' bits value value' with
  | nil => exact (List.eq_nil_of_length_eq_zero hlen.symm).symm
  | cons sibling rest ih =>
    cases siblings' with
    | nil => cases hlen
    | cons sibling' rest' =>
      cases bits with
      | nil => cases hbits
      | cons bit bits =>
        have hup := climb_injective hnode (Nat.succ.inj hlen) h
        have hrest := ih (Nat.succ.inj hlen) (Nat.succ.inj hbits) h
        have hsibling : sibling = sibling' := by
          cases bit with
          | true => exact (hnode hup).1
          | false => exact (hnode hup).2
        rw [hsibling, hrest]

/-- The tree of the first leaves of a log is the full tree of these leaves, padded. -/
theorem nodeAt_eq_plainNode (leaves : List α) (size level index : Nat) :
    nodeAt node zero leaves size level index = plainNode node (padded zero leaves size) level index := by
  induction level generalizing index with
  | zero =>
    rw [nodeAt, plainNode_zero, padded]
    by_cases hi : index < size
    · rw [if_neg (by omega), if_pos hi]
    · rw [if_pos (by omega), if_neg hi]
  | succ level ih =>
    by_cases hbeyond : size ≤ index * 2 ^ (level + 1)
    · rw [nodeAt, if_pos hbeyond, ← plainNode_const (level + 1) index]
      apply plainNode_congr
      rintro i rfl
      have := Nat.div_mul_le_self i (2 ^ (level + 1))
      rw [padded, if_neg (by omega)]
    · rw [nodeAt, if_neg hbeyond, ih, ih, plainNode_succ]

end Peal.AppendTree
