import Peal.Links.Atomicity
import Peal.Links.Inbox
import Peal.Library.PlainTree

namespace Peal.Links
open Peal.Fallible Peal.AppendTree

/-! # The receipt tree against a plain one

Paths and past roots are read from levels that already hold later leaves. -/

variable (c : Crypto)

namespace LevelTree

/-- `1u64 << level`. -/
def span (level : Nat) : Nat := 2 ^ (level % 64)

/-- The node at a level and index of the tree of the first `size` leaves, in 64-bit words. -/
def nodeAt (t : LevelTree) (size : Nat) : Nat → Nat → Fr
  | 0, index =>
    if size ≤ index * span 0 % 2 ^ 64 then zeroDigest (treeNode c) 0 0
    else (t.levels.getD 0 []).getD index 0
  | level + 1, index =>
    let start := index * span (level + 1) % 2 ^ 64
    if size ≤ start then zeroDigest (treeNode c) 0 (level + 1)
    -- appends never change a node whose subtree is full
    else if (start + span (level + 1)) % 2 ^ 64 ≤ size then (t.levels.getD (level + 1) []).getD index 0
    else treeNode c (t.nodeAt size level (index * 2 % 2 ^ 64)) (t.nodeAt size level ((index * 2 + 1) % 2 ^ 64))

def pathAt (t : LevelTree) (pos size : Nat) : Except Error MerklePath := do
  require (¬(size ≤ pos ∨ t.size < size)) (.wallet s!"no receipt at position {pos} in a log of {size}")
  return ⟨(List.range t.depth).map fun j => t.nodeAt c size j ((pos >>> j) ^^^ 1),
    (List.range t.depth).map fun j => decide ((pos >>> j) &&& 1 = 1)⟩

/-- Append leaf after leaf; one that does not fit leaves the tree as it is. -/
def appendAll (t : LevelTree) (leaves : List Fr) : LevelTree :=
  leaves.foldl (fun t leaf => (t.append c leaf).toOption.getD t) t

variable {c} {t : LevelTree}

lemma getD_of_lt {nodes : List Fr} {index : Nat} (h : index < nodes.length) (d d' : Fr) :
    nodes.getD index d = nodes.getD index d' := by
  rw [List.getD_eq_getElem?_getD, List.getD_eq_getElem?_getD, List.getElem?_eq_getElem h, Option.getD_some,
    Option.getD_some]

lemma words_fit {depth level index : Nat} (hdepth : depth < 64) (hlevel : level ≤ depth)
    (hindex : (index + 1) * 2 ^ level ≤ 2 ^ depth) :
    span level = 2 ^ level ∧ index * 2 ^ level % 2 ^ 64 = index * 2 ^ level ∧
      (index * 2 ^ level + 2 ^ level) % 2 ^ 64 = index * 2 ^ level + 2 ^ level ∧ index < 2 ^ 63 := by
  have hword : 2 ^ depth ≤ 2 ^ 63 := Nat.pow_le_pow_right (by omega) (by omega)
  have hpos : 0 < 2 ^ level := Nat.two_pow_pos level
  have hindexWord : index + 1 ≤ (index + 1) * 2 ^ level := Nat.le_mul_of_pos_right _ hpos
  rw [Nat.add_mul, Nat.one_mul] at hindex hindexWord
  refine ⟨?_, Nat.mod_eq_of_lt (by omega), Nat.mod_eq_of_lt (by omega), by omega⟩
  rw [span, Nat.mod_eq_of_lt (by omega)]

lemma nodeAt_eq_storedNode (h : t.Levelled c) (hdepth : t.depth < 64) {size : Nat} (hsize : size ≤ t.size)
    {level index : Nat} (hlevel : level ≤ t.depth) (hindex : (index + 1) * 2 ^ level ≤ 2 ^ t.depth) :
    t.nodeAt c size level index = storedNode (treeNode c) 0 t.levels size level index := by
  induction level generalizing index with
  | zero =>
    obtain ⟨hspan, hstart, -, -⟩ := words_fit hdepth hlevel hindex
    rw [nodeAt, storedNode, hspan, hstart, Nat.pow_zero, Nat.mul_one, zeroDigest]
  | succ level ih =>
    obtain ⟨hspan, hstart, hend, hword⟩ := words_fit hdepth hlevel hindex
    have hpow : 2 ^ (level + 1) = 2 * 2 ^ level := Nat.pow_succ'
    have hright : (2 * index + 1 + 1) * 2 ^ level ≤ 2 ^ t.depth := by
      calc (2 * index + 1 + 1) * 2 ^ level = (index + 1) * 2 ^ (level + 1) := by rw [hpow]; ring
        _ ≤ 2 ^ t.depth := hindex
    have hleft : (2 * index + 1) * 2 ^ level ≤ 2 ^ t.depth :=
      le_trans (Nat.mul_le_mul_right _ (by omega)) hright
    rw [nodeAt, storedNode]
    simp only [hspan, hstart, hend]
    by_cases hbeyond : size ≤ index * 2 ^ (level + 1)
    · rw [if_pos hbeyond, if_pos hbeyond]
    · rw [if_neg hbeyond, if_neg hbeyond]
      by_cases hfull : index * 2 ^ (level + 1) + 2 ^ (level + 1) ≤ size
      · have hstored : index < (t.levels.getD (level + 1) []).length := by
          have hlen : t.size = t.leaves.length := rfl
          rw [(h.level _ hlevel).length, lt_cover_iff]
          omega
        rw [if_pos hfull, if_pos hfull, getD_of_lt hstored 0]
      · rw [if_neg hfull, if_neg hfull, Nat.mul_comm index 2, Nat.mod_eq_of_lt (by omega),
          Nat.mod_eq_of_lt (by omega), ih (by omega) hleft, ih (by omega) hright]

lemma sibling_fits {depth pos level : Nat} (hpos : pos < 2 ^ depth) (hlevel : level < depth) :
    ((pos / 2 ^ level ^^^ 1) + 1) * 2 ^ level ≤ 2 ^ depth := by
  have hpow : 2 ^ depth = 2 * 2 ^ (depth - level - 1) * 2 ^ level := by
    rw [← Nat.pow_succ', ← Nat.pow_add]
    congr 1
    omega
  have hlt : pos / 2 ^ level < 2 * 2 ^ (depth - level - 1) := by
    rw [Nat.div_lt_iff_lt_mul (Nat.two_pow_pos level), ← hpow]
    exact hpos
  rw [hpow]
  apply Nat.mul_le_mul_right
  generalize pos / 2 ^ level = index at hlt ⊢
  rcases Nat.mod_two_eq_zero_or_one index with heven | hodd
  · rw [Nat.xor_one_of_even (Nat.even_iff.mpr heven)]
    omega
  · rw [Nat.xor_one_of_odd (Nat.odd_iff.mpr hodd)]
    omega

lemma pathAt_eq (h : t.Levelled c) (hdepth : t.depth < 64) (hfits : t.size ≤ 2 ^ t.depth) {pos size : Nat}
    (hpos : pos < size) (hsize : size ≤ t.size) :
    t.pathAt c pos size = .ok ⟨plainSiblings (treeNode c) (padded 0 t.leaves size) t.depth pos,
      indexBits t.depth pos⟩ := by
  have hsiblings : ((List.range t.depth).map fun j => t.nodeAt c size j ((pos >>> j) ^^^ 1)) =
      plainSiblings (treeNode c) (padded 0 t.leaves size) t.depth pos := by
    apply List.map_congr_left
    intro j hj
    rw [List.mem_range] at hj
    rw [Nat.shiftRight_eq_div_pow,
      nodeAt_eq_storedNode h hdepth hsize hj.le (sibling_fits (by omega) hj),
      storedNode_eq h hsize hj.le, nodeAt_eq_plainNode]
  have hbits : ((List.range t.depth).map fun j => decide ((pos >>> j) &&& 1 = 1)) = indexBits t.depth pos := by
    apply List.map_congr_left
    intro j _
    rw [testBit_eq_mod, Nat.shiftRight_eq_div_pow, Nat.and_one_is_mod]
  have hpresent : require (ε := Error) (¬(size ≤ pos ∨ t.size < size))
      (.wallet s!"no receipt at position {pos} in a log of {size}") = .ok () := require_eq_ok.mpr (by omega)
  unfold pathAt
  rw [hsiblings, hbits, hpresent]
  rfl

/-- A tree kept up to date leaf by leaf: rebuilding it from its leaves gives it again. -/
structure UpToDate (c : Crypto) (depth : Nat) (t : LevelTree) : Prop where
  height : t.depth = depth
  rebuilt : fromLeaves c depth t.leaves = .ok t
  fits : t.size ≤ 2 ^ min depth 63

variable {depth : Nat}

lemma UpToDate.levelled (h : UpToDate c depth t) : t.Levelled c := (fromLeaves_spec h.rebuilt).2.2

variable (c) in
lemma upToDate_new (depth : Nat) : UpToDate c depth (new depth) := by
  have hleaves : (new depth).leaves = [] := (levelsOf_empty (treeNode c) 0 depth).bottom
  refine ⟨rfl, ?_, ?_⟩
  · rw [hleaves]
    rfl
  · unfold size
    rw [hleaves]
    exact Nat.zero_le _

lemma UpToDate.append {t' : LevelTree} {leaf : Fr} (ht : UpToDate c depth t) (h : t.append c leaf = .ok t') :
    UpToDate c depth t' := by
  obtain ⟨hleaves, -⟩ := append_leaves ht.levelled h
  obtain ⟨hlt, rfl⟩ := append_eq_ok.mp h
  refine ⟨ht.height, ?_, ?_⟩
  · rw [hleaves, fromLeaves_concat, ht.rebuilt]
    exact h
  · unfold size
    rw [hleaves, List.length_append, List.length_singleton, ← ht.height]
    exact hlt

lemma append_refused {leaf : Fr} {e : Error} (h : t.append c leaf = .error e) :
    2 ^ min t.depth 63 ≤ t.size := by
  by_contra hlt
  rw [append_eq_ok.mpr ⟨not_le.mp hlt, rfl⟩] at h
  cases h

lemma appendAll_concat (t : LevelTree) (leaves : List Fr) (leaf : Fr) :
    appendAll c t (leaves ++ [leaf]) =
      ((appendAll c t leaves).append c leaf).toOption.getD (appendAll c t leaves) := by
  unfold appendAll
  rw [List.foldl_append]
  rfl

lemma appendAll_spec (depth : Nat) (leaves : List Fr) :
    UpToDate c depth (appendAll c (new depth) leaves) ∧
      (appendAll c (new depth) leaves).leaves = leaves.take (2 ^ min depth 63) := by
  induction leaves using List.reverseRecOn with
  | nil =>
    refine ⟨upToDate_new c depth, ?_⟩
    rw [List.take_nil]
    exact (levelsOf_empty (treeNode c) 0 depth).bottom
  | append_singleton leaves leaf ih =>
    rw [appendAll_concat]
    generalize appendAll c (new depth) leaves = t at ih
    obtain ⟨htree, hleaves⟩ := ih
    have hsize : t.size = min (2 ^ min depth 63) leaves.length := by
      unfold size
      rw [hleaves, List.length_take]
    cases happend : t.append c leaf with
    | ok t' =>
      have hlt := (append_eq_ok.mp happend).1
      rw [htree.height, hsize] at hlt
      refine ⟨htree.append happend, ?_⟩
      show t'.leaves = _
      rw [(append_leaves htree.levelled happend).1, hleaves, List.take_of_length_le (by omega),
        List.take_of_length_le (by rw [List.length_append, List.length_singleton]; omega)]
    | error e =>
      have hfull := append_refused happend
      rw [htree.height, hsize] at hfull
      refine ⟨htree, ?_⟩
      show t.leaves = _
      rw [hleaves, List.take_append_of_le_length (by omega)]

lemma UpToDate.stored (h : UpToDate c depth t) {level : Nat} (hlevel : level ≤ depth) :
    t.levels.getD level [] =
      (List.range (cover t.size level)).map (plainNode (treeNode c) (padded 0 t.leaves t.size) level) := by
  have hlevelOf := h.levelled.level level (h.height ▸ hlevel)
  apply List.ext_getElem
  · rw [List.length_map, List.length_range, hlevelOf.length]
    rfl
  · intro i hi _
    have hnode := hlevelOf.node i
    rw [nodeAt_eq_plainNode, List.getD_eq_getElem?_getD, List.getElem?_eq_getElem hi, Option.getD_some] at hnode
    rw [hnode, List.getElem_map, List.getElem_range]
    rfl

lemma UpToDate.root (h : UpToDate c depth t) :
    t.root c = plainRoot (treeNode c) depth (padded 0 t.leaves t.size) := by
  rw [h.levelled.root, ← plainNode_root, ← nodeAt_eq_plainNode, ← h.height]
  rfl

lemma UpToDate.rootAt (h : UpToDate c depth t) (size : Nat) :
    t.rootAt c size = if size ≤ t.size then .ok (plainRoot (treeNode c) depth (padded 0 t.leaves size))
      else .error (.wallet "size exceeds the log") := by
  unfold LevelTree.rootAt
  by_cases hsize : size ≤ t.size
  · have hpresent : require (size ≤ t.size) (Error.wallet "size exceeds the log") = .ok () :=
      require_eq_ok.mpr hsize
    rw [if_pos hsize, hpresent, h.levelled.storedNode hsize, ← plainNode_root, ← nodeAt_eq_plainNode, ← h.height]
    rfl
  · rw [if_neg hsize, require_eq_error.mpr ⟨hsize, rfl⟩]
    rfl

lemma UpToDate.nodeAt (h : UpToDate c depth t) (hdepth : depth < 64) {size : Nat} (hsize : size ≤ t.size) :
    t.nodeAt c size depth 0 = plainRoot (treeNode c) depth (padded 0 t.leaves size) := by
  rw [nodeAt_eq_storedNode h.levelled (h.height ▸ hdepth) hsize h.height.ge (by rw [h.height]; omega),
    storedNode_eq h.levelled hsize h.height.ge, nodeAt_eq_plainNode, plainNode_root]

lemma UpToDate.path (h : UpToDate c depth t) (hdepth : depth < 64) {pos size : Nat} (hpos : pos < size)
    (hsize : size ≤ t.size) : ∃ path leaf, t.pathAt c pos size = .ok path ∧ t.leaves[pos]? = some leaf ∧
      path.indexBits = (List.range depth).map pos.testBit ∧ path.siblings.length = depth ∧
      rootFromPath c leaf path = plainRoot (treeNode c) depth (padded 0 t.leaves size) := by
  have hfits : t.size ≤ 2 ^ depth := le_trans h.fits (Nat.pow_le_pow_right (by omega) (min_le_left _ _))
  have hin : pos < t.leaves.length := lt_of_lt_of_le hpos hsize
  have hget : t.leaves[pos]? = some t.leaves[pos] := List.getElem?_eq_getElem hin
  have hpath := pathAt_eq h.levelled (h.height ▸ hdepth) (h.height ▸ hfits) hpos hsize
  rw [h.height] at hpath
  refine ⟨_, _, hpath, hget, rfl, ?_, ?_⟩
  · show (List.map _ _).length = depth
    rw [List.length_map, List.length_range]
  · have hleaf := @padded_of_lt _ 0 t.leaves _ _ hpos
    rw [List.getD_eq_getElem?_getD, hget, Option.getD_some] at hleaf
    have htop : pos / 2 ^ depth = 0 := Nat.div_eq_of_lt (by omega)
    unfold rootFromPath
    rw [← hleaf, ← plainNode_root, ← htop]
    exact climb_leaf _ pos depth

/-- A tree into which leaves are appended one by one, as far as they fit, is the plain Merkle tree: of the
leaves it has now, and at every size it has had. -/
theorem receipt_tree_plain (depth : Nat) (hdepth : depth < 64) (attempts : List Fr) :
    let t := appendAll c (new depth) attempts
    let plain := fun size => plainRoot (treeNode c) depth (padded 0 t.leaves size)
    t.leaves = attempts.take (2 ^ min depth 63) ∧ fromLeaves c depth t.leaves = .ok t ∧
      (∀ level ≤ depth, t.levels.getD level [] =
        (List.range (cover t.size level)).map (plainNode (treeNode c) (padded 0 t.leaves t.size) level)) ∧
      t.root c = plain t.size ∧
      (∀ size, t.rootAt c size = if size ≤ t.size then .ok (plain size) else .error (.wallet "size exceeds the log")) ∧
      (∀ size ≤ t.size, t.nodeAt c size depth 0 = plain size) ∧
      (∀ pos size, pos < size → size ≤ t.size → ∃ path leaf, t.pathAt c pos size = .ok path ∧
        t.leaves[pos]? = some leaf ∧ path.indexBits = (List.range depth).map pos.testBit ∧
        path.siblings.length = depth ∧ rootFromPath c leaf path = plain size) ∧
      ∀ pos size, size ≤ pos ∨ t.size < size →
        t.pathAt c pos size = .error (.wallet s!"no receipt at position {pos} in a log of {size}") := by
  intro t plain
  obtain ⟨htree, hleaves⟩ := appendAll_spec depth attempts (c := c)
  refine ⟨hleaves, htree.rebuilt, fun _ => htree.stored, htree.root, htree.rootAt,
    fun _ => htree.nodeAt hdepth, fun _ _ => htree.path hdepth, ?_⟩
  intro pos size hout
  unfold pathAt
  rw [require_eq_error.mpr ⟨not_not.mpr hout, rfl⟩]
  rfl

/-- Of five leaves four fit; the path of the second is served for the log of three. -/
theorem receipt_tree_sample :
    let t := appendAll sampleCrypto (new 2) [7, 8, 9, 10, 11]
    t.leaves = [7, 8, 9, 10] ∧ ∃ path, t.pathAt sampleCrypto 1 3 = .ok path ∧ path.indexBits = [true, false] ∧
      rootFromPath sampleCrypto 8 path = plainRoot (treeNode sampleCrypto) 2 (padded 0 [7, 8, 9, 10] 3) := by
  intro t
  obtain ⟨hleaves, -, -, -, -, -, hpath, -⟩ :=
    receipt_tree_plain (c := sampleCrypto) 2 (by decide) [7, 8, 9, 10, 11]
  have hfour : t.leaves = [7, 8, 9, 10] := hleaves
  have hsize : 3 ≤ t.size := by
    unfold size
    rw [hfour]
    decide
  obtain ⟨path, leaf, hserved, hleaf, hbits, -, hroot⟩ := hpath 1 3 (by decide) hsize
  have hsecond : t.leaves[1]? = some leaf := hleaf
  rw [hfour] at hsecond
  obtain rfl : 8 = leaf := Option.some.inj hsecond
  have htop : rootFromPath sampleCrypto 8 path =
      plainRoot (treeNode sampleCrypto) 2 (padded 0 t.leaves 3) := hroot
  exact ⟨hfour, path, hserved, hbits, by rw [htop, hfour]⟩

end LevelTree

end Peal.Links
