import Peal.Library.PromotedTree

namespace Peal.PromotedTree

/-! # One tree from three loops

A level is built from a list of its chunks, by pushing onto a fresh list, or in place at the front of the array the
nodes already stand in. -/

variable {D : Type} (node : D → D → D)

/-- The list in pieces of two, the last one shorter when the length is odd. -/
def chunks2 : List D → List (List D)
  | l :: r :: rest => [l, r] :: chunks2 rest
  | [d] => [[d]]
  | [] => []

def joinChunk : List D → Option D
  | [l, r] => some (node l r)
  | pair => pair.head?

def chunkUp (level : List D) : List D := (chunks2 level).filterMap (joinChunk node)

/-- The even indices below a length, as a loop in steps of two visits them. -/
def pairStarts (n : Nat) : List Nat := List.range' 0 ((n + 1) / 2) 2

def pushPair (level next : List D) (i : Nat) : List D :=
  match level[i]?, level[i + 1]? with
  | some l, some r => next ++ [node l r]
  | some l, none => next ++ [l]
  | none, _ => next

def pushUp (level : List D) : List D := (pairStarts level.length).foldl (pushPair node level) []

/-- Writes at `m` what the pair at `i` joins to; `n` entries are in use. -/
def packPair (n : Nat) (acc : List D × Nat) (i : Nat) : List D × Nat :=
  match acc.1[i]? with
  | some l => (acc.1.set acc.2 (if i + 1 < n then (acc.1[i + 1]?).elim l (node l) else l), acc.2 + 1)
  | none => acc

def packUp (n : Nat) (level : List D) : List D × Nat := (pairStarts n).foldl (packPair node n) (level, 0)

/-- Repeats `up` while more than one node is left; the fuel bounds the number of levels. -/
def loopUp (up : List D → List D) : Nat → List D → List D
  | 0, level => level
  | fuel + 1, level => if 1 < level.length then loopUp up fuel (up level) else level

def packLoop : Nat → Nat → List D → List D
  | 0, _, level => level
  | fuel + 1, n, level => if 1 < n then packLoop fuel (packUp node n level).2 (packUp node n level).1 else level

lemma chunkUp_eq (level : List D) : chunkUp node level = levelUp node level := by
  induction level using levelUp.induct with
  | case1 l r rest ih =>
    rw [levelUp, ← ih]
    rfl
  | case2 level hlevel =>
    obtain rfl | ⟨d, rfl⟩ := pairless hlevel
    · rfl
    · rfl

lemma foldl_pushPair {level : List D} {k : Nat} (hk : k ≤ (level.length + 1) / 2) :
    (List.range' 0 k 2).foldl (pushPair node level) [] = (levelUp node level).take k := by
  induction k with
  | zero => rfl
  | succ k ih =>
    have hlt : 2 * k < level.length := by omega
    have hnext := levelUp_getElem? node level k
    rw [List.range'_concat, List.foldl_append, ih (by omega), List.foldl_cons, List.foldl_nil, Nat.zero_add,
      List.take_add_one, hnext, pushPair, List.getElem?_eq_getElem hlt]
    cases level[2 * k + 1]? with
    | none => rfl
    | some r => rfl

lemma pushUp_eq (level : List D) : pushUp node level = levelUp node level := by
  rw [pushUp, pairStarts, foldl_pushPair node le_rfl, ← levelUp_length node, List.take_length]

lemma foldl_packPair {level : List D} {n k : Nat} (hn : n ≤ level.length) (hk : k ≤ (n + 1) / 2) :
    (List.range' 0 k 2).foldl (packPair node n) (level, 0) =
      ((levelUp node (level.take n)).take k ++ level.drop k, k) := by
  induction k with
  | zero => rfl
  | succ k ih =>
    have hlt : 2 * k < level.length := by omega
    have hfront : ((levelUp node (level.take n)).take k).length = k := by
      rw [List.length_take, levelUp_length, List.length_take]
      omega
    have hread : ∀ i, k ≤ i → ((levelUp node (level.take n)).take k ++ level.drop k)[i]? = level[i]? := by
      intro i hi
      rw [List.getElem?_append_right (by omega), hfront, List.getElem?_drop, Nat.add_sub_cancel' hi]
    have hnext := levelUp_getElem? node (level.take n) k
    rw [List.getElem?_take_of_lt (show 2 * k < n by omega), List.getElem?_eq_getElem hlt, Option.map_some] at hnext
    rw [List.range'_concat, List.foldl_append, ih (by omega), List.foldl_cons, List.foldl_nil, Nat.zero_add,
      packPair, hread _ (by omega), hread _ (by omega), List.getElem?_eq_getElem hlt]
    dsimp only
    have hvalue : (if 2 * k + 1 < n then (level[2 * k + 1]?).elim level[2 * k] (node level[2 * k]) else level[2 * k]) =
        ((level.take n)[2 * k + 1]?).elim level[2 * k] (node level[2 * k]) := by
      split_ifs with hpair
      · rw [List.getElem?_take_of_lt hpair]
      · rw [List.getElem?_eq_none (by rw [List.length_take]; omega)]
        rfl
    have hset : ∀ d, (level.drop k).set 0 d = d :: level.drop (k + 1) := by
      intro d
      rw [List.drop_eq_getElem_cons (show k < level.length by omega), List.set_cons_zero]
    rw [hvalue, List.set_append_right _ _ (by omega), hfront, Nat.sub_self, hset, List.take_add_one, hnext,
      Option.toList_some, List.append_assoc, List.singleton_append]

lemma packUp_eq {level : List D} {n : Nat} (hn : n ≤ level.length) :
    packUp node n level = (levelUp node (level.take n) ++ level.drop ((n + 1) / 2), (n + 1) / 2) := by
  have hlen : (levelUp node (level.take n)).length = (n + 1) / 2 := by
    rw [levelUp_length, List.length_take, min_eq_left hn]
  rw [packUp, pairStarts, foldl_packPair node hn le_rfl, ← hlen, List.take_length]

lemma loopUp_eq {up : List D → List D} (hup : ∀ level, up level = levelUp node level) (fuel : Nat) (level : List D) :
    loopUp up fuel level = collapse node fuel level := by
  induction fuel generalizing level with
  | zero => rfl
  | succ fuel ih => rw [loopUp, collapse, ih, hup]

lemma packLoop_head {fuel n : Nat} {level : List D} (hn : n ≤ level.length) (hpos : 0 < n) :
    (packLoop node fuel n level).head? = (collapse node fuel (level.take n)).head? := by
  induction fuel generalizing n level with
  | zero =>
    obtain ⟨d, rest, rfl⟩ := List.exists_cons_of_length_pos (hpos.trans_le hn)
    obtain ⟨m, rfl⟩ := Nat.exists_eq_succ_of_ne_zero hpos.ne'
    rfl
  | succ fuel ih =>
    rw [packLoop, collapse, List.length_take, min_eq_left hn]
    have hlen : (levelUp node (level.take n)).length = (n + 1) / 2 := by
      rw [levelUp_length, List.length_take, min_eq_left hn]
    split_ifs with hwide
    · rw [packUp_eq node hn, ih, List.take_left' hlen]
      · rw [List.length_append, hlen]
        omega
      · dsimp only
        omega
    · obtain ⟨d, rest, rfl⟩ := List.exists_cons_of_length_pos (hpos.trans_le hn)
      obtain ⟨m, rfl⟩ := Nat.exists_eq_succ_of_ne_zero hpos.ne'
      rfl

/-- The three loops end with the root. -/
theorem loops_root (leaves : List D) :
    (loopUp (chunkUp node) leaves.length leaves).head? = rootOf node leaves ∧
      (loopUp (pushUp node) leaves.length leaves).head? = rootOf node leaves ∧
        (leaves ≠ [] → (packLoop node leaves.length leaves.length leaves).head? = rootOf node leaves) := by
  refine ⟨?_, ?_, fun hne => ?_⟩
  · rw [loopUp_eq node (chunkUp_eq node)]
    rfl
  · rw [loopUp_eq node (pushUp_eq node)]
    rfl
  · rw [packLoop_head node le_rfl (List.length_pos_iff.mpr hne), List.take_length]
    rfl

end Peal.PromotedTree
