import Mathlib.Tactic

namespace Peal.PromotedTree

/-! # Hash trees built level by level, an odd last node moving up unhashed

A path is the list of siblings from a leaf to the root, each with the side it stands on. The sides of a
path determine the index of the leaf among a known number of leaves, so a path with the sides of an index
proves membership at that index and nowhere else. -/

variable {D : Type} (node : D → D → D)

/-- One level up. -/
def levelUp : List D → List D
  | l :: r :: rest => node l r :: levelUp rest
  | level => level

/-- Levels are built while more than one node is left; the fuel bounds their number. -/
def collapse : Nat → List D → List D
  | 0, level => level
  | fuel + 1, level => if 1 < level.length then collapse fuel (levelUp node level) else level

def rootOf (leaves : List D) : Option D := (collapse node leaves.length leaves).head?

/-- A sibling on the right is marked true. -/
def climb (leaf : D) (path : List (D × Bool)) : D :=
  path.foldl (fun at_ sibling => if sibling.2 then node at_ sibling.1 else node sibling.1 at_) leaf

def sibling (level : List D) (i : Nat) : Option (D × Bool) :=
  if i % 2 = 0 then level[i + 1]?.map fun d => (d, true) else level[i - 1]?.map fun d => (d, false)

def path : Nat → List D → Nat → List (D × Bool)
  | 0, _, _ => []
  | fuel + 1, level, i =>
    if 1 < level.length then (sibling level i).toList ++ path fuel (levelUp node level) (i / 2) else []

/-- The sides of the siblings on the way up from an index, in a tree with the given number of leaves. -/
def sides : Nat → Nat → Nat → List Bool
  | 0, _, _ => []
  | fuel + 1, size, i =>
    if 1 < size then
      (if i % 2 = 0 then if i + 1 < size then [true] else [] else [false]) ++ sides fuel ((size + 1) / 2) (i / 2)
    else []

/-- The pairs hashed to build a level. -/
def levelPairs : List D → List (D × D)
  | l :: r :: rest => (l, r) :: levelPairs rest
  | _ => []

def treePairs : Nat → List D → List (D × D)
  | 0, _ => []
  | fuel + 1, level =>
    if 1 < level.length then levelPairs level ++ treePairs fuel (levelUp node level) else []

def climbPair (at_ : D) (sibling : D × Bool) : D × D :=
  if sibling.2 then (at_, sibling.1) else (sibling.1, at_)

/-- The pairs hashed to climb a path. -/
def climbPairs : D → List (D × Bool) → List (D × D)
  | _, [] => []
  | at_, sibling :: rest =>
    let pair := climbPair at_ sibling
    pair :: climbPairs (node pair.1 pair.2) rest

lemma pairless {level : List D} (h : ∀ l r rest, level = l :: r :: rest → False) :
    level = [] ∨ ∃ d, level = [d] := by
  cases level with
  | nil => exact .inl rfl
  | cons d rest =>
    cases rest with
    | nil => exact .inr ⟨d, rfl⟩
    | cons r rest => exact (h d r rest rfl).elim

lemma levelUp_length (level : List D) : (levelUp node level).length = (level.length + 1) / 2 := by
  induction level using levelUp.induct with
  | case1 l r rest ih =>
    simp only [levelUp, List.length_cons, ih]
    omega
  | case2 level hlevel =>
    obtain rfl | ⟨d, rfl⟩ := pairless hlevel
    · simp [levelUp]
    · simp [levelUp]

lemma levelUp_getElem? (level : List D) (i : Nat) :
    (levelUp node level)[i]? =
      level[2 * i]?.map fun l => (level[2 * i + 1]?).elim l (node l) := by
  induction level using levelUp.induct generalizing i with
  | case1 l r rest ih =>
    cases i with
    | zero => simp [levelUp]
    | succ i =>
      have heven : 2 * (i + 1) = 2 * i + 1 + 1 := by omega
      simp only [levelUp, List.getElem?_cons_succ, heven]
      exact ih i
  | case2 level hlevel =>
    obtain rfl | ⟨d, rfl⟩ := pairless hlevel
    · simp [levelUp]
    · cases i <;> simp [levelUp, Nat.mul_add]

lemma levelPairs_mem {level : List D} {x : D × D} (h : x ∈ levelPairs level) :
    x.1 ∈ level ∧ x.2 ∈ level := by
  induction level using levelPairs.induct with
  | case1 l r rest ih =>
    rcases List.mem_cons.mp h with rfl | hrest
    · exact ⟨List.mem_cons_self, List.mem_cons_of_mem _ List.mem_cons_self⟩
    · obtain ⟨h1, h2⟩ := ih hrest
      exact ⟨List.mem_cons_of_mem _ (List.mem_cons_of_mem _ h1), List.mem_cons_of_mem _ (List.mem_cons_of_mem _ h2)⟩
  | case2 level hlevel =>
    obtain rfl | ⟨d, rfl⟩ := pairless hlevel
    · exact absurd h List.not_mem_nil
    · exact absurd h List.not_mem_nil

lemma collapse_short {fuel : Nat} {level : List D} (h : level.length ≤ fuel + 1) :
    (collapse node fuel level).length ≤ 1 := by
  induction fuel generalizing level with
  | zero => exact h
  | succ fuel ih =>
    unfold collapse
    by_cases hwide : 1 < level.length
    · rw [if_pos hwide]
      apply ih
      rw [levelUp_length]
      omega
    · rw [if_neg hwide]
      omega

lemma collapse_of_rootOf {level : List D} {top : D} (h : rootOf node level = some top) :
    collapse node level.length level = [top] := by
  have hshort := collapse_short node (Nat.le_succ level.length)
  unfold rootOf at h
  match hc : collapse node level.length level with
  | [] => rw [hc] at h; exact absurd h (by simp)
  | [d] => rw [hc] at h; rw [show d = top by simpa using h]
  | d :: e :: rest => rw [hc] at hshort; exact absurd hshort (by simp)

lemma climb_cons (leaf : D) (s : D × Bool) (rest : List (D × Bool)) :
    climb node leaf (s :: rest) = climb node (node (climbPair leaf s).1 (climbPair leaf s).2) rest := by
  unfold climb climbPair
  rw [List.foldl_cons]
  cases s.2 <;> rfl

lemma levelUp_half {level : List D} {i : Nat} {d : D} (hi : level[i]? = some d) :
    (levelUp node level)[i / 2]? =
      some ((sibling level i).elim d fun s => node (climbPair d s).1 (climbPair d s).2) := by
  rw [levelUp_getElem?]
  have hlt : i < level.length := (List.getElem?_eq_some_iff.mp hi).1
  rcases Nat.mod_two_eq_zero_or_one i with heven | hodd
  · have h2 : 2 * (i / 2) = i := by omega
    rw [h2, hi]
    unfold sibling climbPair
    rw [if_pos heven]
    cases level[i + 1]? <;> rfl
  · have h2 : 2 * (i / 2) + 1 = i := by omega
    have h1 : 2 * (i / 2) = i - 1 := by omega
    have hbelow : i - 1 < level.length := by omega
    rw [h2, hi, h1, List.getElem?_eq_getElem hbelow]
    unfold sibling climbPair
    rw [if_neg (by omega), List.getElem?_eq_getElem hbelow]
    rfl

lemma sibling_sides {level : List D} {i : Nat} (hi : i < level.length) :
    (sibling level i).toList.map Prod.snd =
      if i % 2 = 0 then if i + 1 < level.length then [true] else [] else [false] := by
  unfold sibling
  split_ifs with heven hnext
  · rw [List.getElem?_eq_getElem hnext]
    rfl
  · rw [List.getElem?_eq_none (by omega)]
    rfl
  · have hbelow : i - 1 < level.length := by omega
    rw [List.getElem?_eq_getElem hbelow]
    rfl

lemma path_sides {fuel : Nat} {level : List D} {i : Nat} (hi : i < level.length) :
    (path node fuel level i).map Prod.snd = sides fuel level.length i := by
  induction fuel generalizing level i with
  | zero => rfl
  | succ fuel ih =>
    unfold path sides
    by_cases hwide : 1 < level.length
    · have hhalf : i / 2 < (levelUp node level).length := by
        rw [levelUp_length]
        omega
      rw [if_pos hwide, if_pos hwide, List.map_append, sibling_sides hi, ih hhalf, levelUp_length]
    · rw [if_neg hwide, if_neg hwide, List.map_nil]

lemma climb_sibling (d : D) (s : Option (D × Bool)) (rest : List (D × Bool)) :
    climb node d (s.toList ++ rest) =
      climb node (s.elim d fun s => node (climbPair d s).1 (climbPair d s).2) rest := by
  cases s with
  | none => rfl
  | some s => exact climb_cons node d s rest

/-- The path built for an index climbs to the root. -/
theorem climb_path {fuel : Nat} {level : List D} {i : Nat} {d : D} (hfuel : level.length ≤ fuel + 1)
    (hi : level[i]? = some d) : collapse node fuel level = [climb node d (path node fuel level i)] := by
  have hlt : i < level.length := (List.getElem?_eq_some_iff.mp hi).1
  induction fuel generalizing level i d with
  | zero =>
    obtain ⟨e, rfl⟩ := List.length_eq_one_iff.mp (show level.length = 1 by omega)
    have hzero : i = 0 := by simpa using hlt
    rw [hzero] at hi
    have hde : e = d := by simpa using hi
    rw [hde]
    rfl
  | succ fuel ih =>
    unfold collapse path
    by_cases hwide : 1 < level.length
    · have hup := levelUp_half node hi
      have hshort : (levelUp node level).length ≤ fuel + 1 := by
        rw [levelUp_length]
        omega
      rw [if_pos hwide, if_pos hwide, climb_sibling]
      exact ih hshort hup (List.getElem?_eq_some_iff.mp hup).1
    · obtain ⟨e, rfl⟩ := List.length_eq_one_iff.mp (show level.length = 1 by omega)
      have hzero : i = 0 := by simpa using hlt
      rw [hzero] at hi
      have hde : e = d := by simpa using hi
      rw [hde]
      rfl

lemma sibling_mem {level : List D} {i : Nat} {s : D × Bool} (h : s ∈ sibling level i) : s.1 ∈ level := by
  unfold sibling at h
  split_ifs at h with heven
  · obtain ⟨d, hd, rfl⟩ := Option.map_eq_some_iff.mp h
    exact List.mem_of_getElem? hd
  · obtain ⟨d, hd, rfl⟩ := Option.map_eq_some_iff.mp h
    exact List.mem_of_getElem? hd

lemma sibling_add_two (l r : D) (rest : List D) (i : Nat) : sibling (l :: r :: rest) (i + 2) = sibling rest i := by
  unfold sibling
  rcases Nat.mod_two_eq_zero_or_one i with heven | hodd
  · rw [if_pos (by omega), if_pos heven]
    rfl
  · have hi : i + 2 - 1 = (i - 1) + 1 + 1 := by omega
    rw [if_neg (by omega), if_neg (by omega), hi]
    rfl

lemma sibling_mem_levelPairs {level : List D} {i : Nat} {d : D} {s : D × Bool} (hi : level[i]? = some d)
    (hs : sibling level i = some s) : climbPair d s ∈ levelPairs level := by
  induction level using levelPairs.induct generalizing i with
  | case1 l r rest ih =>
    match i with
    | 0 =>
      have hd : l = d := by simpa using hi
      have hr : (r, true) = s := by simpa [sibling] using hs
      rw [← hd, ← hr]
      exact List.mem_cons_self
    | 1 =>
      have hd : r = d := by simpa using hi
      have hl : (l, false) = s := by simpa [sibling] using hs
      rw [← hd, ← hl]
      exact List.mem_cons_self
    | i + 2 =>
      rw [sibling_add_two] at hs
      exact List.mem_cons_of_mem _ (ih hi hs)
  | case2 level hlevel =>
    obtain rfl | ⟨e, rfl⟩ := pairless hlevel
    · exact absurd hi (by simp)
    · have hzero : i = 0 := by
        have := (List.getElem?_eq_some_iff.mp hi).1
        simpa using this
      rw [hzero] at hs
      exact absurd hs (by simp [sibling])

lemma climbPair_inj {d e : D} {s t : D × Bool} (hside : s.2 = t.2) (h : climbPair d s = climbPair e t) :
    d = e ∧ s = t := by
  obtain ⟨x, side⟩ := s
  obtain ⟨y, side'⟩ := t
  obtain rfl : side = side' := hside
  unfold climbPair at h
  cases side
  · have hpair := Prod.ext_iff.mp h
    exact ⟨hpair.2, by rw [show x = y from hpair.1]⟩
  · have hpair := Prod.ext_iff.mp h
    exact ⟨hpair.1, by rw [show x = y from hpair.2]⟩

/-- A path with the sides of an index climbs to the root only from the leaf at that index, provided that
the pairs hashed on the way do not collide with those of the tree. -/
theorem climb_binds {fuel : Nat} {level : List D} {i : Nat} {leaf root : D} {p : List (D × Bool)}
    (hfuel : level.length ≤ fuel + 1) (hi : i < level.length) (hsides : p.map Prod.snd = sides fuel level.length i)
    (hcol : ∀ x ∈ treePairs node fuel level, ∀ y ∈ climbPairs node leaf p, node x.1 x.2 = node y.1 y.2 → x = y)
    (hroot : collapse node fuel level = [root]) (hclimb : climb node leaf p = root) :
    level[i]? = some leaf ∧ p = path node fuel level i := by
  induction fuel generalizing level i leaf p with
  | zero =>
    obtain rfl : p = [] := List.map_eq_nil_iff.mp hsides
    have hlevel : level = [root] := hroot
    have hzero : i = 0 := by simpa [hlevel] using hi
    have hleaf : leaf = root := hclimb
    rw [hzero, hlevel, hleaf]
    exact ⟨rfl, rfl⟩
  | succ fuel ih =>
    unfold sides at hsides
    unfold collapse at hroot
    unfold treePairs at hcol
    unfold path
    by_cases hwide : 1 < level.length
    · rw [if_pos hwide] at hsides hroot hcol
      rw [← levelUp_length node, ← sibling_sides hi] at hsides
      rw [if_pos hwide]
      have hd := List.getElem?_eq_getElem hi
      have hup := levelUp_half node hd
      have hhalf := (List.getElem?_eq_some_iff.mp hup).1
      have hshort : (levelUp node level).length ≤ fuel + 1 := by
        rw [levelUp_length]
        omega
      cases hs : sibling level i with
      | none =>
        rw [hs] at hsides hup
        have hcol' : ∀ x ∈ treePairs node fuel (levelUp node level), ∀ y ∈ climbPairs node leaf p,
            node x.1 x.2 = node y.1 y.2 → x = y := fun x hx => hcol x (List.mem_append_right _ hx)
        obtain ⟨hleaf, hp⟩ := ih hshort hhalf hsides hcol' hroot hclimb
        rw [hup] at hleaf
        exact ⟨hd.trans hleaf, hp⟩
      | some t =>
        rw [hs] at hsides hup
        obtain ⟨s, rest, rfl, hside, hrest⟩ := List.map_eq_cons_iff.mp hsides
        rw [climb_cons] at hclimb
        have hcol' : ∀ x ∈ treePairs node fuel (levelUp node level),
            ∀ y ∈ climbPairs node (node (climbPair leaf s).1 (climbPair leaf s).2) rest,
            node x.1 x.2 = node y.1 y.2 → x = y := fun x hx y hy =>
          hcol x (List.mem_append_right _ hx) y (List.mem_cons_of_mem _ hy)
        obtain ⟨hnode, hp⟩ := ih hshort hhalf hrest hcol' hroot hclimb
        rw [hup] at hnode
        have hpair := hcol _ (List.mem_append_left _ (sibling_mem_levelPairs hd hs)) _ List.mem_cons_self
          (Option.some.inj hnode)
        obtain ⟨hleaf, hst⟩ := climbPair_inj hside.symm hpair
        rw [hd, hleaf, hst, hp]
        exact ⟨rfl, rfl⟩
    · rw [if_neg hwide] at hsides hroot
      rw [if_neg hwide]
      obtain rfl : p = [] := List.map_eq_nil_iff.mp hsides
      have hzero : i = 0 := by omega
      have hleaf : leaf = root := hclimb
      rw [hzero, hroot, hleaf]
      exact ⟨rfl, rfl⟩

lemma levelUp_inj {level level' : List D} (hlen : level.length = level'.length)
    (hcol : ∀ x ∈ levelPairs level, ∀ y ∈ levelPairs level', node x.1 x.2 = node y.1 y.2 → x = y)
    (h : levelUp node level = levelUp node level') : level = level' := by
  induction level using levelPairs.induct generalizing level' with
  | case1 l r rest ih =>
    match level' with
    | l' :: r' :: rest' =>
      rw [levelUp, levelUp] at h
      obtain ⟨hnode, hrest⟩ := List.cons.inj h
      have hpair := hcol (l, r) List.mem_cons_self (l', r') List.mem_cons_self hnode
      obtain ⟨rfl, rfl⟩ := Prod.mk.inj hpair
      have hlen' : rest.length = rest'.length := by simpa using hlen
      rw [ih hlen' (fun x hx y hy => hcol x (List.mem_cons_of_mem _ hx) y (List.mem_cons_of_mem _ hy)) hrest]
    | [d] => simp at hlen
    | [] => simp at hlen
  | case2 level hlevel =>
    obtain rfl | ⟨d, rfl⟩ := pairless hlevel
    · exact (List.eq_nil_of_length_eq_zero hlen.symm).symm
    · obtain ⟨e, rfl⟩ := List.length_eq_one_iff.mp hlen.symm
      exact h

/-- As many leaves with the same root are the same leaves, provided that the pairs hashed over them do not collide. -/
theorem collapse_inj {fuel : Nat} {level level' : List D} (hlen : level.length = level'.length)
    (hcol : ∀ x ∈ treePairs node fuel level, ∀ y ∈ treePairs node fuel level', node x.1 x.2 = node y.1 y.2 → x = y)
    (h : collapse node fuel level = collapse node fuel level') : level = level' := by
  induction fuel generalizing level level' with
  | zero => exact h
  | succ fuel ih =>
    unfold collapse at h
    unfold treePairs at hcol
    by_cases hwide : 1 < level.length
    · rw [if_pos hwide, if_pos (hlen ▸ hwide)] at h hcol
      have hup : (levelUp node level).length = (levelUp node level').length := by
        rw [levelUp_length, levelUp_length, hlen]
      have hlevels := ih hup (fun x hx y hy => hcol x (List.mem_append_right _ hx) y (List.mem_append_right _ hy)) h
      exact levelUp_inj node hlen
        (fun x hx y hy => hcol x (List.mem_append_left _ hx) y (List.mem_append_left _ hy)) hlevels
    · rwa [if_neg hwide, if_neg (hlen ▸ hwide)] at h

/-! ### Trees of unknown size -/

inductive DigestTree (D : Type) where
  | leaf (d : D)
  | node (left right : DigestTree D)

namespace DigestTree

def value : DigestTree D → D
  | .leaf d => d
  | .node left right => node left.value right.value

def leaves : DigestTree D → List D
  | .leaf d => [d]
  | .node left right => left.leaves ++ right.leaves

/-- The values joined at the nodes. -/
def pairs : DigestTree D → List (D × D)
  | .leaf _ => []
  | .node left right => (left.value node, right.value node) :: (left.pairs ++ right.pairs)

lemma levelUp_value (ts : List (DigestTree D)) :
    (levelUp DigestTree.node ts).map (value node) = levelUp node (ts.map (value node)) := by
  induction ts using levelUp.induct with
  | case1 l r rest ih =>
    simp only [levelUp, List.map_cons, ih]
    rfl
  | case2 level hlevel =>
    obtain rfl | ⟨t, rfl⟩ := pairless hlevel
    · rfl
    · rfl

lemma levelUp_leaves (ts : List (DigestTree D)) : (levelUp DigestTree.node ts).flatMap leaves = ts.flatMap leaves := by
  induction ts using levelUp.induct with
  | case1 l r rest ih =>
    simp only [levelUp, List.flatMap_cons, ih, leaves, List.append_assoc]
  | case2 level hlevel =>
    obtain rfl | ⟨t, rfl⟩ := pairless hlevel
    · rfl
    · rfl

lemma collapse_value (fuel : Nat) (ts : List (DigestTree D)) :
    (collapse DigestTree.node fuel ts).map (value node) = collapse node fuel (ts.map (value node)) := by
  induction fuel generalizing ts with
  | zero => rfl
  | succ fuel ih =>
    unfold collapse
    rw [List.length_map]
    split_ifs
    · rw [ih, levelUp_value]
    · rfl

lemma collapse_leaves (fuel : Nat) (ts : List (DigestTree D)) :
    (collapse DigestTree.node fuel ts).flatMap leaves = ts.flatMap leaves := by
  induction fuel generalizing ts with
  | zero => rfl
  | succ fuel ih =>
    unfold collapse
    split_ifs
    · rw [ih, levelUp_leaves]
    · rfl

lemma levelUp_pairs {ts : List (DigestTree D)} {x : D × D} (h : x ∈ (levelUp DigestTree.node ts).flatMap (pairs node)) :
    x ∈ ts.flatMap (pairs node) ∨ x ∈ levelPairs (ts.map (value node)) := by
  induction ts using levelUp.induct with
  | case1 l r rest ih =>
    rw [levelUp, List.flatMap_cons, List.mem_append, pairs, List.mem_cons, List.mem_append] at h
    rw [List.flatMap_cons, List.flatMap_cons, List.mem_append, List.mem_append, List.map_cons, List.map_cons, levelPairs,
      List.mem_cons]
    rcases h with (rfl | hl | hr) | hrest
    · exact .inr (.inl rfl)
    · exact .inl (.inl hl)
    · exact .inl (.inr (.inl hr))
    · exact (ih hrest).imp (fun hx => .inr (.inr hx)) fun hx => .inr hx
  | case2 level hlevel =>
    obtain rfl | ⟨t, rfl⟩ := pairless hlevel
    · exact .inl h
    · exact .inl h

lemma collapse_pairs {fuel : Nat} {ts : List (DigestTree D)} {x : D × D}
    (h : x ∈ (collapse DigestTree.node fuel ts).flatMap (pairs node)) :
    x ∈ ts.flatMap (pairs node) ∨ x ∈ treePairs node fuel (ts.map (value node)) := by
  induction fuel generalizing ts with
  | zero => exact .inl h
  | succ fuel ih =>
    unfold collapse at h
    unfold treePairs
    rw [List.length_map]
    split_ifs at h ⊢ with hwide
    · rw [List.mem_append]
      rcases ih h with hx | hx
      · exact (levelUp_pairs node hx).imp id .inl
      · rw [levelUp_value] at hx
        exact .inr (.inr hx)
    · exact .inl h

/-- The root over some leaves is the value of a tree that has exactly those leaves and joins the pairs hashed over
them. -/
theorem exists_of_rootOf_pairs {ds : List D} (h : ds ≠ []) :
    ∃ t : DigestTree D, t.leaves = ds ∧ rootOf node ds = some (t.value node) ∧
      ∀ x ∈ t.pairs node, x ∈ treePairs node ds.length ds := by
  have hvalues : (ds.map DigestTree.leaf).map (value node) = ds := by
    rw [List.map_map]
    exact List.map_id ds
  have hleaves : (ds.map DigestTree.leaf).flatMap leaves = ds := by
    rw [List.flatMap_map]
    exact List.flatMap_singleton' ds
  have hup := collapse_value node ds.length (ds.map DigestTree.leaf)
  have hall := collapse_leaves ds.length (ds.map DigestTree.leaf)
  have hshort := collapse_short DigestTree.node (show (ds.map DigestTree.leaf).length ≤ ds.length + 1 by simp)
  rw [hvalues] at hup
  rw [hleaves] at hall
  match hc : collapse DigestTree.node ds.length (ds.map DigestTree.leaf) with
  | [] =>
    rw [hc] at hall
    exact absurd hall.symm h
  | [t] =>
    rw [hc] at hall hup
    refine ⟨t, by simpa using hall, ?_, fun x hx => ?_⟩
    · rw [rootOf, ← hup]
      rfl
    · have hmem : x ∈ (collapse DigestTree.node ds.length (ds.map DigestTree.leaf)).flatMap (pairs node) := by
        rw [hc, List.flatMap_singleton]
        exact hx
      rcases collapse_pairs node hmem with hleaf | htree
      · rw [List.flatMap_map] at hleaf
        obtain ⟨d, -, hd⟩ := List.mem_flatMap.mp hleaf
        exact absurd hd List.not_mem_nil
      · rwa [hvalues] at htree
  | t :: t' :: rest =>
    rw [hc] at hshort
    exact absurd hshort (by simp)

/-- The root over some leaves is the value of a tree that has exactly those leaves. -/
theorem exists_of_rootOf {ds : List D} (h : ds ≠ []) :
    ∃ t : DigestTree D, t.leaves = ds ∧ rootOf node ds = some (t.value node) := by
  obtain ⟨t, hleaves, hroot, -⟩ := exists_of_rootOf_pairs node h
  exact ⟨t, hleaves, hroot⟩

/-- Where no leaf of one tree is the value of a node of the other, and their nodes do not collide, equal values are
those of equal trees. -/
theorem value_binds {t t' : DigestTree D}
    (hcol : ∀ x ∈ t.pairs node, ∀ y ∈ t'.pairs node, node x.1 x.2 = node y.1 y.2 → x = y)
    (hleaf : ∀ d ∈ t.leaves, ∀ y ∈ t'.pairs node, d ≠ node y.1 y.2)
    (hleaf' : ∀ d ∈ t'.leaves, ∀ x ∈ t.pairs node, d ≠ node x.1 x.2) (h : t.value node = t'.value node) : t = t' := by
  induction t generalizing t' with
  | leaf d =>
    cases t' with
    | leaf d' => rw [show d = d' from h]
    | node l r => exact absurd h (hleaf d (List.mem_singleton_self d) _ List.mem_cons_self)
  | node l r ihl ihr =>
    cases t' with
    | leaf d' => exact absurd h.symm (hleaf' d' (List.mem_singleton_self d') _ List.mem_cons_self)
    | node l' r' =>
      obtain ⟨hleft, hright⟩ := Prod.mk.inj (hcol _ List.mem_cons_self _ List.mem_cons_self h)
      have hin : ∀ {a b : DigestTree D} {x : D × D}, x ∈ a.pairs node → x ∈ (DigestTree.node a b).pairs node :=
        fun hx => List.mem_cons_of_mem _ (List.mem_append_left _ hx)
      have hin' : ∀ {a b : DigestTree D} {x : D × D}, x ∈ b.pairs node → x ∈ (DigestTree.node a b).pairs node :=
        fun hx => List.mem_cons_of_mem _ (List.mem_append_right _ hx)
      rw [ihl (fun x hx y hy => hcol x (hin hx) y (hin hy))
          (fun d hd y hy => hleaf d (List.mem_append_left _ hd) y (hin hy))
          (fun d hd x hx => hleaf' d (List.mem_append_left _ hd) x (hin hx)) hleft,
        ihr (fun x hx y hy => hcol x (hin' hx) y (hin' hy))
          (fun d hd y hy => hleaf d (List.mem_append_right _ hd) y (hin' hy))
          (fun d hd x hx => hleaf' d (List.mem_append_right _ hd) x (hin' hx)) hright]

/-- Where no leaf is the value of a node, and nodes over digests do not collide, the value of a tree
determines it, whatever its size. -/
theorem value_inj {P : D → Prop} (hnode : ∀ a b, P (node a b))
    (hinj : ∀ a b c d, P a → P b → P c → P d → node a b = node c d → a = c ∧ b = d) {t t' : DigestTree D}
    (ht : ∀ d ∈ t.leaves, P d ∧ ∀ a b, P a → P b → node a b ≠ d)
    (ht' : ∀ d ∈ t'.leaves, P d ∧ ∀ a b, P a → P b → node a b ≠ d)
    (h : t.value node = t'.value node) : t = t' := by
  have hvalue : ∀ u : DigestTree D, (∀ d ∈ u.leaves, P d ∧ ∀ a b, P a → P b → node a b ≠ d) → P (u.value node) := by
    intro u hu
    cases u with
    | leaf d => exact (hu d (List.mem_singleton_self d)).1
    | node l r => exact hnode _ _
  induction t generalizing t' with
  | leaf d =>
    cases t' with
    | leaf d' => rw [show d = d' from h]
    | node l r =>
      have hl := hvalue l fun d hd => ht' d (List.mem_append_left _ hd)
      have hr := hvalue r fun d hd => ht' d (List.mem_append_right _ hd)
      exact absurd h.symm ((ht d (List.mem_singleton_self d)).2 _ _ hl hr)
  | node l r ihl ihr =>
    have hl := hvalue l fun d hd => ht d (List.mem_append_left _ hd)
    have hr := hvalue r fun d hd => ht d (List.mem_append_right _ hd)
    cases t' with
    | leaf d' => exact absurd h ((ht' d' (List.mem_singleton_self d')).2 _ _ hl hr)
    | node l' r' =>
      have hl' := hvalue l' fun d hd => ht' d (List.mem_append_left _ hd)
      have hr' := hvalue r' fun d hd => ht' d (List.mem_append_right _ hd)
      obtain ⟨hleft, hright⟩ := hinj _ _ _ _ hl hr hl' hr' h
      rw [ihl (fun d hd => ht d (List.mem_append_left _ hd)) (fun d hd => ht' d (List.mem_append_left _ hd)) hleft,
        ihr (fun d hd => ht d (List.mem_append_right _ hd)) (fun d hd => ht' d (List.mem_append_right _ hd)) hright]

end DigestTree

end Peal.PromotedTree
