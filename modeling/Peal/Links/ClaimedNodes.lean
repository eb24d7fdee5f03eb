import Peal.Links.Blocks
import Peal.Links.Wallet
import Peal.Library.PlainTree
import Peal.Library.Methods
import Peal.Library.Assoc

namespace Peal.Links
open Peal.Fallible Peal.AppendTree Peal.Methods

/-! # The claimed positions, as the nodes a wallet keeps of their tree -/

variable (c : Crypto)

/-- The nodes on claimed paths, by height and index. Every other node is the default of its height. -/
structure ClaimedNodes where
  depth : Nat
  nodes : List ((Nat × Nat) × Fr)
  defaults : List Fr
  deriving DecidableEq, Repr

def zeroDigests (depth : Nat) : List Fr := (List.range (depth + 1)).map (zeroDigest (treeNode c) 0)

namespace ClaimedNodes

/-- Fails where the code asserts that positions are 64-bit numbers. -/
def new (depth : Nat) : Option ClaimedNodes :=
  if depth ≤ 64 then some ⟨depth, [], zeroDigests c depth⟩ else none

def node (s : ClaimedNodes) (height index : Nat) : Fr :=
  (Assoc.get s.nodes (height, index)).getD (s.defaults.getD height 0)

def root (s : ClaimedNodes) : Fr := s.node s.depth 0

def contains (s : ClaimedNodes) (pid : Nat) : Bool := s.node 0 pid = 1

def checkPid (s : ClaimedNodes) (pid : Nat) : Except Error Unit :=
  require (¬(s.depth < 64 ∧ 2 ^ s.depth ≤ pid)) (.wallet s!"position {pid} exceeds the {s.depth}-bit position space")

def siblings (s : ClaimedNodes) (pid : Nat) : Except Error (List Fr) := do
  s.checkPid pid
  return (List.range s.depth).map fun h => s.node h ((pid / 2 ^ h) ^^^ 1)

def put (s : ClaimedNodes) (height index : Nat) (digest : Fr) : ClaimedNodes :=
  { s with nodes := Assoc.insert s.nodes (height, index) digest }

/-- One round of the loop over the siblings: the node over the last one and `sib`, a level up. -/
def raise (pid : Nat) (n : Fr × ClaimedNodes) (sib : Fr × Nat) : Fr × ClaimedNodes :=
  let index := pid / 2 ^ sib.2
  let up := if index % 2 = 1 then treeNode c sib.1 n.1 else treeNode c n.1 sib.1
  (up, n.2.put (sib.2 + 1) (index / 2) up)

def insert (pid : Nat) : Method Error ClaimedNodes SmtInsertion := do
  let s ← get
  lift (s.checkPid pid)
  lift (require (s.contains pid = false) (.wallet s!"position {pid} already claimed"))
  let oldRoot := s.root
  let siblings ← lift (s.siblings pid)
  modify fun s => s.put 0 pid 1
  modify fun s => (siblings.zipIdx.foldl (raise c pid) (1, s)).2
  let s ← get
  return ⟨oldRoot, s.root, pid, siblings⟩

/-- Insert position after position. -/
def insertAll (pids : List Nat) (s : ClaimedNodes) : List (Except Error SmtInsertion) × ClaimedNodes :=
  inTurn (pids.map (insert c)) s

end ClaimedNodes

/-- The leaves of the full sparse tree of a set of positions. -/
def claimedLeaf (claimed : List Nat) (index : Nat) : Fr := if index ∈ claimed then 1 else 0

variable {c}

lemma claimedLeaf_insert (claimed : List Nat) (pid : Nat) :
    claimedLeaf (claimed ++ [pid]) = Function.update (claimedLeaf claimed) pid 1 := by
  funext i
  unfold claimedLeaf
  by_cases hi : i = pid
  · subst hi
    simp
  · simp [hi]

namespace ClaimedNodes

/-- Every node is that of the full sparse tree. -/
structure Caches (c : Crypto) (s : ClaimedNodes) (claimed : List Nat) : Prop where
  depth : s.depth ≤ 64
  node : ∀ h ≤ s.depth, ∀ i, s.node h i = plainNode (treeNode c) (claimedLeaf claimed) h i

variable {s : ClaimedNodes} {claimed : List Nat}

@[simp] lemma put_depth (height index : Nat) (digest : Fr) : (s.put height index digest).depth = s.depth := rfl

lemma put_node (height index : Nat) (digest : Fr) (h i : Nat) :
    (s.put height index digest).node h i = if h = height ∧ i = index then digest else s.node h i := by
  unfold node put
  by_cases hkey : h = height ∧ i = index
  · obtain ⟨rfl, rfl⟩ := hkey
    rw [Assoc.get_insert_self, if_pos ⟨rfl, rfl⟩, Option.getD_some]
  · rw [Assoc.get_insert_of_ne (by simpa using hkey), if_neg hkey]

lemma Caches.contains (hs : Caches c s claimed) (pid : Nat) : s.contains pid = true ↔ pid ∈ claimed := by
  unfold ClaimedNodes.contains
  rw [hs.node 0 (Nat.zero_le _), plainNode_zero, decide_eq_true_eq]
  unfold claimedLeaf
  split <;> simp_all [Fr]

lemma new_caches {depth : Nat} (h : new c depth = some s) : Caches c s [] ∧ s.depth = depth := by
  unfold new at h
  split at h
  · next hdepth =>
    obtain rfl := Option.some.inj h
    refine ⟨⟨hdepth, ?_⟩, rfl⟩
    intro height hheight i
    have hleaf : claimedLeaf [] = fun _ => 0 := by
      funext j
      exact if_neg List.not_mem_nil
    rw [hleaf, plainNode_const]
    unfold node zeroDigests
    simp [Assoc.get, Nat.lt_succ_of_le hheight]
  · cases h

variable (c) in
/-- The loop over the siblings after its first `d` rounds. -/
def raisedTo (s : ClaimedNodes) (pid d : Nat) : Fr × ClaimedNodes :=
  ((List.range d).map fun h => (s.node h ((pid / 2 ^ h) ^^^ 1), h)).foldl (raise c pid) (1, s.put 0 pid 1)

lemma raisedTo_succ (pid d : Nat) :
    raisedTo c s pid (d + 1) = raise c pid (raisedTo c s pid d) (s.node d ((pid / 2 ^ d) ^^^ 1), d) := by
  unfold raisedTo
  rw [List.range_succ, List.map_append, List.foldl_append]
  rfl

lemma div_pow_succ (pid d : Nat) : pid / 2 ^ (d + 1) = pid / 2 ^ d / 2 := by
  rw [Nat.pow_succ, ← Nat.div_div_eq_div_mul]

lemma raisedTo_depth (pid d : Nat) : (raisedTo c s pid d).2.depth = s.depth := by
  induction d with
  | zero => rfl
  | succ d ih =>
    rw [raisedTo_succ]
    exact ih

lemma plainNode_off_path {pid h i : Nat} (hi : i ≠ pid / 2 ^ h) :
    plainNode (treeNode c) (claimedLeaf (claimed ++ [pid])) h i = plainNode (treeNode c) (claimedLeaf claimed) h i := by
  rw [claimedLeaf_insert]
  apply plainNode_congr
  rintro j rfl
  exact Function.update_of_ne (fun hj => hi (by rw [hj])) _ _

lemma raisedTo_digest (hs : Caches c s claimed) (pid : Nat) {d : Nat} (hd : d ≤ s.depth) :
    (raisedTo c s pid d).1 = plainNode (treeNode c) (claimedLeaf (claimed ++ [pid])) d (pid / 2 ^ d) := by
  induction d with
  | zero =>
    rw [plainNode_zero, claimedLeaf_insert, Nat.pow_zero, Nat.div_one, Function.update_self]
    rfl
  | succ d ih =>
    have hsibling := hs.node d (by omega) (pid / 2 ^ d ^^^ 1)
    rw [raisedTo_succ, div_pow_succ, plainNode_parent, ← ih (by omega), plainNode_off_path (xor_one_ne _),
      ← hsibling]
    rfl

lemma raisedTo_node (hs : Caches c s claimed) (pid : Nat) {d : Nat} (hd : d ≤ s.depth) {h : Nat}
    (hh : h ≤ s.depth) (i : Nat) :
    (raisedTo c s pid d).2.node h i =
      if h ≤ d then plainNode (treeNode c) (claimedLeaf (claimed ++ [pid])) h i else s.node h i := by
  -- a round changes one node of one level, and that level was the old set's until then
  have hround : ∀ {height : Nat}, height ≤ s.depth → ∀ t : ClaimedNodes, t.node h i = s.node h i ∨ h < height →
      (t.put height (pid / 2 ^ height) (plainNode (treeNode c) (claimedLeaf (claimed ++ [pid])) height
        (pid / 2 ^ height))).node h i =
      if h = height then plainNode (treeNode c) (claimedLeaf (claimed ++ [pid])) h i else t.node h i := by
    intro height hheight t hold
    rw [put_node]
    by_cases hlevel : h = height
    · subst hlevel
      rw [if_pos rfl]
      by_cases hi : i = pid / 2 ^ h
      · rw [if_pos ⟨rfl, hi⟩, hi]
      · rw [if_neg (fun hkey => hi hkey.2), hold.resolve_right (lt_irrefl _), hs.node h hh,
          plainNode_off_path hi]
    · rw [if_neg (fun hkey => hlevel hkey.1), if_neg hlevel]
  induction d with
  | zero =>
    have hleaf := raisedTo_digest hs pid (Nat.zero_le s.depth)
    have hfirst := hround (Nat.zero_le _) s (.inl rfl)
    rw [← hleaf, Nat.pow_zero, Nat.div_one] at hfirst
    simp only [Nat.le_zero]
    exact hfirst
  | succ d ih =>
    have hold := ih (by omega)
    have hdigest := raisedTo_digest hs pid hd
    have hnext := hround hd (raisedTo c s pid d).2 (by
      rw [hold]
      by_cases hreached : h ≤ d
      · exact .inr (by omega)
      · exact .inl (if_neg hreached))
    rw [← hdigest, hold] at hnext
    rw [raisedTo_succ] at hnext ⊢
    rw [div_pow_succ] at hnext
    refine Eq.trans hnext ?_
    by_cases hlast : h = d + 1
    · rw [if_pos hlast, if_pos (by omega)]
    · rw [if_neg hlast]
      by_cases hreached : h ≤ d
      · rw [if_pos hreached, if_pos (by omega)]
      · rw [if_neg hreached, if_neg (by omega)]

lemma checkPid_eq_ok {pid : Nat} {u : Unit} (hs : s.depth ≤ 64) (hpid : pid < 2 ^ 64) :
    s.checkPid pid = .ok u ↔ pid < 2 ^ s.depth := by
  unfold checkPid
  rw [require_eq_ok]
  rcases Nat.lt_or_ge s.depth 64 with hlt | hge
  · simp [hlt]
  · obtain hdepth : s.depth = 64 := by omega
    simpa [hdepth] using hpid

lemma checkPid_eq_error {pid : Nat} {e : Error} (h : s.checkPid pid = .error e) : 2 ^ s.depth ≤ pid := by
  unfold checkPid at h
  rw [require_eq_error, not_not] at h
  exact h.1.2

/-- What an insertion's witness says: with an empty leaf at its position the siblings lead to the old root,
with a set leaf the same siblings lead to the new one. -/
structure Witnesses (c : Crypto) (s s' : ClaimedNodes) (pid : Nat) (w : SmtInsertion) : Prop where
  position : w.pid = pid
  length : w.siblings.length = s.depth
  oldRoot : w.oldRoot = s.root
  newRoot : w.newRoot = s'.root
  before : rootFromPath c 0 ⟨w.siblings, indexBits s.depth pid⟩ = w.oldRoot
  after : rootFromPath c 1 ⟨w.siblings, indexBits s.depth pid⟩ = w.newRoot

lemma zipIdx_map_range {α : Type} (f : Nat → α) (d : Nat) :
    ((List.range d).map f).zipIdx = (List.range d).map fun h => (f h, h) := by
  rw [List.zipIdx_eq_zip_range', List.length_map, List.length_range, ← List.range_eq_range',
    ← List.map_id (List.range d), List.map_map, List.zip_map']
  simp

lemma Caches.siblings (hs : Caches c s claimed) (pid : Nat) :
    ((List.range s.depth).map fun h => s.node h ((pid / 2 ^ h) ^^^ 1)) =
      plainSiblings (treeNode c) (claimedLeaf claimed) s.depth pid := by
  apply List.map_congr_left
  intro h hh
  exact hs.node h (List.mem_range.mp hh).le _

lemma Caches.root (hs : Caches c s claimed) : s.root = plainRoot (treeNode c) s.depth (claimedLeaf claimed) := by
  rw [← plainNode_root]
  exact hs.node _ (le_refl _) 0

lemma Caches.raised (hs : Caches c s claimed) (pid : Nat) :
    Caches c (raisedTo c s pid s.depth).2 (claimed ++ [pid]) where
  depth := by
    rw [raisedTo_depth]
    exact hs.depth
  node := by
    intro h hh i
    rw [raisedTo_depth] at hh
    rw [raisedTo_node hs pid (le_refl _) hh, if_pos hh]

lemma insert_spec (hs : Caches c s claimed) {pid : Nat} (hpid : pid < 2 ^ 64) :
    Meets (insert c pid) s
      (fun w s' => pid < 2 ^ s.depth ∧ pid ∉ claimed ∧ Caches c s' (claimed ++ [pid]) ∧ s'.depth = s.depth ∧
        Witnesses c s s' pid w)
      (fun _ s' => s' = s ∧ (2 ^ s.depth ≤ pid ∨ pid ∈ claimed)) := by
  unfold insert siblings
  simp only [meets_bind, meets_get, meets_lift, meets_modify, meets_pure, require_eq_ok, require_eq_error,
    bind_eq_ok, bind_eq_error, pure_eq_ok, pure_eq_error, checkPid_eq_ok hs.depth hpid]
  refine ⟨fun _ hfits => ⟨fun _ hnew => ⟨?_, ?_⟩, ?_⟩, ?_⟩
  · rintro siblings ⟨-, -, rfl⟩
    have hclaimed : pid ∉ claimed := by
      rw [← hs.contains pid, hnew]
      exact Bool.false_ne_true
    have htop : pid / 2 ^ s.depth = 0 := Nat.div_eq_of_lt hfits
    rw [zipIdx_map_range]
    refine ⟨hfits, hclaimed, hs.raised pid, raisedTo_depth pid _, rfl, ?_, rfl, rfl, ?_, ?_⟩
    · rw [List.length_map, List.length_range]
    · have hempty : claimedLeaf claimed pid = 0 := if_neg hclaimed
      have hclimb : climb (treeNode c) _ _ = _ := climb_leaf (claimedLeaf claimed) pid s.depth
      rw [hempty, htop, plainNode_root, ← hs.root, ← hs.siblings] at hclimb
      exact hclimb
    · have hclimb : climb (treeNode c) _ _ = _ := climb_update (claimedLeaf claimed) pid 1 s.depth
      have hroot := (hs.raised pid).root
      rw [raisedTo_depth, claimedLeaf_insert] at hroot
      rw [htop, plainNode_root, ← hroot, ← hs.siblings] at hclimb
      exact hclimb
  · rintro e (he | ⟨-, -, hfalse⟩)
    · exact absurd (checkPid_eq_error he) (by omega)
    · exact hfalse.elim
  · rintro e ⟨hclaimed, -⟩
    exact ⟨trivial, .inr ((hs.contains pid).mp (by simpa using hclaimed))⟩
  · intro e he
    exact ⟨trivial, .inl (checkPid_eq_error he)⟩

/-- The positions a sequence of insertions took. -/
def taken (pids : List Nat) (results : List (Except Error SmtInsertion)) : List Nat :=
  (accepted pids results).map Prod.fst

lemma insertAll_caches (hs : Caches c s claimed) {pids : List Nat} (hpids : ∀ pid ∈ pids, pid < 2 ^ 64) :
    Caches c (insertAll c pids s).2 (claimed ++ taken pids (insertAll c pids s).1) ∧
      (insertAll c pids s).2.depth = s.depth ∧
      ∀ p, p ∈ claimed ++ taken pids (insertAll c pids s).1 ↔ p ∈ claimed ∨ p ∈ pids ∧ p < 2 ^ s.depth := by
  induction pids generalizing s claimed with
  | nil => exact ⟨by simpa [taken, accepted, insertAll] using hs, rfl, by simp [taken, accepted, insertAll]⟩
  | cons pid pids ih =>
    have hstep := meets_iff_outcome.mp (insert_spec hs (hpids pid List.mem_cons_self))
    have hrest : ∀ p ∈ pids, p < 2 ^ 64 := fun p hp => hpids p (List.mem_cons_of_mem pid hp)
    have hcons : insertAll c (pid :: pids) s =
        ((outcome (insert c pid) s).1 :: (insertAll c pids (outcome (insert c pid) s).2).1,
          (insertAll c pids (outcome (insert c pid) s).2).2) := rfl
    rw [hcons]
    cases hinsert : outcome (insert c pid) s with
    | mk result s' =>
      cases result with
      | ok w =>
        obtain ⟨hfits, -, hs', hdepth, -⟩ := hstep.1 w s' hinsert
        obtain ⟨hcaches, hkept, hmem⟩ := ih hs' hrest
        have htaken : claimed ++ taken (pid :: pids) (.ok w :: (insertAll c pids s').1) =
            claimed ++ [pid] ++ taken pids (insertAll c pids s').1 := by
          rw [List.append_assoc]
          rfl
        rw [htaken]
        refine ⟨hcaches, hkept.trans hdepth, ?_⟩
        intro p
        rw [hmem, hdepth, List.mem_append, List.mem_singleton, List.mem_cons]
        constructor
        · rintro ((hp | rfl) | hp)
          · exact .inl hp
          · exact .inr ⟨.inl rfl, hfits⟩
          · exact .inr ⟨.inr hp.1, hp.2⟩
        · rintro (hp | ⟨rfl | hp, hlt⟩)
          · exact .inl (.inl hp)
          · exact .inl (.inr rfl)
          · exact .inr ⟨hp, hlt⟩
      | error e =>
        obtain ⟨rfl, hrefused⟩ := hstep.2 e s' hinsert
        obtain ⟨hcaches, hkept, hmem⟩ := ih hs hrest
        refine ⟨hcaches, hkept, ?_⟩
        intro p
        have hskip : taken (pid :: pids) (.error e :: (insertAll c pids s').1) =
            taken pids (insertAll c pids s').1 := rfl
        rw [hskip, hmem, List.mem_cons]
        constructor
        · exact Or.imp_right (And.imp_left .inr)
        · rintro (hp | ⟨rfl | hp, hlt⟩)
          · exact .inl hp
          · exact .inl (hrefused.resolve_left (by omega))
          · exact .inr ⟨hp, hlt⟩

lemma claimedLeaf_congr {claimed claimed' : List Nat} (h : ∀ p, p ∈ claimed ↔ p ∈ claimed') :
    claimedLeaf claimed = claimedLeaf claimed' := by
  funext p
  unfold claimedLeaf
  exact if_congr (h p) rfl rfl

/-- Whatever positions are inserted in whatever order, the set is the full sparse tree of those it took, and
the next insertion's witness leads from its root to the next one. -/
theorem claimed_nodes_correct {depth : Nat} (hnew : new c depth = some s) {pids : List Nat}
    (hpids : ∀ pid ∈ pids, pid < 2 ^ 64) :
    let results := (insertAll c pids s).1
    let after := (insertAll c pids s).2
    (∀ p, p ∈ taken pids results ↔ p ∈ pids ∧ p < 2 ^ depth) ∧
      (∀ p, after.contains p = true ↔ p ∈ taken pids results) ∧
      after.root = plainRoot (treeNode c) depth (claimedLeaf (taken pids results)) ∧
      (∀ pids', (∀ pid ∈ pids', pid < 2 ^ 64) →
        (∀ p, p ∈ taken pids' (insertAll c pids' s).1 ↔ p ∈ taken pids results) →
        (insertAll c pids' s).2.root = after.root) ∧
      ∀ pid, pid < 2 ^ 64 → Meets (insert c pid) after
        (fun w s' => pid < 2 ^ depth ∧ after.contains pid = false ∧ Witnesses c after s' pid w)
        (fun _ s' => s' = after ∧ (2 ^ depth ≤ pid ∨ after.contains pid = true)) := by
  intro results after
  obtain ⟨hempty, rfl⟩ := new_caches hnew
  obtain ⟨hcaches, hdepth, hmem⟩ := insertAll_caches hempty hpids
  rw [List.nil_append] at hcaches hmem
  have hroot := hcaches.root
  rw [hdepth] at hroot
  refine ⟨?_, hcaches.contains, hroot, ?_, ?_⟩
  · intro p
    rw [hmem]
    simp
  · intro pids' hpids' hsame
    obtain ⟨hcaches', hdepth', -⟩ := insertAll_caches hempty hpids'
    rw [List.nil_append] at hcaches'
    rw [hcaches'.root, hdepth', claimedLeaf_congr hsame]
    exact hroot.symm
  · intro pid hpid
    apply (insert_spec hcaches hpid).mono
    · rintro w s' ⟨hfits, hunclaimed, -, -, hw⟩
      rw [hdepth] at hfits
      refine ⟨hfits, ?_, hw⟩
      rw [Bool.eq_false_iff, ne_eq, hcaches.contains]
      exact hunclaimed
    · rintro e s' ⟨hsame, hrefused⟩
      rw [hdepth] at hrefused
      exact ⟨hsame, hrefused.imp_right (hcaches.contains pid).mpr⟩

/-- Of four insertions two are refused, and the order of the others does not show. -/
theorem claimed_nodes_sample : ∃ s, new sampleCrypto 3 = some s ∧
    (insertAll sampleCrypto [5, 2, 5, 9] s).2.contains 5 = true ∧
    (insertAll sampleCrypto [2, 5] s).2.root = (insertAll sampleCrypto [5, 2, 5, 9] s).2.root ∧
    Meets (insert sampleCrypto 7) (insertAll sampleCrypto [5, 2, 5, 9] s).2
      (fun w s' => Witnesses sampleCrypto (insertAll sampleCrypto [5, 2, 5, 9] s).2 s' 7 w)
      (fun _ _ => False) := by
  have hnew : new sampleCrypto 3 = some ⟨3, [], zeroDigests sampleCrypto 3⟩ := rfl
  have hpids : ∀ pid ∈ [5, 2, 5, 9], pid < 2 ^ 64 := by decide
  have hfew : ∀ pid ∈ [2, 5], pid < 2 ^ 64 := by decide
  obtain ⟨htaken, hcontains, -, horder, hnext⟩ := claimed_nodes_correct hnew hpids
  have htaken' := (claimed_nodes_correct hnew hfew).1
  refine ⟨_, hnew, ?_, ?_, ?_⟩
  · rw [hcontains, htaken]
    decide
  · apply horder [2, 5] hfew
    intro p
    rw [htaken', htaken]
    constructor
    · rintro ⟨hp, hlt⟩
      simp only [List.mem_cons, List.not_mem_nil, or_false] at hp ⊢
      omega
    · rintro ⟨hp, hlt⟩
      simp only [List.mem_cons, List.not_mem_nil, or_false] at hp ⊢
      omega
  · apply (hnext 7 (by decide)).mono
    · rintro w s' ⟨-, -, hw⟩
      exact hw
    · rintro e s' ⟨-, hrefused⟩
      rw [hcontains, htaken] at hrefused
      revert hrefused
      decide

end ClaimedNodes

/-! ## The tree that the wallet's model computes -/

lemma ClaimedSet.node_eq (v : ClaimedSet) (h i : Nat) :
    v.node c h i = plainNode (treeNode c) (claimedLeaf v.positions) h i := by
  induction h generalizing i with
  | zero =>
    rw [plainNode_zero, ClaimedSet.node, ClaimedSet.contains, claimedLeaf]
    simp only [List.contains_iff_mem]
  | succ h ih => rw [ClaimedSet.node, ih, ih, plainNode_succ]

namespace ClaimedNodes

variable {s : ClaimedNodes} {v : ClaimedSet}

/-- An insertion into the kept nodes answers as one into the set of positions. -/
theorem insert_refines (hs : Caches c s v.positions) (hdepth : v.depth = s.depth) {pid : Nat} :
    Meets (insert c pid) s
      (fun w s' => ∃ v', v.insert c pid = .ok (v', w) ∧ Caches c s' v'.positions ∧ v'.depth = s'.depth)
      (fun e s' => s' = s ∧ v.insert c pid = .error e) := by
  have hcontains : v.contains pid = s.contains pid := by
    rw [Bool.eq_iff_iff, hs.contains, ClaimedSet.contains, List.contains_iff_mem]
  have hnode : ∀ h ≤ s.depth, ∀ i, v.node c h i = s.node h i := by
    intro h hh i
    rw [ClaimedSet.node_eq, hs.node h hh]
  unfold insert siblings ClaimedSet.insert
  simp only [meets_bind, meets_get, meets_lift, meets_modify, meets_pure, require_eq_ok, require_eq_error,
    bind_eq_ok, bind_eq_error, pure_eq_ok, pure_eq_error, hdepth, hcontains, checkPid]
  refine ⟨fun _ hfits => ⟨fun _ hnew => ⟨?_, ?_⟩, ?_⟩, ?_⟩
  · rintro siblings ⟨-, -, rfl⟩
    have hraised := hs.raised pid
    have hnext := hraised.root
    rw [raisedTo_depth] at hnext
    rw [zipIdx_map_range]
    refine ⟨⟨s.depth, v.positions ++ [pid]⟩, ⟨(), hfits, (), hnew, ?_⟩, hraised, (raisedTo_depth pid _).symm⟩
    congr 2
    · rw [ClaimedSet.root, hdepth, hnode _ (le_refl _)]
      rfl
    · rw [ClaimedSet.root, ClaimedSet.node_eq, plainNode_root]
      exact hnext.symm
    · apply List.map_congr_left
      intro h hh
      exact hnode h (List.mem_range.mp hh).le _
  · rintro e (⟨hrefused, -⟩ | ⟨-, -, hfalse⟩)
    · exact absurd hfits hrefused
    · exact hfalse.elim
  · rintro e ⟨hclaimed, rfl⟩
    exact ⟨trivial, .inr ⟨(), hfits, .inl ⟨hclaimed, rfl⟩⟩⟩
  · rintro e ⟨hrefused, rfl⟩
    exact ⟨trivial, .inl ⟨hrefused, rfl⟩⟩

end ClaimedNodes

end Peal.Links
