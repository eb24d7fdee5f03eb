import Mathlib
import Peal.Actions.Commitment

namespace Peal.Actions
open Peal.Fallible Peal.PromotedTree Peal.Sha256
open Peal.Links (Text Bytes hexDecode hexEncode)

/-! # What an accepted inclusion proof says about a position

Neither check of a receipt compares the sides of the siblings with the position that the proof claims, so a
proof built for one slot can be presented for another. -/

def Sibling.decode (sib : Sibling) : Except Error (Bytes × Bool) := do
  let s ← fromHex sib.hash
  return (s, sib.right)

def decodeSiblings (siblings : List Sibling) : Except Error (List (Bytes × Bool)) := siblings.mapM Sibling.decode

def encodeSibling (s : Bytes × Bool) : Sibling := ⟨toHex s.1, s.2⟩

lemma levelSiblings_of_lt {idx i : Nat} (level : List Bytes) (h : idx < i) : levelSiblings idx i level = [] := by
  induction level using levelPairs.induct generalizing i with
  | case1 l r rest ih =>
    rw [levelSiblings, if_neg (by omega), if_neg (by omega), ih (by omega)]
    rfl
  | case2 level hlevel =>
    obtain rfl | ⟨d, rfl⟩ := pairless hlevel
    · rfl
    · rfl

lemma levelSiblings_eq (level : List Bytes) (idx i : Nat) (hidx : idx < level.length) :
    levelSiblings (i + idx) i level = (sibling level idx).toList.map encodeSibling := by
  induction level using levelPairs.induct generalizing idx i with
  | case1 l r rest ih =>
    rw [levelSiblings]
    rcases idx with _ | _ | idx
    · rw [if_pos (by omega), levelSiblings_of_lt rest (by omega)]
      rfl
    · rw [if_neg (by omega), if_pos (by omega), levelSiblings_of_lt rest (by omega)]
      rfl
    · have hrest : idx < rest.length := by simpa using hidx
      have hshift : i + (idx + 2) = i + 2 + idx := by omega
      rw [if_neg (by omega), if_neg (by omega), List.nil_append, hshift, ih idx (i + 2) hrest, sibling_add_two]
  | case2 level hlevel =>
    obtain rfl | ⟨d, rfl⟩ := pairless hlevel
    · exact absurd hidx (Nat.not_lt_zero _)
    · have hzero : idx = 0 := by simpa using hidx
      rw [hzero]
      rfl

lemma buildSiblings_eq {fuel : Nat} {level : List Bytes} {idx : Nat} (hidx : idx < level.length) :
    buildSiblings fuel level idx = (path parent fuel level idx).map encodeSibling := by
  induction fuel generalizing level idx with
  | zero => rfl
  | succ fuel ih =>
    unfold buildSiblings path
    by_cases hwide : 1 < level.length
    · have hhalf : idx / 2 < (levelUp parent level).length := by
        rw [levelUp_length]
        omega
      have hhere := levelSiblings_eq level idx 0 hidx
      rw [Nat.zero_add] at hhere
      rw [if_pos hwide, if_pos hwide, hhere, ih hhalf, List.map_append]
    · rw [if_neg hwide, if_neg hwide, List.map_nil]

lemma requireDense_eq_ok {i : Nat} {slots : List CommittedSlot} {u : Unit} :
    requireDense i slots = .ok u ↔ ∀ (k : Nat) (s : CommittedSlot), slots[k]? = some s → s.position = (i + k : Nat) := by
  induction slots generalizing i with
  | nil => simp [requireDense]
  | cons t rest ih =>
    simp only [requireDense, bind_eq_ok, require_eq_ok]
    constructor
    · rintro ⟨-, ht, hrest⟩ k s hk
      cases k with
      | zero =>
        obtain rfl := Option.some.inj hk
        exact ht
      | succ k =>
        rw [ih.mp hrest k s hk]
        congr 1
        omega
    · intro h
      refine ⟨(), h 0 t rfl, ih.mpr fun k s hk => ?_⟩
      rw [h (k + 1) s hk]
      congr 1
      omega

lemma orderingBuffer_eq_ok {id ct : Text} {buf : Bytes} :
    orderingBuffer id ct = .ok buf ↔ ∃ bytes, fromHex ct = .ok bytes ∧ utf8 id ++ 0 :: bytes = buf := by
  simp [orderingBuffer]

lemma orderingLeaf_eq_ok {id ct : Text} {leaf : Bytes} :
    orderingLeaf id ct = .ok leaf ↔ ∃ buf, orderingBuffer id ct = .ok buf ∧ sha256 buf = leaf := by
  simp [orderingLeaf]

lemma leaves_eq_ok {slots : List CommittedSlot} {level : List Bytes} (h : leaves slots = .ok level) :
    (∀ (k : Nat) (s : CommittedSlot), (byPosition slots)[k]? = some s → s.position = k) ∧
      List.Forall₂ (fun s leaf => orderingLeaf s.intentId s.ciphertextHash = .ok leaf) (byPosition slots) level := by
  simp only [leaves, bind_eq_ok, requireDense_eq_ok] at h
  obtain ⟨-, hdense, hlevel⟩ := h
  refine ⟨fun k s hk => ?_, mapM_eq_ok.mp hlevel⟩
  rw [hdense k s hk, Nat.zero_add]

lemma mem_byPosition {slots : List CommittedSlot} {s : CommittedSlot} : s ∈ byPosition slots ↔ s ∈ slots :=
  List.mem_insertionSort _

lemma leaves_length {slots : List CommittedSlot} {level : List Bytes} (h : leaves slots = .ok level) :
    level.length = slots.length := by
  rw [← (leaves_eq_ok h).2.length_eq]
  exact List.length_insertionSort _ slots

lemma leaf_at_position {slots : List CommittedSlot} {level : List Bytes} (h : leaves slots = .ok level)
    {s : CommittedSlot} (hs : s ∈ slots) :
    ∃ k leaf, s.position = (k : Nat) ∧ level[k]? = some leaf ∧
      orderingLeaf s.intentId s.ciphertextHash = .ok leaf := by
  obtain ⟨hdense, hall⟩ := leaves_eq_ok h
  obtain ⟨k, hk⟩ := List.mem_iff_getElem?.mp (mem_byPosition.mpr hs)
  have hlt := (List.getElem?_eq_some_iff.mp hk).1
  have hlt' : k < level.length := hall.length_eq ▸ hlt
  refine ⟨k, level[k], hdense k s hk, List.getElem?_eq_getElem hlt', ?_⟩
  have hget := hall.get hlt hlt'
  rw [List.getElem?_eq_getElem hlt] at hk
  rw [← Option.some.inj hk]
  exact hget

lemma slot_at_index {slots : List CommittedSlot} {level : List Bytes} (h : leaves slots = .ok level) {k : Nat}
    (hk : k < level.length) : ∃ s ∈ slots, s.position = (k : Nat) := by
  obtain ⟨hdense, hall⟩ := leaves_eq_ok h
  have hlt : k < (byPosition slots).length := hall.length_eq.symm ▸ hk
  exact ⟨(byPosition slots)[k], mem_byPosition.mp (List.getElem_mem hlt),
    hdense k _ (List.getElem?_eq_getElem hlt)⟩

lemma foldl_or_eq_zero (ns : List Nat) (acc : Nat) :
    ns.foldl (· ||| ·) acc = 0 ↔ acc = 0 ∧ ∀ n ∈ ns, n = 0 := by
  induction ns generalizing acc with
  | nil => simp
  | cons n ns ih =>
    rw [List.foldl_cons, ih, Nat.or_eq_zero_iff, List.forall_mem_cons, and_assoc]

lemma eq_of_xor_eq_zero {m n : Nat} (h : m ^^^ n = 0) : m = n :=
  calc m = (m ^^^ n) ^^^ n := by rw [Nat.xor_assoc, Nat.xor_self, Nat.xor_zero]
    _ = n := by rw [h, Nat.zero_xor]

lemma digestsEqual_iff {a b : Text} : digestsEqual a b = true ↔ a = b := by
  simp only [digestsEqual, Bool.and_eq_true, beq_iff_eq, foldl_or_eq_zero, true_and]
  constructor
  · rintro ⟨hlen, hall⟩
    apply List.ext_getElem hlen
    intro i hi hi'
    have hxor := hall (a[i].toNat ^^^ b[i].toNat)
      (List.mem_iff_getElem.mpr ⟨i, by simp [hi, hi'], by simp⟩)
    exact Char.toNat_inj.mp (eq_of_xor_eq_zero hxor)
  · rintro rfl
    refine ⟨rfl, fun n hn => ?_⟩
    rw [List.zipWith_self] at hn
    obtain ⟨ch, -, rfl⟩ := List.mem_map.mp hn
    exact Nat.xor_self _

lemma decode_eq_ok {sib : Sibling} {s : Bytes × Bool} :
    sib.decode = .ok s ↔ fromHex sib.hash = .ok s.1 ∧ sib.right = s.2 := by
  obtain ⟨bytes, side⟩ := s
  simp only [Sibling.decode, bind_eq_ok, pure_eq_ok, Prod.mk.injEq]
  constructor
  · rintro ⟨a, ha, rfl, hside⟩
    exact ⟨ha, hside⟩
  · rintro ⟨hbytes, hside⟩
    exact ⟨bytes, hbytes, rfl, hside⟩

lemma decodeSiblings_sides {siblings : List Sibling} {decoded : List (Bytes × Bool)}
    (h : decodeSiblings siblings = .ok decoded) : siblings.map Sibling.right = decoded.map Prod.snd := by
  have hall := mapM_eq_ok.mp h
  clear h
  induction hall with
  | nil => rfl
  | cons hs _ ih => rw [List.map_cons, List.map_cons, (decode_eq_ok.mp hs).2, ih]

lemma decodeSiblings_encode {decoded : List (Bytes × Bool)} (h : ∀ s ∈ decoded, ∀ x ∈ s.1, x < 256) :
    decodeSiblings (decoded.map encodeSibling) = .ok decoded := by
  apply mapM_eq_ok.mpr
  rw [List.forall₂_map_left_iff]
  exact List.forall₂_same.mpr fun s hs => decode_eq_ok.mpr ⟨fromHex_toHex (h s hs), rfl⟩

lemma climbSiblings_eq_ok {node top : Bytes} {siblings : List Sibling} :
    climbSiblings node siblings = .ok top ↔
      ∃ decoded, decodeSiblings siblings = .ok decoded ∧ climb parent node decoded = top := by
  induction siblings generalizing node with
  | nil =>
    constructor
    · intro h
      exact ⟨[], rfl, pure_eq_ok.mp h⟩
    · rintro ⟨decoded, hdecoded, rfl⟩
      obtain rfl : [] = decoded := pure_eq_ok.mp hdecoded
      rfl
  | cons sib siblings ih =>
    unfold climbSiblings at ih ⊢
    simp only [foldlM_cons_eq_ok, bind_eq_ok, pure_eq_ok, decodeSiblings, List.mapM_cons]
    constructor
    · rintro ⟨node', ⟨s, hs, rfl⟩, hrest⟩
      obtain ⟨decoded, hdecoded, htop⟩ := ih.mp hrest
      exact ⟨(s, sib.right) :: decoded, ⟨(s, sib.right), decode_eq_ok.mpr ⟨hs, rfl⟩, decoded, hdecoded, rfl⟩, htop⟩
    · rintro ⟨_, ⟨⟨s, side⟩, hs, decoded, hdecoded, rfl⟩, htop⟩
      obtain ⟨hhash, rfl⟩ := decode_eq_ok.mp hs
      exact ⟨_, ⟨s, hhash, rfl⟩, ih.mpr ⟨decoded, hdecoded, htop⟩⟩

/-- What acceptance says: the leaf and the decoded siblings climb to the root. -/
theorem verifyInclusion_iff {id ct root : Text} {proof : InclusionProof} :
    verifyInclusion id ct proof root = true ↔
      ∃ leaf decoded, orderingLeaf id ct = .ok leaf ∧ decodeSiblings proof.siblings = .ok decoded ∧
        toHex (climb parent leaf decoded) = root := by
  unfold verifyInclusion
  constructor
  · intro h
    dsimp only at h
    split at h
    case h_1 equal heq =>
      simp only [bind_eq_ok, pure_eq_ok, climbSiblings_eq_ok] at heq
      obtain ⟨leaf, hleaf, _, ⟨decoded, hdecoded, rfl⟩, rfl⟩ := heq
      exact ⟨leaf, decoded, hleaf, hdecoded, digestsEqual_iff.mp h⟩
    case h_2 => exact absurd h Bool.false_ne_true
  · rintro ⟨leaf, decoded, hleaf, hdecoded, rfl⟩
    have hclimb : climbSiblings leaf proof.siblings = .ok (climb parent leaf decoded) :=
      climbSiblings_eq_ok.mpr ⟨decoded, hdecoded, rfl⟩
    rw [hleaf]
    simp only [bind, Except.bind, hclimb, pure, Except.pure]
    exact digestsEqual_iff.mpr rfl

/-! ## Lengths of digests -/

/-- A level whose nodes are digests. -/
def Digests (level : List Bytes) : Prop := ∀ d ∈ level, d.length = 32 ∧ ∀ x ∈ d, x < 256

lemma parent_digest (l r : Bytes) : (parent l r).length = 32 ∧ ∀ x ∈ parent l r, x < 256 :=
  ⟨sha256_length _, sha256_lt _⟩

lemma digests_levelUp {level : List Bytes} (h : Digests level) : Digests (levelUp parent level) := by
  induction level using levelUp.induct with
  | case1 l r rest ih =>
    intro d hd
    rw [levelUp] at hd
    rcases List.mem_cons.mp hd with rfl | hrest
    · exact parent_digest l r
    · exact ih (fun e he => h e (List.mem_cons_of_mem _ (List.mem_cons_of_mem _ he))) d hrest
  | case2 level hlevel =>
    obtain rfl | ⟨d, rfl⟩ := pairless hlevel
    · exact h
    · exact h

lemma treePairs_length {fuel : Nat} {level : List Bytes} (hlevel : Digests level) {x : Bytes × Bytes}
    (h : x ∈ treePairs parent fuel level) : x.1.length = 32 ∧ x.2.length = 32 := by
  induction fuel generalizing level with
  | zero => exact absurd h List.not_mem_nil
  | succ fuel ih =>
    unfold treePairs at h
    by_cases hwide : 1 < level.length
    · rw [if_pos hwide] at h
      rcases List.mem_append.mp h with hhere | habove
      · obtain ⟨h1, h2⟩ := levelPairs_mem hhere
        exact ⟨(hlevel _ h1).1, (hlevel _ h2).1⟩
      · exact ih (digests_levelUp hlevel) habove
    · rw [if_neg hwide] at h
      exact absurd h List.not_mem_nil

lemma path_digests {fuel : Nat} {level : List Bytes} (hlevel : Digests level) {i : Nat} :
    ∀ s ∈ path parent fuel level i, s.1.length = 32 ∧ ∀ x ∈ s.1, x < 256 := by
  induction fuel generalizing level i with
  | zero => exact fun s hs => absurd hs List.not_mem_nil
  | succ fuel ih =>
    intro s hs
    unfold path at hs
    by_cases hwide : 1 < level.length
    · rw [if_pos hwide] at hs
      rcases List.mem_append.mp hs with hhere | habove
      · exact hlevel _ (sibling_mem (Option.mem_toList.mp hhere))
      · exact ih (digests_levelUp hlevel) s habove
    · rw [if_neg hwide] at hs
      exact absurd hs List.not_mem_nil

lemma climb_digest {leaf : Bytes} (hleaf : leaf.length = 32 ∧ ∀ x ∈ leaf, x < 256)
    {decoded : List (Bytes × Bool)} :
    (climb parent leaf decoded).length = 32 ∧ ∀ x ∈ climb parent leaf decoded, x < 256 := by
  induction decoded generalizing leaf with
  | nil => exact hleaf
  | cons s rest ih =>
    rw [climb_cons]
    exact ih (parent_digest _ _)

lemma climbPairs_length {leaf : Bytes} (hleaf : leaf.length = 32) {decoded : List (Bytes × Bool)}
    {y : Bytes × Bytes} (h : y ∈ climbPairs parent leaf decoded) : y.1.length = 32 ∨ y.2.length = 32 := by
  induction decoded generalizing leaf with
  | nil => exact absurd h List.not_mem_nil
  | cons s rest ih =>
    rcases List.mem_cons.mp h with rfl | hrest
    · unfold climbPair
      split_ifs
      · exact Or.inl hleaf
      · exact Or.inr hleaf
    · exact ih (parent_length _ _) hrest

lemma append_pair_inj {x y : Bytes × Bytes} (hx : x.1.length = 32 ∧ x.2.length = 32)
    (hy : y.1.length = 32 ∨ y.2.length = 32) (h : x.1 ++ x.2 = y.1 ++ y.2) : x = y := by
  rcases hy with hy | hy
  · obtain ⟨h1, h2⟩ := List.append_inj h (hx.1.trans hy.symm)
    exact Prod.ext h1 h2
  · obtain ⟨h1, h2⟩ := List.append_inj' h (hx.2.trans hy.symm)
    exact Prod.ext h1 h2

/-! ## What the executor's signature covers -/

lemma count_intercalate {x : Char} {lines : List Text} (h : lines ≠ []) :
    ([x].intercalate lines).count x + 1 = lines.length + (lines.map (List.count x)).sum := by
  induction lines with
  | nil => exact absurd rfl h
  | cons line rest ih =>
    cases rest with
    | nil => simp [List.intercalate, Nat.add_comm]
    | cons next rest =>
      have hrest := ih (List.cons_ne_nil _ _)
      rw [List.intercalate_cons_cons, List.count_append, List.count_append, List.count_singleton_self]
      simp only [List.map_cons, List.sum_cons, List.length_cons] at hrest ⊢
      omega

/-- As many texts joined by line breaks to the same text are the same texts, if those of one side have no
line break of their own. -/
theorem intercalate_inj {x : Char} {as bs : List Text} (hlen : as.length = bs.length) (hne : bs ≠ [])
    (hbs : ∀ b ∈ bs, x ∉ b) (h : [x].intercalate as = [x].intercalate bs) : as = bs := by
  have hne' : as ≠ [] := by
    intro has
    rw [has] at hlen
    exact hne (List.length_eq_zero_iff.mp hlen.symm)
  have hzero : (bs.map (List.count x)).sum = 0 := by
    apply List.sum_eq_zero
    intro n hn
    obtain ⟨b, hb, rfl⟩ := List.mem_map.mp hn
    exact List.count_eq_zero.mpr (hbs b hb)
  have hcount := count_intercalate (x := x) hne'
  rw [h, count_intercalate hne, hzero, hlen] at hcount
  have has : ∀ a ∈ as, x ∉ a := by
    intro a ha
    have hle := List.le_sum_of_mem (List.mem_map_of_mem (f := List.count x) ha)
    exact List.count_eq_zero.mp (by omega)
  rw [← List.splitOn_intercalate x has hne', h, List.splitOn_intercalate x hbs hne]

/-- A receipt that rebuilds a signed commitment has its root and size. -/
theorem commitmentPreimage_binds {c d : BatchCommitment} (hlines : ∀ line ∈ d.lines, '\n' ∉ line)
    (h : commitmentPreimage c = commitmentPreimage d) :
    c.orderingRoot = d.orderingRoot ∧ c.batchSize = d.batchSize := by
  have hsame : c.lines = d.lines := intercalate_inj rfl (List.cons_ne_nil _ _) hlines h
  simp only [BatchCommitment.lines, List.cons.injEq] at hsame
  obtain ⟨-, -, -, hroot, hsize, -⟩ := hsame
  exact ⟨hroot, Int.repr_injective (String.toList_inj.mp hsize)⟩

/-! ## The two guarantees of a committed batch -/

/-- Everything hashed to build the ordering root of a batch. -/
def batchBuffers (slots : List CommittedSlot) : List Bytes :=
  match leaves slots with
  | .ok level =>
    (slots.filterMap fun s => (orderingBuffer s.intentId s.ciphertextHash).toOption) ++
      (treePairs parent level.length level).map fun x => x.1 ++ x.2
  | .error _ => []

/-- Everything hashed to check the inclusion proof of a receipt. -/
def receiptBuffers (r : ExecutionReceipt) : List Bytes :=
  match orderingBuffer r.intentId r.ciphertextHash, decodeSiblings r.inclusionProof.siblings with
  | .ok buf, .ok decoded => buf :: (climbPairs parent (sha256 buf) decoded).map fun y => y.1 ++ y.2
  | _, _ => []

/-- The hash does not collide between a batch and a receipt. -/
def Injective (slots : List CommittedSlot) (r : ExecutionReceipt) : Prop :=
  ∀ a ∈ batchBuffers slots, ∀ b ∈ receiptBuffers r, sha256 a = sha256 b → a = b

/-- A commitment an executor signs for a batch; each of its lines is one line. -/
structure Commits (slots : List CommittedSlot) (c : BatchCommitment) : Prop where
  root : computeOrderingRoot slots = .ok c.orderingRoot
  size : c.batchSize = slots.length
  lines : ∀ line ∈ c.lines, '\n' ∉ line

/-- The slot at the receipt's position holds its pair, and its proof is the one built there. -/
structure ProvesPosition (slots : List CommittedSlot) (r : ExecutionReceipt) : Prop where
  slot : ∃ s ∈ slots, s.position = r.batchPosition ∧ s.intentId = r.intentId ∧
    fromHex s.ciphertextHash = fromHex r.ciphertextHash
  built : ∃ proof, buildInclusionProof slots r.batchPosition = .ok proof ∧
    decodeSiblings proof.siblings = decodeSiblings r.inclusionProof.siblings

def hashLength (ciphertextHash : Text) : Option Nat := (fromHex ciphertextHash).toOption.map List.length

/-- The sides of the siblings are those of the claimed position in a batch of the claimed size, and the
ciphertext hash is as long as that of the slot at the position. -/
structure PathOfPosition (slots : List CommittedSlot) (r : ExecutionReceipt) : Prop where
  inside : 0 ≤ r.batchPosition ∧ r.batchPosition < r.batchSize
  sides : r.inclusionProof.siblings.map Sibling.right =
    sides r.batchSize.toNat r.batchSize.toNat r.batchPosition.toNat
  length : ∀ s ∈ slots, s.position = r.batchPosition → hashLength s.ciphertextHash = hashLength r.ciphertextHash

section Guarantees

variable {slots : List CommittedSlot}

lemma leaves_digests {level : List Bytes} (h : leaves slots = .ok level) : Digests level := by
  have hall := (leaves_eq_ok h).2
  intro d hd
  obtain ⟨i, hi, rfl⟩ := List.mem_iff_getElem.mp hd
  obtain ⟨buf, -, hbuf⟩ := orderingLeaf_eq_ok.mp (hall.get (hall.length_eq ▸ hi) hi)
  have hget : level[i] = sha256 buf := hbuf.symm
  rw [hget]
  exact ⟨sha256_length _, sha256_lt _⟩

lemma computeOrderingRoot_eq_ok {root : Text} (h : computeOrderingRoot slots = .ok root) :
    ∃ level top, leaves slots = .ok level ∧ rootOf parent level = some top ∧ toHex top = root := by
  simpa [computeOrderingRoot] using h

/-- Every slot's built proof is accepted against the root of the batch. -/
theorem built_accepted {root : Text} (hroot : computeOrderingRoot slots = .ok root) {s : CommittedSlot}
    (hs : s ∈ slots) :
    ∃ proof, buildInclusionProof slots s.position = .ok proof ∧ proof.position = s.position ∧
      proof.batchSize = slots.length ∧ verifyInclusion s.intentId s.ciphertextHash proof root = true := by
  obtain ⟨level, top, hlevel, htop, rfl⟩ := computeOrderingRoot_eq_ok hroot
  obtain ⟨k, leaf, hk, hleaf, hordering⟩ := leaf_at_position hlevel hs
  have hlt : k < level.length := (List.getElem?_eq_some_iff.mp hleaf).1
  refine ⟨⟨s.position, level.length, buildSiblings level.length level k⟩, ?_, rfl, ?_, ?_⟩
  · have hinside : 0 ≤ s.position ∧ s.position < level.length := by omega
    have hnat : s.position.toNat = k := by omega
    simp only [buildInclusionProof, bind_eq_ok, require_eq_ok, pure_eq_ok]
    exact ⟨level, hlevel, (), hinside, by rw [hnat]⟩
  · rw [leaves_length hlevel]
  · have hdigits : ∀ x ∈ path parent level.length level k, ∀ b ∈ x.1, b < 256 :=
      fun x hx => (path_digests (leaves_digests hlevel) x hx).2
    have hclimb := climb_path parent (Nat.le_succ level.length) hleaf
    rw [collapse_of_rootOf parent htop] at hclimb
    apply verifyInclusion_iff.mpr
    refine ⟨leaf, path parent level.length level k, hordering, ?_, ?_⟩
    · rw [buildSiblings_eq hlt]
      exact decodeSiblings_encode hdigits
    · rw [← List.singleton_inj.mp hclimb]

lemma slot_unique {level : List Bytes} (h : leaves slots = .ok level) {s t : CommittedSlot} (hs : s ∈ slots)
    (ht : t ∈ slots) (hposition : s.position = t.position) : s = t := by
  have hdense := (leaves_eq_ok h).1
  obtain ⟨i, hi⟩ := List.mem_iff_getElem?.mp (mem_byPosition.mpr hs)
  obtain ⟨j, hj⟩ := List.mem_iff_getElem?.mp (mem_byPosition.mpr ht)
  have hij : i = j := by
    have hi' := hdense i s hi
    have hj' := hdense j t hj
    omega
  rw [hij, hj] at hi
  exact (Option.some.inj hi).symm

lemma buildInclusionProof_at {level : List Bytes} (h : leaves slots = .ok level) {k : Nat} (hk : k < level.length) :
    ∃ proof, buildInclusionProof slots k = .ok proof ∧
      decodeSiblings proof.siblings = .ok (path parent level.length level k) := by
  refine ⟨⟨k, level.length, buildSiblings level.length level k⟩, ?_, ?_⟩
  · simp only [buildInclusionProof, bind_eq_ok, require_eq_ok, pure_eq_ok]
    exact ⟨level, h, (), ⟨Int.natCast_nonneg k, Int.ofNat_lt.mpr hk⟩, rfl⟩
  · rw [buildSiblings_eq hk]
    exact decodeSiblings_encode fun x hx => (path_digests (leaves_digests h) x hx).2

variable {r : ExecutionReceipt}

lemma batchBuffers_of_leaves {level : List Bytes} (h : leaves slots = .ok level) :
    batchBuffers slots =
      (slots.filterMap fun s => (orderingBuffer s.intentId s.ciphertextHash).toOption) ++
        (treePairs parent level.length level).map fun x => x.1 ++ x.2 := by
  rw [batchBuffers, h]

lemma receiptBuffers_of_decoded {buf : Bytes} {decoded : List (Bytes × Bool)}
    (hbuf : orderingBuffer r.intentId r.ciphertextHash = .ok buf)
    (hdecoded : decodeSiblings r.inclusionProof.siblings = .ok decoded) :
    receiptBuffers r = buf :: (climbPairs parent (sha256 buf) decoded).map fun y => y.1 ++ y.2 := by
  rw [receiptBuffers, hbuf, hdecoded]

lemma provesPosition_of_path (hcol : Injective slots r) (hroot : computeOrderingRoot slots = .ok r.orderingRoot)
    (hsize : r.batchSize = slots.length)
    (haccept : verifyInclusion r.intentId r.ciphertextHash r.inclusionProof r.orderingRoot = true)
    (hpath : PathOfPosition slots r) : ProvesPosition slots r := by
  obtain ⟨level, top, hlevel, htop, hhex⟩ := computeOrderingRoot_eq_ok hroot
  obtain ⟨leaf, decoded, hleaf, hdecoded, hclimb⟩ := verifyInclusion_iff.mp haccept
  obtain ⟨buf, hbuf, rfl⟩ := orderingLeaf_eq_ok.mp hleaf
  obtain ⟨k, hk⟩ := Int.eq_ofNat_of_zero_le hpath.inside.1
  have hlen := leaves_length hlevel
  have hlt : k < level.length := by
    have := hpath.inside.2
    omega
  have hdigests := leaves_digests hlevel
  have hrec := receiptBuffers_of_decoded hbuf hdecoded
  have hbatch := batchBuffers_of_leaves hlevel
  -- the hashed pairs agree because their concatenations have the same hash and a common cut
  have hpairs : ∀ x ∈ treePairs parent level.length level, ∀ y ∈ climbPairs parent (sha256 buf) decoded,
      parent x.1 x.2 = parent y.1 y.2 → x = y := by
    intro x hx y hy hsame
    have hx' : x.1 ++ x.2 ∈ batchBuffers slots := by
      rw [hbatch]
      exact List.mem_append_right _ (List.mem_map_of_mem hx)
    have hy' : y.1 ++ y.2 ∈ receiptBuffers r := by
      rw [hrec]
      exact List.mem_cons_of_mem _ (List.mem_map_of_mem hy)
    exact append_pair_inj (treePairs_length hdigests hx) (climbPairs_length (sha256_length _) hy)
      (hcol _ hx' _ hy' hsame)
  have hsides : decoded.map Prod.snd = sides level.length level.length k := by
    rw [← decodeSiblings_sides hdecoded, hpath.sides, hsize, hk, hlen]
    rfl
  have hup : climb parent (sha256 buf) decoded = top := by
    have htopd : ∀ x ∈ top, x < 256 := by
      have hc := climb_path parent (Nat.le_succ level.length) (List.getElem?_eq_getElem hlt)
      rw [collapse_of_rootOf parent htop] at hc
      rw [List.singleton_inj.mp hc]
      exact (climb_digest (hdigests _ (List.getElem_mem hlt))).2
    exact toHex_injective (climb_digest ⟨sha256_length _, sha256_lt _⟩).2 htopd (hclimb.trans hhex.symm)
  obtain ⟨hat, hbuilt⟩ := climb_binds parent (Nat.le_succ level.length) hlt hsides hpairs
    (collapse_of_rootOf parent htop) hup
  obtain ⟨s, hs, hposition⟩ := slot_at_index hlevel hlt
  obtain ⟨j, leaf', hj, hleaf', hordering⟩ := leaf_at_position hlevel hs
  have hjk : j = k := by omega
  obtain ⟨buf', hbuf', hsame⟩ := orderingLeaf_eq_ok.mp hordering
  have hhash : sha256 buf' = sha256 buf := by
    rw [hjk, hat] at hleaf'
    rw [hsame, Option.some.inj hleaf']
  have hmem : buf' ∈ batchBuffers slots := by
    rw [hbatch]
    exact List.mem_append_left _ (List.mem_filterMap.mpr ⟨s, hs, by rw [hbuf']; rfl⟩)
  have hmem' : buf ∈ receiptBuffers r := by
    rw [hrec]
    exact List.mem_cons_self
  have hbufs : buf' = buf := hcol _ hmem _ hmem' hhash
  obtain ⟨ct', hct', hcat'⟩ := orderingBuffer_eq_ok.mp hbuf'
  obtain ⟨ct, hct, hcat⟩ := orderingBuffer_eq_ok.mp hbuf
  have hctlen : ct'.length = ct.length := by
    have := hpath.length s hs (hposition.trans hk.symm)
    simpa [hashLength, hct', hct, Except.toOption] using this
  obtain ⟨hid, hcts⟩ := List.append_inj' (hcat'.trans (hbufs.trans hcat.symm)) (by simp [hctlen])
  obtain ⟨proof, hproof, hdec⟩ := buildInclusionProof_at hlevel hlt
  constructor
  · refine ⟨s, hs, hposition.trans hk.symm, utf8_injective hid, ?_⟩
    rw [hct', hct, (List.cons.inj hcts).2]
  · refine ⟨proof, ?_, ?_⟩
    · rw [hk]
      exact hproof
    · rw [hdec, hdecoded, hbuilt]

lemma path_of_provesPosition (hroot : computeOrderingRoot slots = .ok r.orderingRoot)
    (hsize : r.batchSize = slots.length) (h : ProvesPosition slots r) : PathOfPosition slots r := by
  obtain ⟨level, top, hlevel, -, -⟩ := computeOrderingRoot_eq_ok hroot
  obtain ⟨s, hs, hposition, -, hct⟩ := h.slot
  obtain ⟨k, leaf, hk, hleaf, -⟩ := leaf_at_position hlevel hs
  have hlt : k < level.length := (List.getElem?_eq_some_iff.mp hleaf).1
  have hlen := leaves_length hlevel
  have hk' : r.batchPosition = k := hposition.symm.trans hk
  obtain ⟨proof, hproof, hsame⟩ := h.built
  obtain ⟨proof', hproof', hdec⟩ := buildInclusionProof_at hlevel hlt
  rw [hk', hproof'] at hproof
  rw [← Except.ok.inj hproof, hdec] at hsame
  constructor
  · omega
  · rw [decodeSiblings_sides hsame.symm, path_sides parent hlt, hsize, hk', hlen]
    rfl
  · intro t ht htp
    rw [slot_unique hlevel ht hs (htp.trans hposition.symm), hashLength, hashLength, hct]

/-- Built proofs are accepted at every position. An accepted proof is about the position its receipt claims
exactly when its sides are those of that position. -/
theorem inclusion_binds_position {c : BatchCommitment} (hc : Commits slots c) {conditionId : Text}
    (hsigned : commitmentPreimage (r.commitment conditionId) = commitmentPreimage c) (hcol : Injective slots r) :
    (∀ s ∈ slots, ∃ proof, buildInclusionProof slots s.position = .ok proof ∧ proof.position = s.position ∧
      proof.batchSize = slots.length ∧
      verifyInclusion s.intentId s.ciphertextHash proof c.orderingRoot = true) ∧
    ((∀ check ∈ inclusionChecks r, check.ok = true) → (ProvesPosition slots r ↔ PathOfPosition slots r)) := by
  obtain ⟨hroot, hsize⟩ := commitmentPreimage_binds hc.lines hsigned
  have hroot' : computeOrderingRoot slots = .ok r.orderingRoot := by
    rw [hc.root]
    exact congrArg _ hroot.symm
  have hsize' : r.batchSize = slots.length := hsize.trans hc.size
  refine ⟨fun s hs => built_accepted hc.root hs, fun hchecks => ⟨?_, ?_⟩⟩
  · exact path_of_provesPosition hroot' hsize'
  · apply provesPosition_of_path hcol hroot' hsize'
    exact hchecks _ List.mem_cons_self

end Guarantees

/-! ## A batch of two -/

def sampleSlots : List CommittedSlot :=
  [ { position := 0, intentId := "intent_0".toList, ciphertextHash := (List.replicate 32 ['0', '1']).flatten
      isDummy := false },
    { position := 1, intentId := "intent_1".toList, ciphertextHash := (List.replicate 32 ['0', '2']).flatten
      isDummy := false } ]

def sampleRoot : Text := (computeOrderingRoot sampleSlots).toOption.getD []

def sampleCommitment : BatchCommitment where
  batchId := "batch_1".toList
  conditionId := "cond_1".toList
  orderingRoot := sampleRoot
  batchSize := 2
  encryptionKeyId := (List.replicate 32 ['0', '3']).flatten
  committer := "0xAbC0000000000000000000000000000000000001".toList
  committedAt := 1700000000

/-- A receipt for the first slot, presented for a position. -/
def sampleReceipt (position : Int) : ExecutionReceipt where
  intentId := "intent_0".toList
  ciphertextHash := (List.replicate 32 ['0', '1']).flatten
  encryptionKeyId := sampleCommitment.encryptionKeyId
  batchId := sampleCommitment.batchId
  batchPosition := position
  batchSize := 2
  orderingRoot := sampleRoot
  inclusionProof :=
    { position := position
      batchSize := 2
      siblings := ((buildInclusionProof sampleSlots 0).toOption.map InclusionProof.siblings).getD [] }
  executorIdentity := sampleCommitment.committer
  commitmentTimestamp := sampleCommitment.committedAt

lemma sampleCommitment_commits : Commits sampleSlots sampleCommitment where
  root := by decide +kernel
  size := rfl
  lines := by decide +kernel

lemma sampleReceipt_signed (position : Int) :
    commitmentPreimage ((sampleReceipt position).commitment "cond_1".toList) = commitmentPreimage sampleCommitment :=
  rfl

instance (slots : List CommittedSlot) (r : ExecutionReceipt) : Decidable (Injective slots r) := by
  unfold Injective
  infer_instance

lemma sampleReceipt_injective {position : Int} (h : position ∈ [0, 1]) :
    Injective sampleSlots (sampleReceipt position) := by
  have hall : ∀ p ∈ [0, 1], Injective sampleSlots (sampleReceipt p) := by decide +kernel
  exact hall position h

/-- The proof of the first slot is accepted in a receipt that claims the second position. -/
theorem position_not_bound :
    ¬ ∀ (slots : List CommittedSlot) (c : BatchCommitment) (r : ExecutionReceipt) (conditionId : Text),
      Commits slots c → commitmentPreimage (r.commitment conditionId) = commitmentPreimage c → Injective slots r →
        (∀ check ∈ inclusionChecks r, check.ok = true) →
          ∃ s ∈ slots, s.position = r.batchPosition ∧ s.intentId = r.intentId := by
  intro hclaim
  have hchecks : ∀ check ∈ inclusionChecks (sampleReceipt 1), check.ok = true := by decide +kernel
  have hslot := hclaim sampleSlots sampleCommitment (sampleReceipt 1) _ sampleCommitment_commits
    (sampleReceipt_signed 1) (sampleReceipt_injective (by decide)) hchecks
  revert hslot
  decide +kernel

theorem inclusion_binds_position_sample :
    (∀ s ∈ sampleSlots, ∃ proof, buildInclusionProof sampleSlots s.position = .ok proof ∧
      proof.position = s.position ∧ proof.batchSize = sampleSlots.length ∧
      verifyInclusion s.intentId s.ciphertextHash proof sampleCommitment.orderingRoot = true) ∧
    ((∀ check ∈ inclusionChecks (sampleReceipt 0), check.ok = true) →
      (ProvesPosition sampleSlots (sampleReceipt 0) ↔ PathOfPosition sampleSlots (sampleReceipt 0))) :=
  inclusion_binds_position sampleCommitment_commits (sampleReceipt_signed 0) (sampleReceipt_injective (by decide))

end Peal.Actions
