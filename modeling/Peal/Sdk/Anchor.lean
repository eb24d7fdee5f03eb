import Peal.Library.RootLoops
import Peal.Coordinator.SealProof

open Peal.Fallible Peal.PromotedTree Peal.Sha256
open Peal.Links (Text Bytes hexEncode toLeBytes)
open Peal.Actions (parent)

namespace Peal.Coordinator.Merkle

/-- The root over leaves in position order, levels in chunks of two. -/
def root (leaves : List Bytes) : Bytes :=
  if leaves = [] then sha256 [] else (loopUp (chunkUp parent) leaves.length leaves).head?.getD []

lemma root_eq (leaves : List Bytes) : root leaves = merkleRoot leaves := by
  rw [root, merkleRoot, (loops_root parent leaves).1]
  split_ifs with hnone
  · rw [hnone]
    rfl
  · obtain ⟨t, -, hroot⟩ := DigestTree.exists_of_rootOf parent hnone
    rw [hroot]
    rfl

end Peal.Coordinator.Merkle

namespace Peal.Sdk

/-! # The anchored root of a reveal, and the check of a served reveal against it -/

/-- A slot as it is served; its position is whatever number the response carries. -/
structure RevealSlot where
  position : ℚ
  payload : Bytes
  deriving DecidableEq

structure Reveal where
  merkleRoot : Text
  slots : List RevealSlot

/-- What `setUint32` stores of a number: its integer part, of which the low 32 bits. -/
def toUint32 (x : ℚ) : Nat := (x.num.tdiv x.den % 2 ^ 32).toNat

def byPosition (slots : List RevealSlot) : List RevealSlot := slots.insertionSort fun a b => a.position ≤ b.position

def leafBuffer (slot : RevealSlot) : Bytes := toLeBytes 4 (toUint32 slot.position) ++ slot.payload

def computeRevealRoot (slots : List RevealSlot) : Text :=
  let level := (byPosition slots).map fun slot => sha256 (leafBuffer slot)
  if level = [] then hexEncode (sha256 [])
  else hexEncode ((loopUp (pushUp parent) level.length level).head?.getD [])

structure VerifyAnchorResult where
  matches_ : Bool
  onchainRoot : Text
  recomputedRoot : Text
  coordinatorRoot : Text

inductive VerifyAnchorError where
  | notRevealed
  | ethCallFailed (message : Text)

structure RpcResponse where
  result : Option Text
  error : Option Text

def stripHex : Text → Text
  | '0' :: 'x' :: s => s
  | s => s

def padStart (width : Nat) (fill : Char) (s : Text) : Text := List.replicate (width - s.length) fill ++ s

def verifyAnchor (reveal : Option Reveal) (response : RpcResponse) :
    Except VerifyAnchorError VerifyAnchorResult := do
  let reveal ← expect reveal .notRevealed
  let recomputedRoot := computeRevealRoot reveal.slots
  if let some message := response.error then throw (.ethCallFailed message)
  let onchainRoot := padStart 64 '0' (stripHex (response.result.getD "0x".toList))
  return {
    matches_ := onchainRoot = recomputedRoot && recomputedRoot = reveal.merkleRoot
    onchainRoot := onchainRoot
    recomputedRoot := recomputedRoot
    coordinatorRoot := reveal.merkleRoot }

section Statement

/-- The root a reveal is stored and anchored with. -/
def anchoredRoot (truth : List (Nat × Bytes)) : Bytes :=
  Coordinator.Merkle.root (truth.map fun slot => Coordinator.revealLeaf slot.1 slot.2)

def reportsMatch (truth : List (Nat × Bytes)) (served : Reveal) : Bool :=
  match verifyAnchor (some served) ⟨some ("0x".toList ++ hexEncode (anchoredRoot truth)), none⟩ with
  | .ok v => v.matches_
  | .error _ => false

def RevealSlot.of (slot : Nat × Bytes) : RevealSlot := ⟨slot.1, slot.2⟩

/-- Everything hashed to compute a root over these buffers. -/
def hashedOver (buffers : List Bytes) : List Bytes :=
  if buffers = [] then [[]]
  else buffers ++ (treePairs parent buffers.length (buffers.map sha256)).map fun pair => pair.1 ++ pair.2

/-- No two different inputs among these have one hash. -/
def CollisionFree (inputs : List Bytes) : Prop := ∀ x ∈ inputs, ∀ y ∈ inputs, sha256 x = sha256 y → x = y

def hashed (slots : List RevealSlot) : List Bytes := hashedOver ((byPosition slots).map leafBuffer)

/-- Only the true list passes the check, short of a collision. -/
def Binds (truth : List (Nat × Bytes)) : Prop :=
  ∀ served, CollisionFree (hashed (truth.map RevealSlot.of) ++ hashed served.slots) →
    reportsMatch truth served = true → byPosition served.slots = truth.map RevealSlot.of

/-- A position that fits its four bytes, and a leaf that cannot be read as a node. -/
structure RevealSlot.Plain (slot : RevealSlot) : Prop where
  position : ∃ n : Nat, n < 2 ^ 32 ∧ slot.position = n
  payload : slot.payload.length ≠ 60

end Statement

section Proof

variable {truth : List (Nat × Bytes)} {served : Reveal} {slots : List RevealSlot} {buffers buffers' : List Bytes}

lemma CollisionFree.mono {inputs inputs' : List Bytes} (h : CollisionFree inputs) (hsub : inputs' ⊆ inputs) :
    CollisionFree inputs' := fun x hx y hy => h x (hsub hx) y (hsub hy)

/-! ### The roots that are computed -/

lemma computeRevealRoot_eq (slots : List RevealSlot) :
    computeRevealRoot slots =
      hexEncode (Coordinator.merkleRoot (((byPosition slots).map leafBuffer).map sha256)) := by
  rw [computeRevealRoot, Coordinator.merkleRoot, List.map_map]
  dsimp only [Function.comp_def]
  rw [(loops_root parent _).2.1]
  split_ifs with hnone
  · rw [hnone]
    rfl
  · obtain ⟨t, -, hroot⟩ := DigestTree.exists_of_rootOf parent hnone
    rw [hroot]
    rfl

lemma merkleRoot_digest {leaves : List Bytes} (h : ∀ d ∈ leaves, ∃ x, d = sha256 x) :
    ∃ x, Coordinator.merkleRoot leaves = sha256 x := by
  by_cases hnone : leaves = []
  · exact ⟨[], by rw [hnone]; rfl⟩
  · obtain ⟨t, hleaves, hroot⟩ := DigestTree.exists_of_rootOf parent hnone
    rw [Coordinator.merkleRoot, hroot, Option.getD_some]
    cases t with
    | leaf d => exact h d (hleaves ▸ List.mem_singleton_self d)
    | node l r => exact ⟨_, rfl⟩

lemma toUint32_natCast {n : Nat} (h : n < 2 ^ 32) : toUint32 n = n := by
  rw [toUint32, Rat.num_natCast, Rat.den_natCast, Nat.cast_one, Int.tdiv_one]
  omega

lemma leafBuffer_of {slot : Nat × Bytes} (h : slot.1 < 2 ^ 32) :
    leafBuffer (RevealSlot.of slot) = toLeBytes 4 slot.1 ++ slot.2 := by
  rw [leafBuffer, RevealSlot.of, toUint32_natCast h]

lemma anchoredRoot_eq (h : ∀ slot ∈ truth, slot.1 < 2 ^ 32) :
    anchoredRoot truth = Coordinator.merkleRoot (((truth.map RevealSlot.of).map leafBuffer).map sha256) := by
  rw [anchoredRoot, Coordinator.Merkle.root_eq, List.map_map, List.map_map]
  refine congrArg Coordinator.merkleRoot (List.map_congr_left fun slot hslot => ?_)
  rw [Function.comp_apply, Function.comp_apply, leafBuffer_of (h slot hslot), Coordinator.revealLeaf]

lemma byPosition_of (h : (truth.map Prod.fst).Pairwise (· ≤ ·)) :
    byPosition (truth.map RevealSlot.of) = truth.map RevealSlot.of := by
  refine List.Pairwise.insertionSort_eq ?_
  rw [List.pairwise_map] at h ⊢
  exact h.imp fun hle => Nat.cast_le.mpr hle

lemma padStart_hex {x : Bytes} (h : x.length = 32) :
    padStart 64 '0' (stripHex ("0x".toList ++ hexEncode x)) = hexEncode x := by
  have hlen : (hexEncode x).length = 64 := by
    simp [hexEncode, List.length_flatMap, h]
  change padStart 64 '0' (hexEncode x) = hexEncode x
  rw [padStart, hlen]
  rfl

lemma reportsMatch_iff (h : ∀ slot ∈ truth, slot.1 < 2 ^ 32) :
    reportsMatch truth served = true ↔
      hexEncode (anchoredRoot truth) = computeRevealRoot served.slots ∧
        computeRevealRoot served.slots = served.merkleRoot := by
  have hlen : (anchoredRoot truth).length = 32 := by
    obtain ⟨x, hx⟩ := @merkleRoot_digest (((truth.map RevealSlot.of).map leafBuffer).map sha256)
      fun d hd => (List.mem_map.mp hd).imp fun _ hx => hx.2.symm
    rw [anchoredRoot_eq h, hx, sha256_length]
  simp only [reportsMatch, verifyAnchor, expect, bind, Except.bind, pure, Except.pure, Option.getD_some,
    padStart_hex hlen, Bool.and_eq_true, decide_eq_true_eq]

/-! ### One root, one list of buffers -/

lemma pairs_length {t : DigestTree Bytes} (h : ∀ d ∈ t.leaves, d.length = 32) :
    ∀ x ∈ t.pairs parent, x.1.length = 32 ∧ x.2.length = 32 := by
  have hvalue : ∀ u : DigestTree Bytes, (∀ d ∈ u.leaves, d.length = 32) → (u.value parent).length = 32 := by
    intro u hu
    cases u with
    | leaf d => exact hu d (List.mem_singleton_self d)
    | node l r => exact sha256_length _
  induction t with
  | leaf d => exact fun x hx => absurd hx List.not_mem_nil
  | node l r ihl ihr =>
    have hl : ∀ d ∈ l.leaves, d.length = 32 := fun d hd => h d (List.mem_append_left _ hd)
    have hr : ∀ d ∈ r.leaves, d.length = 32 := fun d hd => h d (List.mem_append_right _ hd)
    intro x hx
    rw [DigestTree.pairs, List.mem_cons, List.mem_append] at hx
    rcases hx with rfl | hx | hx
    · exact ⟨hvalue l hl, hvalue r hr⟩
    · exact ihl hl x hx
    · exact ihr hr x hx

lemma exists_tree (h : buffers ≠ []) :
    ∃ t : DigestTree Bytes, t.leaves = buffers.map sha256 ∧
      Coordinator.merkleRoot (buffers.map sha256) = t.value parent ∧
      (∀ b ∈ buffers, b ∈ hashedOver buffers) ∧
      ∀ x ∈ t.pairs parent, x.1 ++ x.2 ∈ hashedOver buffers ∧ x.1.length = 32 ∧ x.2.length = 32 := by
  obtain ⟨t, hleaves, hroot, hpairs⟩ :=
    DigestTree.exists_of_rootOf_pairs parent (mt List.map_eq_nil_iff.mp h)
  have hdigests : ∀ d ∈ t.leaves, d.length = 32 := by
    intro d hd
    rw [hleaves] at hd
    obtain ⟨b, -, rfl⟩ := List.mem_map.mp hd
    exact sha256_length b
  refine ⟨t, hleaves, by rw [Coordinator.merkleRoot, hroot]; rfl, fun b hb => ?_, fun x hx => ⟨?_, ?_⟩⟩
  · rw [hashedOver, if_neg h]
    exact List.mem_append_left _ hb
  · have hin := hpairs x hx
    rw [List.length_map] at hin
    rw [hashedOver, if_neg h]
    exact List.mem_append_right _ (List.mem_map.mpr ⟨x, hin, rfl⟩)
  · exact pairs_length hdigests x hx

lemma map_sha256_inj {xs ys inputs : List Bytes} (hfree : CollisionFree inputs) (hx : xs ⊆ inputs) (hy : ys ⊆ inputs)
    (h : xs.map sha256 = ys.map sha256) : xs = ys := by
  induction xs generalizing ys with
  | nil => exact (List.map_eq_nil_iff.mp h.symm).symm
  | cons x xs ih =>
    obtain ⟨y, ys, rfl, hhead, htail⟩ := List.map_eq_cons_iff.mp h.symm
    have hxs := List.cons_subset.mp hx
    have hys := List.cons_subset.mp hy
    rw [hfree x hxs.1 y hys.1 hhead.symm, ih hxs.2 hys.2 htail.symm]

lemma root_ne_empty (hfree : CollisionFree ([] :: hashedOver buffers)) (h : buffers ≠ [])
    (hlong : ∀ b ∈ buffers, b ≠ []) : Coordinator.merkleRoot (buffers.map sha256) ≠ sha256 [] := by
  obtain ⟨t, hleaves, hroot, hbuffers, hpairs⟩ := exists_tree h
  intro heq
  rw [hroot] at heq
  cases t with
  | leaf d =>
    have hd : d ∈ buffers.map sha256 := hleaves ▸ List.mem_singleton_self d
    obtain ⟨b, hb, rfl⟩ := List.mem_map.mp hd
    exact hlong b hb (hfree b (List.mem_cons_of_mem _ (hbuffers b hb)) [] List.mem_cons_self heq)
  | node l r =>
    obtain ⟨hin, hlen, -⟩ := hpairs _ List.mem_cons_self
    have hnil := hfree _ (List.mem_cons_of_mem _ hin) [] List.mem_cons_self heq
    rw [(List.append_eq_nil_iff.mp hnil).1] at hlen
    cases hlen

/-- Where no buffer has the length of two digests, one root is that of one list. -/
theorem root_fixes_buffers (hfree : CollisionFree (hashedOver buffers ++ hashedOver buffers'))
    (hlong : ∀ b ∈ buffers, b ≠ [] ∧ b.length ≠ 64) (hlong' : ∀ b ∈ buffers', b ≠ [] ∧ b.length ≠ 64)
    (h : Coordinator.merkleRoot (buffers.map sha256) = Coordinator.merkleRoot (buffers'.map sha256)) :
    buffers = buffers' := by
  by_cases hnone : buffers = []
  · subst hnone
    by_contra hne
    exact root_ne_empty hfree (Ne.symm hne) (fun b hb => (hlong' b hb).1) h.symm
  by_cases hnone' : buffers' = []
  · subst hnone'
    refine absurd h (root_ne_empty (hfree.mono ?_) hnone fun b hb => (hlong b hb).1)
    exact List.cons_subset.mpr ⟨List.mem_append_right _ List.mem_cons_self, List.subset_append_left _ _⟩
  obtain ⟨t, hleaves, hroot, hbuffers, hpairs⟩ := exists_tree hnone
  obtain ⟨t', hleaves', hroot', hbuffers', hpairs'⟩ := exists_tree hnone'
  have hleft : ∀ {x}, x ∈ hashedOver buffers → x ∈ hashedOver buffers ++ hashedOver buffers' :=
    fun hx => List.mem_append_left _ hx
  have hright : ∀ {x}, x ∈ hashedOver buffers' → x ∈ hashedOver buffers ++ hashedOver buffers' :=
    fun hx => List.mem_append_right _ hx
  have hapart : ∀ {b : Bytes} {y : Bytes × Bytes}, b.length ≠ 64 → y.1.length = 32 → y.2.length = 32 →
      b ≠ y.1 ++ y.2 := by
    rintro b y hb h1 h2 rfl
    rw [List.length_append, h1, h2] at hb
    exact hb rfl
  have htree : t = t' := by
    refine DigestTree.value_binds parent (fun x hx y hy heq => ?_) (fun d hd y hy heq => ?_) (fun d hd x hx heq => ?_)
      (hroot.symm.trans (h.trans hroot'))
    · obtain ⟨hxin, hx1, -⟩ := hpairs x hx
      obtain ⟨hyin, hy1, -⟩ := hpairs' y hy
      obtain ⟨h1, h2⟩ := List.append_inj (hfree _ (hleft hxin) _ (hright hyin) heq) (hx1.trans hy1.symm)
      exact Prod.ext h1 h2
    · rw [hleaves] at hd
      obtain ⟨b, hb, rfl⟩ := List.mem_map.mp hd
      obtain ⟨hyin, hy1, hy2⟩ := hpairs' y hy
      exact hapart (hlong b hb).2 hy1 hy2 (hfree b (hleft (hbuffers b hb)) _ (hright hyin) heq)
    · rw [hleaves'] at hd
      obtain ⟨b, hb, rfl⟩ := List.mem_map.mp hd
      obtain ⟨hxin, hx1, hx2⟩ := hpairs x hx
      exact hapart (hlong' b hb).2 hx1 hx2 (hfree b (hright (hbuffers' b hb)) _ (hleft hxin) heq)
  rw [htree, hleaves'] at hleaves
  exact (map_sha256_inj hfree (fun b hb => hright (hbuffers' b hb)) (fun b hb => hleft (hbuffers b hb)) hleaves).symm

/-! ### What passes the check -/

lemma leafBuffer_ne_nil (slot : RevealSlot) : leafBuffer slot ≠ [] := by
  rw [leafBuffer, toLeBytes]
  exact List.cons_ne_nil _ _

lemma leafBuffer_length {slot : RevealSlot} (h : slot.payload.length ≠ 60) : (leafBuffer slot).length ≠ 64 := by
  rw [leafBuffer, List.length_append, Peal.Links.toLeBytes_length]
  omega

lemma leafBuffer_inj {slot slot' : RevealSlot} (h : slot.Plain) (h' : slot'.Plain)
    (heq : leafBuffer slot = leafBuffer slot') : slot = slot' := by
  obtain ⟨n, hn, hposition⟩ := h.position
  obtain ⟨n', hn', hposition'⟩ := h'.position
  rw [leafBuffer, leafBuffer, hposition, hposition', toUint32_natCast hn, toUint32_natCast hn'] at heq
  obtain ⟨hbytes, hpayload⟩ := List.append_inj heq (by rw [Peal.Links.toLeBytes_length, Peal.Links.toLeBytes_length])
  have hsame : n = n' := by
    have hread : Peal.Links.fromLeBytes (Peal.Links.toLeBytes 4 n) = n := Peal.Links.fromLeBytes_toLeBytes hn
    have hread' : Peal.Links.fromLeBytes (Peal.Links.toLeBytes 4 n') = n' := Peal.Links.fromLeBytes_toLeBytes hn'
    rw [← hread, hbytes, hread']
  obtain ⟨position, payload⟩ := slot
  obtain ⟨position', payload'⟩ := slot'
  dsimp only at hposition hposition' hpayload
  rw [hposition, hposition', hsame, hpayload]

lemma map_leafBuffer_inj {slots slots' : List RevealSlot} (h : ∀ slot ∈ slots, slot.Plain)
    (h' : ∀ slot ∈ slots', slot.Plain) (heq : slots.map leafBuffer = slots'.map leafBuffer) : slots = slots' := by
  induction slots generalizing slots' with
  | nil => exact (List.map_eq_nil_iff.mp heq.symm).symm
  | cons slot slots ih =>
    obtain ⟨slot', slots', rfl, hhead, htail⟩ := List.map_eq_cons_iff.mp heq.symm
    rw [leafBuffer_inj (h slot List.mem_cons_self) (h' slot' List.mem_cons_self) hhead.symm,
      ih (fun s hs => h s (List.mem_cons_of_mem _ hs)) (fun s hs => h' s (List.mem_cons_of_mem _ hs)) htail.symm]

lemma mem_byPosition {slot : RevealSlot} : slot ∈ byPosition slots ↔ slot ∈ slots := List.mem_insertionSort _

lemma root_of_match (hsorted : (truth.map Prod.fst).Pairwise (· ≤ ·)) (hu32 : ∀ slot ∈ truth, slot.1 < 2 ^ 32)
    (h : reportsMatch truth served = true) :
    Coordinator.merkleRoot (((byPosition served.slots).map leafBuffer).map sha256) =
      Coordinator.merkleRoot (((byPosition (truth.map RevealSlot.of)).map leafBuffer).map sha256) := by
  obtain ⟨hroot, -⟩ := (reportsMatch_iff hu32).mp h
  rw [anchoredRoot_eq hu32, computeRevealRoot_eq] at hroot
  rw [byPosition_of hsorted]
  have hbytes : ∀ bufs : List Bytes, ∀ b ∈ Coordinator.merkleRoot (bufs.map sha256), b < 256 := by
    intro bufs
    obtain ⟨x, hx⟩ := @merkleRoot_digest (bufs.map sha256)
      fun d hd => (List.mem_map.mp hd).imp fun _ hx => hx.2.symm
    rw [hx]
    exact sha256_lt x
  exact (Coordinator.hexEncode_inj (hbytes _) (hbytes _) hroot).symm

/-- The true list with every position moved up by what `setUint32` drops. -/
def shifted (truth : List (Nat × Bytes)) : List RevealSlot :=
  truth.map fun slot => RevealSlot.of (slot.1 + 2 ^ 32, slot.2)

lemma byPosition_shifted (hsorted : (truth.map Prod.fst).Pairwise (· ≤ ·)) :
    byPosition (shifted truth) = shifted truth := by
  have hmoved : ((truth.map fun slot => (slot.1 + 2 ^ 32, slot.2)).map Prod.fst).Pairwise (· ≤ ·) := by
    rw [List.map_map, List.pairwise_map]
    exact (List.pairwise_map.mp hsorted).imp fun hle => Nat.add_le_add_right hle _
  have hsame := byPosition_of hmoved
  rwa [List.map_map] at hsame

lemma leafBuffer_shifted (hu32 : ∀ slot ∈ truth, slot.1 < 2 ^ 32) :
    (shifted truth).map leafBuffer = (truth.map RevealSlot.of).map leafBuffer := by
  rw [shifted, List.map_map, List.map_map]
  refine List.map_congr_left fun slot hslot => ?_
  have hlow : toUint32 ((slot.1 + 2 ^ 32 : Nat) : ℚ) = slot.1 := by
    have := hu32 slot hslot
    rw [toUint32, Rat.num_natCast, Rat.den_natCast, Nat.cast_one, Int.tdiv_one]
    omega
  rw [Function.comp_apply, Function.comp_apply, leafBuffer_of (hu32 slot hslot)]
  change toLeBytes 4 (toUint32 ((slot.1 + 2 ^ 32 : Nat) : ℚ)) ++ slot.2 = _
  rw [hlow]

lemma shifted_matches (hsorted : (truth.map Prod.fst).Pairwise (· ≤ ·)) (hu32 : ∀ slot ∈ truth, slot.1 < 2 ^ 32) :
    reportsMatch truth ⟨computeRevealRoot (shifted truth), shifted truth⟩ = true := by
  refine (reportsMatch_iff hu32).mpr ⟨?_, rfl⟩
  rw [computeRevealRoot_eq, byPosition_shifted hsorted, leafBuffer_shifted hu32, anchoredRoot_eq hu32]

lemma hashed_truth (hsorted : (truth.map Prod.fst).Pairwise (· ≤ ·)) :
    hashed (truth.map RevealSlot.of) = hashedOver ((truth.map RevealSlot.of).map leafBuffer) := by
  rw [hashed, byPosition_of hsorted]

lemma binds_nil : Binds [] := by
  intro served hfree hmatch
  have hroot := @root_of_match [] _ List.Pairwise.nil (fun _ h => absurd h List.not_mem_nil) hmatch
  by_contra hne
  have hbuffers : (byPosition served.slots).map leafBuffer ≠ [] := mt List.map_eq_nil_iff.mp hne
  refine root_ne_empty hfree hbuffers (fun b hb => ?_) hroot
  obtain ⟨slot, -, rfl⟩ := List.mem_map.mp hb
  exact leafBuffer_ne_nil slot

/-- The check binds nothing but the empty list: positions are hashed modulo `2 ^ 32`, and a node reads as a leaf with
a payload of sixty bytes. Between lists that have neither it binds everything. -/
theorem anchor_binds_iff (hsorted : (truth.map Prod.fst).Pairwise (· ≤ ·)) (hu32 : ∀ slot ∈ truth, slot.1 < 2 ^ 32)
    (hfree : CollisionFree (hashed (truth.map RevealSlot.of))) :
    (Binds truth ↔ truth = []) ∧
      ((∀ slot ∈ truth, slot.2.length ≠ 60) → ∀ served, (∀ slot ∈ served.slots, slot.Plain) →
        CollisionFree (hashed (truth.map RevealSlot.of) ++ hashed served.slots) →
          reportsMatch truth served = true → byPosition served.slots = truth.map RevealSlot.of) := by
  constructor
  · constructor
    · intro hbinds
      have hsame : hashed (shifted truth) = hashed (truth.map RevealSlot.of) := by
        rw [hashed_truth hsorted, hashed, byPosition_shifted hsorted, leafBuffer_shifted hu32]
      have heq := hbinds ⟨_, shifted truth⟩ (hfree.mono (by rw [hsame]; simp)) (shifted_matches hsorted hu32)
      rw [byPosition_shifted hsorted] at heq
      cases truth with
      | nil => rfl
      | cons slot rest =>
        have hposition := congrArg RevealSlot.position (List.cons.inj heq).1
        have hnat : slot.1 + 2 ^ 32 = slot.1 := Nat.cast_injective hposition
        omega
    · rintro rfl
      exact binds_nil
  · intro htruth served hserved hfree hmatch
    have hplain : ∀ slot ∈ truth.map RevealSlot.of, slot.Plain := by
      intro slot hslot
      obtain ⟨s, hs, rfl⟩ := List.mem_map.mp hslot
      exact ⟨⟨s.1, hu32 s hs, rfl⟩, htruth s hs⟩
    have hlong : ∀ slots : List RevealSlot, (∀ slot ∈ slots, slot.Plain) →
        ∀ b ∈ (byPosition slots).map leafBuffer, b ≠ [] ∧ b.length ≠ 64 := by
      intro slots h b hb
      obtain ⟨slot, hslot, rfl⟩ := List.mem_map.mp hb
      exact ⟨leafBuffer_ne_nil slot, leafBuffer_length (h slot (mem_byPosition.mp hslot)).payload⟩
    have hbuffers := root_fixes_buffers hfree (hlong _ hplain) (hlong _ hserved)
      (root_of_match hsorted hu32 hmatch).symm
    rw [← byPosition_of hsorted]
    exact (map_leafBuffer_inj (fun slot hslot => hplain slot (mem_byPosition.mp hslot))
      (fun slot hslot => hserved slot (mem_byPosition.mp hslot)) hbuffers).symm

def sampleTruth : List (Nat × Bytes) := [(0, [7])]

lemma sampleTruth_free : CollisionFree (hashed (sampleTruth.map RevealSlot.of)) := by
  have hone : hashed (sampleTruth.map RevealSlot.of) = [[0, 0, 0, 0, 7]] := by decide +kernel
  intro x hx y hy _
  rw [hone] at hx hy
  rw [List.mem_singleton.mp hx, List.mem_singleton.mp hy]

theorem anchor_binds_sample : ¬Binds sampleTruth := by
  intro h
  have hall := (@anchor_binds_iff sampleTruth (by decide) (by decide) sampleTruth_free).1.mp h
  cases hall

/-- Two slots served as one: the second leaf hangs on the end of the first as a payload. -/
def merged : List RevealSlot :=
  let l := sha256 [0, 0, 0, 0, 7]
  let r := sha256 [1, 0, 0, 0, 8]
  [⟨Peal.Links.fromLeBytes (l.take 4), l.drop 4 ++ r⟩]

/-- A list with a slot moved and a list with two slots merged both pass for the true one. -/
theorem anchor_matches_others :
    (reportsMatch [(0, [7])] ⟨computeRevealRoot [⟨4294967296, [7]⟩], [⟨4294967296, [7]⟩]⟩ = true ∧
        byPosition [⟨4294967296, [7]⟩] ≠ [RevealSlot.of (0, [7])]) ∧
      reportsMatch [(0, [7]), (1, [8])] ⟨computeRevealRoot merged, merged⟩ = true ∧
        byPosition merged ≠ [RevealSlot.of (0, [7]), RevealSlot.of (1, [8])] := by
  refine ⟨⟨?_, ?_⟩, ?_, ?_⟩
  · decide +kernel
  · decide +kernel
  · decide +kernel
  · exact fun h => absurd (congrArg List.length h) (by decide +kernel)

end Proof

end Peal.Sdk
