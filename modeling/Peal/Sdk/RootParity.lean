import Peal.Sdk.Anchor
import Peal.Coordinator.Layout
import Peal.Coordinator.Ordering
import Peal.Mempool.Contracts
import Peal.Actions.Inclusion
import Peal.Library.Rows

open Peal.Fallible Peal.PromotedTree Peal.Sha256
open Peal.Links (Text Bytes hexEncode hexDecode toLeBytes)
open Peal.Actions (parent)

/-! # The roots of four programs

The coordinator cuts a level into chunks, the two packages push onto a fresh level, the contract packs a level into the
array it is read from. -/

namespace Peal.Mempool

/-- `_merkleRoot`, with its one array. -/
def packedRoot (slots : List Slot) : Bytes :=
  if slots.length = 0 then sha256 []
  else (packLoop parent slots.length slots.length (slots.map leaf)).head?.getD zero32

lemma packedRoot_eq (slots : List Slot) : packedRoot slots = merkleRoot slots := by
  rw [packedRoot]
  split_ifs with hnone
  · rw [List.length_eq_zero_iff.mp hnone]
    rfl
  · have hne : slots.map leaf ≠ [] := fun h => hnone (by rw [List.map_eq_nil_iff.mp h]; rfl)
    have hroot := (loops_root parent (slots.map leaf)).2.2 hne
    rw [List.length_map] at hroot
    obtain ⟨t, -, htop⟩ := DigestTree.exists_of_rootOf parent hne
    have htop' : rootOf (fun l r => sha256 (l ++ r)) (slots.map leaf) = some (t.value parent) := htop
    rw [hroot, htop, merkleRoot, htop', Option.getD_some, Option.getD_some]

lemma le32_eq (x : Nat) : le32 x = toLeBytes 4 x := by
  simp only [le32, toLeBytes, Nat.div_div_eq_div_mul]
  rfl

end Peal.Mempool

namespace Peal.Actions

/-- `computeOrderingRoot`, with its loop. -/
def pushedOrderingRoot (slots : List CommittedSlot) : Except Error Text := do
  let level ← leaves slots
  let root ← expect (loopUp (pushUp parent) level.length level).head? .emptyBatch
  return toHex root

lemma pushedOrderingRoot_eq (slots : List CommittedSlot) : pushedOrderingRoot slots = computeOrderingRoot slots := by
  simp only [pushedOrderingRoot, computeOrderingRoot, (loops_root parent _).2.1]

/-- The slots of a batch whose entries are these intents and ciphertexts, numbered from zero, in any order. -/
def Reindexed (entries : List (Text × Text)) (slots : List CommittedSlot) : Prop :=
  ∃ isDummy : Nat → Bool, slots.Perm (entries.zipIdx.map fun e => ⟨e.2, e.1.1, e.1.2, isDummy e.2⟩)

lemma byPosition_reindexed {entries : List (Text × Text)} {slots : List CommittedSlot} {isDummy : Nat → Bool}
    (h : slots.Perm (entries.zipIdx.map fun e => ⟨e.2, e.1.1, e.1.2, isDummy e.2⟩)) :
    byPosition slots = entries.zipIdx.map fun e => ⟨e.2, e.1.1, e.1.2, isDummy e.2⟩ := by
  have hindices : (entries.zipIdx.map Prod.snd).Pairwise (· < ·) := by
    rw [List.zipIdx_map_snd]
    exact List.pairwise_lt_range'
  have hordered : (entries.zipIdx.map fun e =>
      (⟨e.2, e.1.1, e.1.2, isDummy e.2⟩ : CommittedSlot)).Pairwise fun a b => a.position < b.position := by
    rw [List.pairwise_map] at hindices ⊢
    exact hindices.imp fun hlt => Int.ofNat_lt.mpr hlt
  have hkeys : ((entries.zipIdx.map fun e =>
      (⟨e.2, e.1.1, e.1.2, isDummy e.2⟩ : CommittedSlot)).map CommittedSlot.position).Nodup :=
    List.pairwise_map.mpr (hordered.imp ne_of_lt)
  have hsort := Rows.insertionSort_perm (r := fun a b : CommittedSlot => a.position ≤ b.position) h.symm
    fun a ha b hb hab hba => List.inj_on_of_nodup_map hkeys ha hb (le_antisymm hab hba)
  rw [byPosition, ← hsort]
  exact (hordered.imp le_of_lt).insertionSort_eq

lemma fromHex_eq {s : Text} {raw : Bytes} (h : hexDecode s = some raw) : fromHex s = .ok raw := by
  unfold fromHex
  split
  · rename_i rest
    rw [hexDecode] at h
    cases h
  · rw [h]
    rfl

/-- The ordering root of a batch re-indexed from zero is the root over the leaves of its entries. -/
theorem computeOrderingRoot_reindexed {entries : List (Text × Text)} {slots : List CommittedSlot}
    (h : Reindexed entries slots) (hne : entries ≠ []) (hhex : ∀ e ∈ entries, ∃ raw, hexDecode e.2 = some raw) :
    computeOrderingRoot slots = .ok (Coordinator.rootOver entries) := by
  obtain ⟨isDummy, hperm⟩ := h
  have hleaf : ∀ e ∈ entries, orderingLeaf e.1 e.2 = .ok (Coordinator.orderingLeaf e.1 ((hexDecode e.2).getD [])) := by
    intro e he
    obtain ⟨raw, hraw⟩ := hhex e he
    rw [orderingLeaf, orderingBuffer, fromHex_eq hraw, hraw]
    rfl
  have hlevel : leaves slots =
      .ok (entries.map fun e => Coordinator.orderingLeaf e.1 ((hexDecode e.2).getD [])) := by
    simp only [leaves, byPosition_reindexed hperm, bind_eq_ok, requireDense_eq_ok]
    refine ⟨(), fun k s hk => ?_, mapM_eq_ok.mpr ?_⟩
    · rw [List.getElem?_map, List.getElem?_zipIdx] at hk
      obtain ⟨e, he, rfl⟩ := Option.map_eq_some_iff.mp hk
      obtain ⟨e', -, rfl⟩ := Option.map_eq_some_iff.mp he
      rfl
    · have hfst : entries.map (fun e => Coordinator.orderingLeaf e.1 ((hexDecode e.2).getD [])) =
          entries.zipIdx.map fun e => Coordinator.orderingLeaf e.1.1 ((hexDecode e.1.2).getD []) := by
        conv_lhs => rw [← List.zipIdx_map_fst 0 entries]
        rw [List.map_map]
        rfl
      rw [hfst, List.forall₂_map_left_iff, List.forall₂_map_right_iff, List.forall₂_same]
      exact fun e he => hleaf e.1 (List.fst_mem_of_mem_zipIdx he)
  have hleaves : entries.map (fun e => Coordinator.orderingLeaf e.1 ((hexDecode e.2).getD [])) ≠ [] :=
    mt List.map_eq_nil_iff.mp hne
  obtain ⟨t, -, htop⟩ := DigestTree.exists_of_rootOf parent hleaves
  simp only [computeOrderingRoot, bind_eq_ok, expect_eq_ok, pure_eq_ok]
  refine ⟨_, hlevel, _, htop, ?_⟩
  rw [Coordinator.rootOver, Coordinator.merkleRoot, htop, Option.getD_some, toHex]

end Peal.Actions

namespace Peal.Sdk
open Peal.Coordinator (Engine EngineConfig batchCts batchCommittee Batch Ciphertext)
open Peal.Actions (Reindexed)

variable {truth : List (Nat × Bytes)}

lemma computeRevealRoot_perm {slots : List RevealSlot} (hsorted : (truth.map Prod.fst).Pairwise (· < ·))
    (hu32 : ∀ slot ∈ truth, slot.1 < 2 ^ 32) (h : slots.Perm (truth.map RevealSlot.of)) :
    computeRevealRoot slots = hexEncode (anchoredRoot truth) := by
  have hkeys : ((truth.map RevealSlot.of).map RevealSlot.position).Nodup := by
    rw [List.map_map]
    rw [List.pairwise_map] at hsorted
    exact List.pairwise_map.mpr (hsorted.imp fun hlt heq => hlt.ne (Nat.cast_injective heq))
  have hsort : byPosition slots = byPosition (truth.map RevealSlot.of) :=
    (Rows.insertionSort_perm h.symm fun a ha b hb hab hba =>
      List.inj_on_of_nodup_map hkeys ha hb (le_antisymm hab hba)).symm
  rw [computeRevealRoot_eq, hsort, byPosition_of (hsorted.imp le_of_lt), anchoredRoot_eq hu32]

lemma packedRoot_contents {batch : List Mempool.Slot} (h : batch.map (fun s => (s.position, s.payload)) = truth) :
    Mempool.packedRoot batch = anchoredRoot truth := by
  have hleaves : batch.map Mempool.leaf = truth.map fun slot => Coordinator.revealLeaf slot.1 slot.2 := by
    rw [← h, List.map_map]
    refine List.map_congr_left fun s _ => ?_
    rw [Function.comp_apply, Mempool.leaf, Mempool.le32_eq, Coordinator.revealLeaf]
  rw [Mempool.packedRoot_eq, Mempool.merkleRoot, anchoredRoot, Coordinator.Merkle.root_eq, Coordinator.merkleRoot,
    hleaves]
  rfl

lemma anchoredRoot_length (truth : List (Nat × Bytes)) : (anchoredRoot truth).length = 32 := by
  obtain ⟨x, hx⟩ := @merkleRoot_digest (truth.map fun slot => Coordinator.revealLeaf slot.1 slot.2)
    fun d hd => (List.mem_map.mp hd).imp' (fun slot => toLeBytes 4 slot.1 ++ slot.2) fun _ hx => hx.2.symm
  rw [anchoredRoot, Coordinator.Merkle.root_eq, hx, sha256_length]

lemma recorded_root {s : Engine} (hs : Coordinator.Inv s) {batch : Batch} (hbatch : batch ∈ s.db.batches) :
    ∃ f k y, s.frozen batch.conditionId = some f ∧ batchCommittee s.db batch = some k ∧
      (f.batchEntries batch.batchIndex).map Prod.snd = (batchCts s.db batch k.b).map Ciphertext.ctHash ∧
      y ∈ s.db.batchCommitments ∧ y.batchId = batch.id ∧
      ∀ slots, Reindexed (f.batchEntries batch.batchIndex) slots →
        Actions.computeOrderingRoot slots = .ok y.orderingRoot := by
  obtain ⟨f, hf, hi, hid⟩ := hs.batch_frozen hbatch
  have h := hs.frozen _ f hf
  obtain ⟨row, k, hrow, -, hk, hb⟩ := h.condition
  have hcommittee : batchCommittee s.db batch = some k := by
    unfold batchCommittee
    rw [hrow, Option.bind_some, hk]
  have hhashes := hs.batchCts_hashes h rfl hi
  have hmem : f.commitment batch.conditionId batch.batchIndex ∈
      (List.range f.batches).map (f.commitment batch.conditionId) := List.mem_map_of_mem (List.mem_range.mpr hi)
  rw [← h.commitments] at hmem
  have hlen : (f.batchEntries batch.batchIndex).length = f.size := by
    have := Coordinator.leaves_length h hi
    rwa [Coordinator.Frozen.leaves, List.length_map] at this
  refine ⟨f, k, _, hf, hcommittee, by rw [hb, hhashes], List.mem_of_mem_filter hmem, hid.symm, fun slots hslots => ?_⟩
  refine Actions.computeOrderingRoot_reindexed hslots (fun hnil => ?_) fun e he => ?_
  · rw [hnil] at hlen
    exact absurd hlen.symm h.size.ne'
  · have hhash : e.2 ∈ f.hashes := List.mem_map_of_mem (List.mem_of_mem_drop (List.mem_of_mem_take he))
    obtain ⟨pos, hpos⟩ := h.held _ hhash
    obtain ⟨wire, hwire⟩ := hs.hashed _ hpos
    refine ⟨sha256 wire, ?_⟩
    rw [show e.2 = Coordinator.ctHash wire from hwire]
    exact Peal.Links.hexDecode_hexEncode (sha256_lt wire)

/-- The coordinator, the SDK and the contract compute one root over the slots of a reveal, and the coordinator and the
actions package one ordering root over every batch of a run. -/
theorem roots_agree :
    (∀ truth : List (Nat × Bytes), truth.map Prod.fst = List.range truth.length → truth.length < 2 ^ 32 →
        (anchoredRoot truth).length = 32 ∧
        (∀ slots, slots.Perm (truth.map RevealSlot.of) → computeRevealRoot slots = hexEncode (anchoredRoot truth)) ∧
        ∀ batch : List Mempool.Slot, batch.map (fun s => (s.position, s.payload)) = truth →
          Mempool.packedRoot batch = anchoredRoot truth) ∧
      ∀ (cfg : EngineConfig) (es : List Engine.Event), ∀ batch ∈ (Engine.reached cfg es).db.batches, ∃ f k y,
        (Engine.reached cfg es).frozen batch.conditionId = some f ∧
        batchCommittee (Engine.reached cfg es).db batch = some k ∧
        (f.batchEntries batch.batchIndex).map Prod.snd =
          (batchCts (Engine.reached cfg es).db batch k.b).map Ciphertext.ctHash ∧
        y ∈ (Engine.reached cfg es).db.batchCommitments ∧ y.batchId = batch.id ∧
        ∀ slots, Reindexed (f.batchEntries batch.batchIndex) slots →
          Actions.pushedOrderingRoot slots = .ok y.orderingRoot := by
  refine ⟨fun truth hpositions hlen => ?_, fun cfg es batch hbatch => ?_⟩
  · have hsorted : (truth.map Prod.fst).Pairwise (· < ·) := hpositions ▸ List.pairwise_lt_range
    have hu32 : ∀ slot ∈ truth, slot.1 < 2 ^ 32 := by
      intro slot hslot
      have hmem : slot.1 ∈ List.range truth.length := hpositions ▸ List.mem_map_of_mem hslot
      exact (List.mem_range.mp hmem).trans hlen
    exact ⟨anchoredRoot_length truth, fun slots h => computeRevealRoot_perm hsorted hu32 h,
      fun batch h => packedRoot_contents h⟩
  · obtain ⟨f, k, y, hf, hk, hhashes, hy, hid, hroot⟩ := recorded_root (Coordinator.inv_run cfg es) hbatch
    exact ⟨f, k, y, hf, hk, hhashes, hy, hid, fun slots h => (Actions.pushedOrderingRoot_eq slots).trans (hroot slots h)⟩

theorem roots_agree_sample :
    computeRevealRoot [RevealSlot.of (1, [8]), RevealSlot.of (0, [7])] = hexEncode (anchoredRoot [(0, [7]), (1, [8])]) ∧
      Mempool.packedRoot [⟨0, true, [7]⟩, ⟨1, false, [8]⟩] = anchoredRoot [(0, [7]), (1, [8])] := by
  obtain ⟨-, hsdk, hcontract⟩ := roots_agree.1 [(0, [7]), (1, [8])] rfl (by decide)
  exact ⟨hsdk _ (List.Perm.swap _ _ _), hcontract _ rfl⟩

end Peal.Sdk
