import Peal.Mempool.SealedOrders
import Peal.Library.SortedPairTree

namespace Peal.Mempool
open Peal.Fallible Peal.PromotedTree Peal.Runs Peal.Sha256 Peal.SortedPairTree

/-! # What the root of a batch commits to -/

section Scheme

variable (hash : Bytes → Bytes)

def leafWith (s : Slot) : Bytes := hash (le32 s.position ++ s.payload)

def rootWith (slots : List Slot) : Bytes :=
  (rootOf (fun l r => hash (l ++ r)) (slots.map (leafWith hash))).getD (hash [])

end Scheme

lemma merkleRoot_eq (slots : List Slot) : merkleRoot slots = rootWith sha256 slots := rfl

/-- A slot as a call can carry it. -/
structure Slot.Encodable (s : Slot) : Prop where
  position : s.position < 2 ^ 32
  payload : ∀ b ∈ s.payload, b < 256

/-- No other batch has the root of this one. -/
def BindsBatch (hash : Bytes → Bytes) (slots : List Slot) : Prop :=
  ∀ other, (∀ s ∈ other, s.Encodable) → rootWith hash other = rootWith hash slots → other = slots

def Slot.flipped (s : Slot) : Slot := { s with isReal := !s.isReal }

variable {hash : Bytes → Bytes} {slots other : List Slot}

lemma rootWith_contents (h : slots.map (fun s => (s.position, s.payload)) =
    other.map fun s => (s.position, s.payload)) : rootWith hash slots = rootWith hash other := by
  have hleaves : ∀ l : List Slot, l.map (leafWith hash) =
      (l.map fun s => (s.position, s.payload)).map fun c => hash (le32 c.1 ++ c.2) := by
    intro l
    rw [List.map_map]
    rfl
  unfold rootWith
  rw [hleaves slots, hleaves other, h]

lemma flipped_contents (slots : List Slot) :
    (slots.map Slot.flipped).map (fun s => (s.position, s.payload)) =
      slots.map fun s => (s.position, s.payload) := by
  rw [List.map_map]
  rfl

lemma rootWith_ne_empty (hinj : Function.Injective hash) (hlen : ∀ x, (hash x).length = 32)
    (h : slots ≠ []) : rootWith hash slots ≠ rootWith hash [] := by
  obtain ⟨t, hleaves, hroot⟩ :=
    DigestTree.exists_of_rootOf (fun l r => hash (l ++ r)) (mt List.map_eq_nil_iff.mp h)
  have hdigest : rootWith hash slots = t.value (fun l r => hash (l ++ r)) := by
    unfold rootWith
    rw [hroot]
    rfl
  have hlong : ∀ u : DigestTree Bytes, (∀ d ∈ u.leaves, d ∈ slots.map (leafWith hash)) →
      (u.value fun l r => hash (l ++ r)).length = 32 := by
    intro u hu
    cases u with
    | leaf d =>
      obtain ⟨s, -, rfl⟩ := List.mem_map.mp (hu d (List.mem_singleton_self d))
      exact hlen _
    | node l r => exact hlen _
  intro heq
  rw [hdigest] at heq
  cases t with
  | leaf d =>
    have hd : d ∈ slots.map (leafWith hash) := hleaves ▸ List.mem_singleton_self d
    obtain ⟨s, -, rfl⟩ := List.mem_map.mp hd
    exact absurd (hinj heq) (List.cons_ne_nil _ _)
  | node l r =>
    have hl := hlong l fun d hd => hleaves ▸ List.mem_append_left _ hd
    have hnil := congrArg List.length (hinj heq)
    rw [List.length_append, hl] at hnil
    simp at hnil

/-- A root commits to its batch exactly when the batch is empty: flipping which slots are orders leaves it as
it was. -/
theorem root_binds_iff (hinj : Function.Injective hash) (hlen : ∀ x, (hash x).length = 32)
    (hslots : ∀ s ∈ slots, s.Encodable) : BindsBatch hash slots ↔ slots = [] := by
  constructor
  · intro hbinds
    have hencodable : ∀ s ∈ slots.map Slot.flipped, s.Encodable := by
      intro s hs
      obtain ⟨x, hx, rfl⟩ := List.mem_map.mp hs
      exact ⟨(hslots x hx).position, (hslots x hx).payload⟩
    have hsame := hbinds (slots.map Slot.flipped) hencodable (rootWith_contents (flipped_contents slots))
    cases slots with
    | nil => rfl
    | cons s rest =>
      have hflag := congrArg Slot.isReal (List.cons.inj hsame).1
      exact absurd hflag (Bool.not_ne_self s.isReal)
  · rintro rfl other - hroot
    by_contra hne
    exact rootWith_ne_empty hinj hlen hne hroot

lemma le32_inj {x y : Nat} (hx : x < 2 ^ 32) (hy : y < 2 ^ 32) (h : le32 x = le32 y) : x = y := by
  unfold le32 at h
  simp only [List.cons.injEq, and_true] at h
  omega

lemma leafWith_inj (hinj : Function.Injective hash) {s s' : Slot} (hs : s.Encodable) (hs' : s'.Encodable)
    (h : leafWith hash s = leafWith hash s') : (s.position, s.payload) = (s'.position, s'.payload) := by
  obtain ⟨hposition, hpayload⟩ := List.append_inj (hinj h) rfl
  rw [le32_inj hs.position hs'.position hposition, hpayload]

lemma contents_of_leaves (hinj : Function.Injective hash) (hslots : ∀ s ∈ slots, s.Encodable)
    (hother : ∀ s ∈ other, s.Encodable) (h : slots.map (leafWith hash) = other.map (leafWith hash)) :
    slots.map (fun s => (s.position, s.payload)) = other.map fun s => (s.position, s.payload) := by
  induction slots generalizing other with
  | nil =>
    rw [List.map_eq_nil_iff.mp h.symm]
  | cons s slots ih =>
    obtain ⟨s', rest, rfl, hhead, htail⟩ := List.map_eq_cons_iff.mp h.symm
    have hcontents := leafWith_inj hinj (hslots s List.mem_cons_self) (hother s' List.mem_cons_self) hhead.symm
    have hrest := ih (fun x hx => hslots x (List.mem_cons_of_mem _ hx))
      (fun x hx => hother x (List.mem_cons_of_mem _ hx)) htail.symm
    rw [List.map_cons, List.map_cons, hcontents, hrest]

/-- Where no payload has the length that makes its leaf look like a node, the root does fix how many slots
there are, their positions and their payloads. -/
theorem root_fixes_contents (hinj : Function.Injective hash) (hlen : ∀ x, (hash x).length = 32)
    (hslots : ∀ s ∈ slots, s.Encodable ∧ s.payload.length ≠ 60)
    (hother : ∀ s ∈ other, s.Encodable ∧ s.payload.length ≠ 60) :
    rootWith hash slots = rootWith hash other ↔
      slots.map (fun s => (s.position, s.payload)) = other.map fun s => (s.position, s.payload) := by
  refine ⟨fun h => ?_, rootWith_contents⟩
  by_cases hnone : slots = []
  · by_cases hnone' : other = []
    · rw [hnone, hnone']
    · exact absurd (hnone ▸ h).symm (rootWith_ne_empty hinj hlen hnone')
  by_cases hnone' : other = []
  · exact absurd (hnone' ▸ h) (rootWith_ne_empty hinj hlen hnone)
  obtain ⟨t, hleaves, hroot⟩ :=
    DigestTree.exists_of_rootOf (fun l r => hash (l ++ r)) (mt List.map_eq_nil_iff.mp hnone)
  obtain ⟨t', hleaves', hroot'⟩ :=
    DigestTree.exists_of_rootOf (fun l r => hash (l ++ r)) (mt List.map_eq_nil_iff.mp hnone')
  unfold rootWith at h
  rw [hroot, hroot'] at h
  have hdigests : ∀ l : List Slot, (∀ s ∈ l, s.Encodable ∧ s.payload.length ≠ 60) →
      ∀ d ∈ l.map (leafWith hash), d.length = 32 ∧
        ∀ a b : Bytes, a.length = 32 → b.length = 32 → hash (a ++ b) ≠ d := by
    intro l hl d hd
    obtain ⟨s, hs, rfl⟩ := List.mem_map.mp hd
    refine ⟨hlen _, fun a b ha hb heq => (hl s hs).2 ?_⟩
    have hbytes := congrArg List.length (hinj heq)
    rw [List.length_append, List.length_append, ha, hb] at hbytes
    simp only [le32, List.length_cons, List.length_nil] at hbytes
    omega
  have htree : t = t' := by
    refine DigestTree.value_inj (fun l r => hash (l ++ r)) (P := fun d => d.length = 32) (fun _ _ => hlen _) ?_
      (hleaves ▸ hdigests slots hslots) (hleaves' ▸ hdigests other hother) h
    exact fun a b c d ha _ hc _ heq => List.append_inj (hinj heq) (ha.trans hc.symm)
  rw [htree, hleaves'] at hleaves
  exact contents_of_leaves hinj (fun s hs => (hslots s hs).1) (fun s hs => (hother s hs).1) hleaves.symm

/-! ### A batch with its order dropped -/

/-- A hash without collisions that gives the empty batch its real root. -/
def sampleHash (x : Bytes) : Bytes :=
  if x = [] then sha256 [] else (256 + pairingHash x) :: List.replicate 31 0

lemma sampleHash_injective : Function.Injective sampleHash := by
  have hne : ∀ x : Bytes, sha256 [] ≠ (256 + pairingHash x) :: List.replicate 31 0 := by
    intro x h
    have hlt := sha256_lt [] (256 + pairingHash x) (h ▸ List.mem_cons_self)
    omega
  intro x y h
  unfold sampleHash at h
  split_ifs at h with hx hy hy
  · rw [hx, hy]
  · exact absurd h (hne y)
  · exact absurd h.symm (hne x)
  · have hhead := (List.cons.inj h).1
    exact pairingHash_injective (by omega)

lemma sampleHash_length (x : Bytes) : (sampleHash x).length = 32 := by
  unfold sampleHash
  split_ifs
  · exact sha256_length []
  · simp

lemma sampleSlots_encodable : ∀ s ∈ sampleSlots, s.Encodable := by
  intro s hs
  rw [List.mem_singleton.mp hs]
  exact ⟨by decide, by decide +kernel⟩

theorem root_binds_sample : BindsBatch sampleHash [] ∧ ¬BindsBatch sampleHash sampleSlots :=
  ⟨(root_binds_iff sampleHash_injective sampleHash_length fun _ hs => absurd hs List.not_mem_nil).mpr rfl,
    fun h => absurd ((root_binds_iff sampleHash_injective sampleHash_length sampleSlots_encodable).mp h)
      (List.cons_ne_nil _ _)⟩

theorem root_fixes_contents_sample :
    rootWith sampleHash (sampleSlots ++ sampleSlots) ≠ rootWith sampleHash sampleSlots := by
  have hlong : ∀ s ∈ sampleSlots, s.Encodable ∧ s.payload.length ≠ 60 := fun s hs =>
    ⟨sampleSlots_encodable s hs, by rw [List.mem_singleton.mp hs]; decide +kernel⟩
  intro h
  have hsame := (root_fixes_contents sampleHash_injective sampleHash_length
    (fun s hs => hlong s ((List.mem_append.mp hs).elim id id)) hlong).mp h
  exact absurd (congrArg List.length hsame) (by decide)

def droppedSlots : List Slot := sampleSlots.map Slot.flipped

/-- The number of swaps after the coordinator settles some slots under the root of the sample order. -/
def swapsAfter (slots : List Slot) : Option Nat :=
  (executeBatch sampleDeployment sampleWorld 12 1 slots (merkleRoot sampleSlots)).toOption.map fun w => w.swaps.length

/-- Under every hash the batch without its order has the same root, and settles in its place. -/
theorem root_drops_order : (∀ hash, rootWith hash droppedSlots = rootWith hash sampleSlots) ∧
    droppedSlots ≠ sampleSlots ∧ swapsAfter sampleSlots = some 1 ∧ swapsAfter droppedSlots = some 0 :=
  ⟨fun _ => rfl, by decide, by decide +kernel, by decide +kernel⟩

end Peal.Mempool
