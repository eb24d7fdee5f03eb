import Peal.Coordinator.Freeze

namespace Peal.Coordinator
open Peal.Fallible Peal.Runs
open Peal.Links (hexEncode)

/-! # What a reveal publishes

A batch is marked finalized and its slots are stored in two statements; the reveal joins the batches with whatever
slots there are. -/

/-- What decrypting a ciphertext gives. -/
def OpensTo (decrypt : Bytes → Bool × Bytes) (blob : Bytes) (result : Bool × Bytes) : Prop := decrypt blob = result

/-- The reveal of a condition lists every frozen position once, with a good result for the ciphertext there. -/
structure RevealComplete (good : Bytes → Bool × Bytes → Prop) (db : Database) (c : Text) (r : Reveal) : Prop where
  positions : ∃ total, r.payloadsBlob.map RevealSlot.position = List.range total ∧
    ∀ p, p < total ↔ ∃ x ∈ db.ciphertexts, x.conditionId = c ∧ x.position = some p
  payloads : ∀ slot ∈ r.payloadsBlob, ∃ x ∈ db.ciphertexts, x.conditionId = c ∧ x.position = some slot.position ∧
    x.ctHash = slot.ctHash ∧ x.isDummy = slot.isDummy ∧ good x.sealedBlob (slot.valid, slot.payload)
  root : r.merkleRoot = hexEncode (merkleRoot (r.payloadsBlob.map fun slot => revealLeaf slot.position slot.payload))

namespace Engine

/-- Every revealed condition has a complete reveal. -/
def Revealed (good : Bytes → Bool × Bytes → Prop) (s : Engine) : Prop :=
  ∀ c row, s.db.conditions c = some row → row.status = .revealed →
    ∃ r, s.db.reveals c = some r ∧ RevealComplete good s.db c r

/-- The cryptography recovers from a batch what decrypting each of its ciphertexts gives. -/
def Opens (decrypt : Bytes → Bool × Bytes) (s : Engine) : Event → Prop
  | .finalizeBatch batchId recovered _ => ∀ batch ∈ s.db.batches, batch.id = batchId →
      ∀ k ∈ batchCommittee s.db batch, recovered = (batchCts s.db batch k.b).map fun x => decrypt x.sealedBlob
  | _ => True

/-- When a reveal is built, all batches being marked finalized, each of them has its slots. -/
def SlotsStored (s : Engine) : Event → Prop
  | .buildReveal c _ => s.freezing = none →
      ∀ row ∈ s.db.conditions c, row.status = .frozen ∨ row.status = .stalled →
        (∀ x ∈ s.db.batches, x.conditionId = c → x.finalizedAt ≠ none) →
          ∀ x ∈ s.db.batches, x.conditionId = c → s.db.batchSlots x.id ≠ none
  | _ => True

end Engine

/-! ### The ciphertexts of a batch -/

section Batch

variable {s : Engine} {c : Text} {f : Frozen}

lemma eq_range'_of_sorted {l : List Nat} (hsorted : l.Pairwise (· ≤ ·)) (hnodup : l.Nodup) {a n : Nat}
    (hmem : ∀ x, x ∈ l ↔ a ≤ x ∧ x < a + n) : l = List.range' a n := by
  have hperm : l.Perm (List.range' a n) := by
    refine (List.perm_ext_iff_of_nodup hnodup List.nodup_range').mpr fun x => ?_
    rw [hmem, List.mem_range'_1]
  have hrange : (List.range' a n).Pairwise (· ≤ ·) := List.pairwise_le_range'
  exact hperm.eq_of_pairwise' hsorted hrange

lemma range'_getElem? {α : Type} {l : List α} {a n : Nat} (h : a + n ≤ l.length) :
    (List.range' a n).map (fun p => l[p]?) = ((l.drop a).take n).map some := by
  apply List.ext_getElem (by simp; omega)
  intro i hi _
  rw [List.length_map, List.length_range'] at hi
  simp [List.getElem?_eq_getElem (show a + i < l.length by omega)]

lemma mem_batchCts {db : Database} {batch : Batch} {b : Nat} {x : Ciphertext} :
    x ∈ batchCts db batch b ↔ x ∈ db.ciphertexts ∧ x.conditionId = batch.conditionId ∧
      ∃ p, x.position = some p ∧ batch.batchIndex * b ≤ p ∧ p < batch.batchIndex * b + b := by
  rw [batchCts, List.mem_insertionSort, List.mem_filter, Database.rowsOf, List.mem_filter]
  simp [Option.any_eq_true, and_assoc]

lemma FrozenAs.batch_room {db : Database} (h : FrozenAs db c f) {i : Nat} (hi : i < f.batches) :
    i * f.size + f.size ≤ f.entries.length := by
  rw [h.full, ← Nat.succ_mul]
  exact Nat.mul_le_mul_right _ hi

lemma Inv.batchCts_positions (hs : Inv s) (h : FrozenAs s.db c f) {batch : Batch} (hc : batch.conditionId = c)
    (hi : batch.batchIndex < f.batches) :
    (batchCts s.db batch f.size).map Ciphertext.position =
      (List.range' (batch.batchIndex * f.size) f.size).map some := by
  let at_ : Ciphertext → Nat := fun x => x.position.getD 0
  have hroom := h.batch_room hi
  have hpositions : (batchCts s.db batch f.size).map at_ = List.range' (batch.batchIndex * f.size) f.size := by
    refine eq_range'_of_sorted ?_ ?_ fun p => ?_
    · rw [batchCts, List.map_insertionSort _ (· ≤ ·) at_ _ fun a _ b _ => Iff.rfl]
      exact List.pairwise_insertionSort _ _
    · refine List.Nodup.map_on (fun x hx y hy hxy => ?_) ?_
      · obtain ⟨hx', hxc, p, hxp, -⟩ := mem_batchCts.mp hx
        obtain ⟨hy', hyc, q, hyq, -⟩ := mem_batchCts.mp hy
        have hpq : p = q := by simpa [at_, hxp, hyq] using hxy
        have hash := (h.position_iff hx' (hxc.trans hc)).mp hxp
        rw [hpq, (h.position_iff hy' (hyc.trans hc)).mp hyq] at hash
        exact hs.row_unique hx' hy' (Option.some.inj hash).symm
      · rw [batchCts, (List.perm_insertionSort _ _).nodup_iff]
        exact (hs.rows_nodup.filter _).filter _
    · rw [List.mem_map]
      constructor
      · rintro ⟨x, hx, rfl⟩
        obtain ⟨-, -, p, hp, hrange⟩ := mem_batchCts.mp hx
        simpa [at_, hp] using hrange
      · intro hp
        obtain ⟨x, hx, hxc, hpos⟩ := (h.position_lt p).mp (by omega)
        exact ⟨x, mem_batchCts.mpr ⟨hx, hxc.trans hc.symm, p, hpos, hp⟩, by simp [at_, hpos]⟩
  rw [← hpositions, List.map_map]
  apply List.map_congr_left
  intro x hx
  obtain ⟨-, -, p, hp, -⟩ := mem_batchCts.mp hx
  simp [at_, hp]

lemma Inv.batchCts_hashes (hs : Inv s) (h : FrozenAs s.db c f) {batch : Batch} (hc : batch.conditionId = c)
    (hi : batch.batchIndex < f.batches) :
    (batchCts s.db batch f.size).map Ciphertext.ctHash = (f.batchEntries batch.batchIndex).map Prod.snd := by
  have hhash : (batchCts s.db batch f.size).map (fun x => some x.ctHash) =
      ((batchCts s.db batch f.size).map Ciphertext.position).map fun pos => pos.bind fun p => f.hashes[p]? := by
    rw [List.map_map]
    apply List.map_congr_left
    intro x hx
    obtain ⟨hx', hxc, p, hp, -⟩ := mem_batchCts.mp hx
    simp only [Function.comp_apply, hp, Option.bind_some, (h.position_iff hx' (hxc.trans hc)).mp hp]
  have hentries : (List.range' (batch.batchIndex * f.size) f.size).map (fun p => f.hashes[p]?) =
      ((f.batchEntries batch.batchIndex).map Prod.snd).map some := by
    rw [Frozen.batchEntries, List.map_take, List.map_drop]
    exact range'_getElem? ((hashes_length f).symm ▸ h.batch_room hi)
  have hsome : ((batchCts s.db batch f.size).map Ciphertext.ctHash).map some =
      ((f.batchEntries batch.batchIndex).map Prod.snd).map some := by
    rw [← hentries, List.map_map, show some ∘ Ciphertext.ctHash = fun x => some x.ctHash from rfl, hhash,
      hs.batchCts_positions h hc hi, List.map_map]
    rfl
  exact List.map_injective_iff.mpr (Option.some_injective _) hsome

/-! ### The batches of a condition -/

lemma Inv.batch_frozen (hs : Inv s) {x : Batch} (hx : x ∈ s.db.batches) :
    ∃ f, s.frozen x.conditionId = some f ∧ x.batchIndex < f.batches ∧ x.id = f.firstBatch + x.batchIndex := by
  have hmem : (x.id, x.batchIndex) ∈ s.db.numbered x.conditionId :=
    List.mem_map.mpr ⟨x, List.mem_filter.mpr ⟨hx, decide_eq_true rfl⟩, rfl⟩
  cases hf : s.frozen x.conditionId with
  | none =>
    rw [(hs.unfrozen _ hf).numbered] at hmem
    exact absurd hmem List.not_mem_nil
  | some f =>
    rw [(hs.frozen _ f hf).numbered] at hmem
    obtain ⟨i, hi, heq⟩ := List.mem_map.mp hmem
    obtain ⟨hid, rfl⟩ := Prod.mk.inj heq
    exact ⟨f, rfl, List.mem_range.mp hi, hid.symm⟩

lemma FrozenAs.batch_at {db : Database} (h : FrozenAs db c f) {i : Nat} (hi : i < f.batches) :
    ∃ x ∈ db.batches, x.conditionId = c ∧ x.batchIndex = i ∧ x.id = f.firstBatch + i := by
  have hmem : (f.firstBatch + i, i) ∈ db.numbered c := by
    rw [h.numbered]
    exact List.mem_map.mpr ⟨i, List.mem_range.mpr hi, rfl⟩
  obtain ⟨x, hx, heq⟩ := List.mem_map.mp hmem
  obtain ⟨hxb, hxc⟩ := List.mem_filter.mp hx
  obtain ⟨hid, hindex⟩ := Prod.mk.inj heq
  exact ⟨x, hxb, of_decide_eq_true hxc, hindex, hid⟩

lemma FrozenAs.committee {db : Database} (h : FrozenAs db c f) {x : Batch} (hc : x.conditionId = c) {k : Committee}
    (hk : batchCommittee db x = some k) : k.b = f.size := by
  obtain ⟨row, k', hrow, -, hk', hb⟩ := h.condition
  unfold batchCommittee at hk
  rw [hc, hrow, Option.bind_some, hk'] at hk
  rw [← Option.some.inj hk, hb]

lemma slotsOf_eq {db : Database} (h : FrozenAs db c f) :
    slotsOf db c = (List.range f.batches).flatMap fun i => (db.batchSlots (f.firstBatch + i)).getD [] := by
  have hnumbered := h.numbered
  unfold Database.numbered at hnumbered
  have hindex := congrArg (List.map Prod.snd) hnumbered
  have hids := congrArg (List.map Prod.fst) hnumbered
  rw [List.map_map, List.map_map] at hindex hids
  have hsorted : (db.batches.filter fun x => x.conditionId = c).Pairwise fun x y => x.batchIndex ≤ y.batchIndex := by
    have hrange : (List.range f.batches).Pairwise (· ≤ ·) := List.pairwise_le_range
    rw [← List.map_id (List.range f.batches)] at hrange
    change List.map Batch.batchIndex _ = List.map id _ at hindex
    rw [← hindex, List.pairwise_map] at hrange
    exact hrange
  unfold slotsOf
  rw [hsorted.insertionSort_eq]
  have hflat : ∀ l : List Batch, (l.flatMap fun x => (db.batchSlots x.id).getD []) =
      (l.map Batch.id).flatMap fun id => (db.batchSlots id).getD [] := by
    intro l
    rw [List.flatMap_map]
  change List.map Batch.id _ = _ at hids
  rw [hflat, hids, List.flatMap_map]
  rfl

lemma flatMap_batchEntries {db : Database} (h : FrozenAs db c f) :
    (List.range f.batches).flatMap f.batchEntries = f.entries := by
  have htake : ∀ n, (List.range n).flatMap f.batchEntries = f.entries.take (n * f.size) := by
    intro n
    induction n with
    | zero => simp
    | succ n ih =>
      rw [List.range_succ, List.flatMap_append, ih, List.flatMap_singleton, Nat.succ_mul, List.take_add]
      rfl
  rw [htake, ← h.full, List.take_length]

/-! ### Stored slots -/

variable {decrypt : Bytes → Bool × Bytes} {good : Bytes → Bool × Bytes → Prop} {db db' : Database}

/-- A slot holds a good result for its ciphertext. -/
def Recovered (good : Bytes → Bool × Bytes → Prop) (db : Database) (slot : RevealSlot) : Prop :=
  ∃ x ∈ db.ciphertexts, x.ctHash = slot.ctHash ∧ x.isDummy = slot.isDummy ∧ good x.sealedBlob (slot.valid, slot.payload)

/-- The slots stored so far are those of the freezes. -/
structure Stored (good : Bytes → Bool × Bytes → Prop) (s : Engine) : Prop where
  slots : ∀ c f, s.frozen c = some f → ∀ i < f.batches, ∀ slots, s.db.batchSlots (f.firstBatch + i) = some slots →
    slots.map RevealSlot.ctHash = (f.batchEntries i).map Prod.snd ∧ ∀ slot ∈ slots, Recovered good s.db slot
  unborn : ∀ id, s.db.batches.length < id → s.db.batchSlots id = none

/-- The reveal lists the entries of the freeze. -/
structure RevealedAs (good : Bytes → Bool × Bytes → Prop) (db : Database) (f : Frozen) (r : Reveal) : Prop where
  positions : r.payloadsBlob.map RevealSlot.position = List.range f.entries.length
  payloads : ∀ slot ∈ r.payloadsBlob, f.hashes[slot.position]? = some slot.ctHash ∧ Recovered good db slot
  root : r.merkleRoot = hexEncode (merkleRoot (r.payloadsBlob.map fun slot => revealLeaf slot.position slot.payload))

lemma Inv.revealComplete_iff (hs : Inv s) (h : FrozenAs s.db c f) {r : Reveal} :
    RevealComplete good s.db c r ↔ RevealedAs good s.db f r := by
  constructor
  · rintro ⟨⟨total, hpositions, htotal⟩, hpayloads, hroot⟩
    have hlength : total = f.entries.length := by
      have hsame : ∀ p, p < total ↔ p < f.entries.length := fun p => (htotal p).trans (h.position_lt p).symm
      have h1 := hsame total
      have h2 := hsame f.entries.length
      omega
    refine ⟨hlength ▸ hpositions, fun slot hslot => ?_, hroot⟩
    obtain ⟨x, hx, hc, hpos, hhash, hdummy, hopen⟩ := hpayloads slot hslot
    exact ⟨hhash ▸ (h.position_iff hx hc).mp hpos, x, hx, hhash, hdummy, hopen⟩
  · rintro ⟨hpositions, hpayloads, hroot⟩
    refine ⟨⟨_, hpositions, h.position_lt⟩, fun slot hslot => ?_, hroot⟩
    obtain ⟨hat, x, hx, hhash, hdummy, hopen⟩ := hpayloads slot hslot
    obtain ⟨y, hy, hyc, hyhash, hypos⟩ := h.row_at hat
    obtain rfl := hs.row_unique hx hy (hhash.trans hyhash.symm)
    exact ⟨x, hx, hyc, hypos, hhash, hdummy, hopen⟩

/-! ### The reveal that is assembled -/

lemma Inv.seal_position (hs : Inv s) (h : FrozenAs s.db c f) {p : Nat} {hash : Text} (hp : f.hashes[p]? = some hash) :
    (s.db.seal? hash).bind Ciphertext.position = some p := by
  obtain ⟨x, hx, -, rfl, hpos⟩ := h.row_at hp
  have hfind : s.db.seal? x.ctHash = some x := by
    unfold Database.seal?
    cases hf : s.db.ciphertexts.find? (fun y => y.ctHash = x.ctHash) with
    | none =>
      have := List.find?_eq_none.mp hf x hx
      simp at this
    | some y =>
      have hhash := List.find?_some hf
      rw [hs.row_unique (List.mem_of_find?_eq_some hf) hx (of_decide_eq_true hhash)]
  rw [hfind, Option.bind_some, hpos]

lemma mem_slotsOf (h : FrozenAs db c f) {slot : RevealSlot} (hslot : slot ∈ slotsOf db c) :
    ∃ i < f.batches, ∃ slots, db.batchSlots (f.firstBatch + i) = some slots ∧ slot ∈ slots := by
  rw [slotsOf_eq h] at hslot
  obtain ⟨i, hi, hmem⟩ := List.mem_flatMap.mp hslot
  cases hs : db.batchSlots (f.firstBatch + i) with
  | none =>
    rw [hs] at hmem
    exact absurd hmem List.not_mem_nil
  | some slots =>
    rw [hs] at hmem
    exact ⟨i, List.mem_range.mp hi, slots, hs, hmem⟩

lemma batchEntries_hashes {i p : Nat} (h : FrozenAs db c f) {hash : Text} (hp : f.hashes[p]? = some hash)
    (hhash : hash ∈ (f.batchEntries i).map Prod.snd) : p / f.size = i := by
  rw [Frozen.batchEntries, List.map_take, List.map_drop] at hhash
  obtain ⟨k, hk⟩ := List.mem_iff_getElem?.mp hhash
  have hlt : k < f.size := by
    have := (List.getElem?_eq_some_iff.mp hk).1
    rw [List.length_take] at this
    omega
  rw [List.getElem?_take_of_lt hlt, List.getElem?_drop] at hk
  obtain ⟨hpl, -⟩ := List.getElem?_eq_some_iff.mp hp
  obtain rfl := (List.getElem?_inj hpl h.nodup).mp (hp.trans hk.symm)
  rw [Nat.mul_comm, Nat.mul_add_div h.size, Nat.div_eq_of_lt hlt, Nat.add_zero]

lemma Stored.positioned (hst : Stored good s) (hs : Inv s) (hf : s.frozen c = some f) {slot out : RevealSlot}
    (hslot : slot ∈ slotsOf s.db c) (hout : Positioned s.db slot out) :
    f.hashes[out.position]? = some out.ctHash ∧ Recovered good s.db out ∧
      s.db.batchSlots (f.firstBatch + out.position / f.size) ≠ none := by
  have h := hs.frozen c f hf
  obtain ⟨i, hi, slots, hslots, hmem⟩ := mem_slotsOf h hslot
  obtain ⟨hhashes, hopen⟩ := hst.slots c f hf i hi slots hslots
  obtain ⟨position, hposition, rfl⟩ := hout
  have hentry : slot.ctHash ∈ (f.batchEntries i).map Prod.snd := hhashes ▸ List.mem_map_of_mem hmem
  have hhash : slot.ctHash ∈ f.hashes := by
    rw [Frozen.hashes, ← flatMap_batchEntries h, List.map_flatMap]
    exact List.mem_flatMap.mpr ⟨i, List.mem_range.mpr hi, hentry⟩
  obtain ⟨p, hp⟩ := List.mem_iff_getElem?.mp hhash
  obtain rfl := Option.some.inj (hposition.symm.trans (hs.seal_position h hp))
  refine ⟨hp, hopen slot hmem, ?_⟩
  dsimp only
  rw [batchEntries_hashes h hp hentry, hslots]
  exact Option.some_ne_none _

lemma forall₂_right {α β : Type} {R : α → β → Prop} {as : List α} {bs : List β} (h : List.Forall₂ R as bs) {b : β}
    (hb : b ∈ bs) : ∃ a ∈ as, R a b := by
  induction h with
  | nil => exact absurd hb List.not_mem_nil
  | cons hab _ ih =>
    rcases List.mem_cons.mp hb with rfl | hrest
    · exact ⟨_, List.mem_cons_self, hab⟩
    · obtain ⟨a, ha, hR⟩ := ih hrest
      exact ⟨a, List.mem_cons_of_mem _ ha, hR⟩

/-- A reveal assembled from the slots of every batch lists the entries of the freeze. -/
theorem Stored.assembled (hst : Stored good s) (hs : Inv s) (hf : s.frozen c = some f) {now : Int} {r : Reveal}
    (hr : assembleReveal s.db c now = .ok r) (hall : ∀ i < f.batches, s.db.batchSlots (f.firstBatch + i) ≠ none) :
    RevealedAs good s.db f r := by
  have h := hs.frozen c f hf
  obtain ⟨row, slots, -, -, -, hslots, hblob, hroot⟩ := assembleReveal_ok hr
  have hout : ∀ out ∈ slots, f.hashes[out.position]? = some out.ctHash ∧ Recovered good s.db out := by
    intro out hmem
    obtain ⟨slot, hslot, hpos⟩ := forall₂_right hslots hmem
    obtain ⟨hat, hopen, -⟩ := hst.positioned hs hf hslot hpos
    exact ⟨hat, hopen⟩
  have hhashes : slots.map RevealSlot.ctHash = f.hashes := by
    rw [positioned_hashes hslots, slotsOf_eq h, List.map_flatMap, Frozen.hashes, ← flatMap_batchEntries h, List.map_flatMap]
    apply List.flatMap_congr
    intro i hi
    have hlt := List.mem_range.mp hi
    obtain ⟨l, hl⟩ := Option.ne_none_iff_exists'.mp (hall i hlt)
    rw [hl]
    exact (hst.slots c f hf i hlt l hl).1
  have hpositions : slots.map RevealSlot.position = List.range f.entries.length := by
    have hlength : slots.length = f.entries.length := by
      rw [← hashes_length, ← hhashes, List.length_map]
    apply List.ext_getElem (by rw [List.length_map, List.length_range, hlength])
    intro i hi _
    rw [List.length_map] at hi
    rw [List.getElem_map, List.getElem_range]
    have hat := (hout slots[i] (List.getElem_mem hi)).1
    have hi' : f.hashes[i]? = some slots[i].ctHash := by
      rw [← hhashes, List.getElem?_map, List.getElem?_eq_getElem hi, Option.map_some]
    obtain ⟨hpl, -⟩ := List.getElem?_eq_some_iff.mp hat
    exact (List.getElem?_inj hpl h.nodup).mp (hat.trans hi'.symm)
  have hsorted : slots.Pairwise fun x y => x.position ≤ y.position := by
    have hrange : (List.range f.entries.length).Pairwise (· ≤ ·) := List.pairwise_le_range
    rwa [← hpositions, List.pairwise_map] at hrange
  rw [hsorted.insertionSort_eq] at hblob
  exact ⟨hblob ▸ hpositions, hblob ▸ hout, hroot⟩

/-- A reveal that lists the entries of the freeze was assembled from the slots of every batch. -/
theorem Stored.all_stored (hst : Stored good s) (hs : Inv s) (hf : s.frozen c = some f) {now : Int} {r : Reveal}
    (hr : assembleReveal s.db c now = .ok r) (h : RevealedAs good s.db f r) :
    ∀ i < f.batches, s.db.batchSlots (f.firstBatch + i) ≠ none := by
  have hfrozen := hs.frozen c f hf
  obtain ⟨row, slots, -, -, -, hslots, hblob, -⟩ := assembleReveal_ok hr
  intro i hi
  have hlt : i * f.size < f.entries.length := by
    rw [hfrozen.full]
    exact Nat.mul_lt_mul_of_pos_right hi hfrozen.size
  have hmem : i * f.size ∈ r.payloadsBlob.map RevealSlot.position := h.positions ▸ List.mem_range.mpr hlt
  obtain ⟨out, hout, hpos⟩ := List.mem_map.mp hmem
  rw [hblob, List.mem_insertionSort] at hout
  obtain ⟨slot, hslot, hposition⟩ := forall₂_right hslots hout
  obtain ⟨-, -, hstored⟩ := hst.positioned hs hf hslot hposition
  rwa [hpos, Nat.mul_div_cancel i hfrozen.size] at hstored

lemma Stored.assembles (hst : Stored good s) (hs : Inv s) (hf : s.frozen c = some f) {row : Condition}
    (hrow : s.db.conditions c = some row) (hstatus : row.status = .frozen ∨ row.status = .stalled)
    (hdone : ∀ x ∈ s.db.batches, x.conditionId = c → x.finalizedAt ≠ none) (now : Int) :
    ∃ r, assembleReveal s.db c now = .ok r := by
  have h := hs.frozen c f hf
  have hbatches : (s.db.batches.filter fun x => x.conditionId = c) ≠ [] := by
    obtain ⟨x, hx, hc, -⟩ := h.batch_at h.nonempty
    exact List.ne_nil_of_mem (List.mem_filter.mpr ⟨hx, decide_eq_true hc⟩)
  have hall : ∀ x ∈ s.db.batches.filter fun x => x.conditionId = c, x.finalizedAt ≠ none := by
    intro x hx
    obtain ⟨hmem, hc⟩ := List.mem_filter.mp hx
    exact hdone x hmem (of_decide_eq_true hc)
  have hposition : ∀ slot ∈ slotsOf s.db c, ∃ out, Positioned s.db slot out := by
    intro slot hslot
    obtain ⟨i, hi, slots, hslots, hmem⟩ := mem_slotsOf h hslot
    obtain ⟨hhashes, -⟩ := hst.slots c f hf i hi slots hslots
    have hhash : slot.ctHash ∈ f.hashes := by
      rw [Frozen.hashes, ← flatMap_batchEntries h, List.map_flatMap]
      exact List.mem_flatMap.mpr ⟨i, List.mem_range.mpr hi, hhashes ▸ List.mem_map_of_mem hmem⟩
    obtain ⟨p, hp⟩ := List.mem_iff_getElem?.mp hhash
    exact ⟨_, p, hs.seal_position h hp, rfl⟩
  have hslots : ∀ l : List RevealSlot, (∀ slot ∈ l, ∃ out, Positioned s.db slot out) →
      ∃ outs, List.Forall₂ (Positioned s.db) l outs := by
    intro l hl
    induction l with
    | nil => exact ⟨[], .nil⟩
    | cons slot rest ih =>
      obtain ⟨out, hout⟩ := hl slot List.mem_cons_self
      obtain ⟨outs, houts⟩ := ih fun x hx => hl x (List.mem_cons_of_mem _ hx)
      exact ⟨out :: outs, .cons hout houts⟩
  obtain ⟨outs, houts⟩ := hslots _ hposition
  exact assembleReveal_of hrow hstatus hbatches hall houts

end Batch

/-! ### Every event -/

section Step

variable {cfg : EngineConfig} {s s' : Engine} {db db' : Database} {decrypt : Bytes → Bool × Bytes}
  {good : Bytes → Bool × Bytes → Prop}

/-- The ciphertexts and the stored slots are still there. -/
structure SlotsKept (db db' : Database) : Prop where
  rows : ∀ x ∈ db.ciphertexts, ∃ y ∈ db'.ciphertexts,
    y.ctHash = x.ctHash ∧ y.conditionId = x.conditionId ∧ y.isDummy = x.isDummy ∧ y.sealedBlob = x.sealedBlob
  slots : db'.batchSlots = db.batchSlots
  length : db.batches.length ≤ db'.batches.length

/-- No reveal is published and none withdrawn. -/
structure RevealsKept (db db' : Database) : Prop where
  reveals : db'.reveals = db.reveals
  revealed : ∀ c row, db'.conditions c = some row → row.status = .revealed →
    ∃ row, db.conditions c = some row ∧ row.status = .revealed

lemma slotsKept_same (hrows : db'.ciphertexts = db.ciphertexts) (hslots : db'.batchSlots = db.batchSlots)
    (hlength : db.batches.length ≤ db'.batches.length) : SlotsKept db db' :=
  ⟨fun x hx => ⟨x, hrows.symm ▸ hx, rfl, rfl, rfl, rfl⟩, hslots, hlength⟩

lemma slotsKept_insertSeal (hash c : Text) (blob : Bytes) (now : Int) (code : Text) :
    SlotsKept db (insertSeal db hash c blob now code) := by
  rcases @insertSeal_cases db hash c blob now code with ⟨-, heq⟩ | ⟨-, heq⟩
  · rw [heq]
    exact slotsKept_same rfl rfl le_rfl
  · rw [heq]
    exact ⟨fun x hx => ⟨x, List.mem_append_left _ hx, rfl, rfl, rfl, rfl⟩, rfl, le_rfl⟩

lemma slotsKept_coded {rows : List Ciphertext} (hk : SlotsKept db db')
    (h : rows.map Ciphertext.uncoded = db'.ciphertexts.map Ciphertext.uncoded) :
    SlotsKept db { db' with ciphertexts := rows } := by
  refine ⟨fun x hx => ?_, hk.slots, hk.length⟩
  obtain ⟨y, hy, hhash, hc, hdummy, hblob⟩ := hk.rows x hx
  have hmem : y.uncoded ∈ rows.map Ciphertext.uncoded := h ▸ List.mem_map_of_mem hy
  obtain ⟨z, hz, hzy⟩ := List.mem_map.mp hmem
  have hzhash : z.uncoded.ctHash = y.uncoded.ctHash := congrArg Ciphertext.ctHash hzy
  have hzc : z.uncoded.conditionId = y.uncoded.conditionId := congrArg Ciphertext.conditionId hzy
  have hzdummy : z.uncoded.isDummy = y.uncoded.isDummy := congrArg Ciphertext.isDummy hzy
  have hzblob : z.uncoded.sealedBlob = y.uncoded.sealedBlob := congrArg Ciphertext.sealedBlob hzy
  exact ⟨z, hz, hzhash.trans hhash, hzc.trans hc, hzdummy.trans hdummy, hzblob.trans hblob⟩

lemma slotsKept_freezeWrite {p : Plan} {frozenAt : Int} {committedAt : Nat → Int} {f : Frozen} (hp : PlanOk db p)
    (h : freezeWrite cfg db p frozenAt committedAt = .ok (db', f)) : SlotsKept db db' := by
  obtain ⟨-, hdummies, hfresh, hrows, hbatches, -, -, -, -, -, hslots, -⟩ := freezeWrite_eq_ok h
  refine ⟨fun x hx => ?_, hslots, by rw [hbatches, List.length_append]; exact Nat.le_add_right _ _⟩
  rw [hrows, assignPositions_eq (ordered_nodup hp hdummies hfresh)]
  obtain ⟨position, heq⟩ := place_same p.ordered 0 x
  exact ⟨_, List.mem_map_of_mem (List.mem_append_left _ hx), by rw [heq], by rw [heq], by rw [heq], by rw [heq]⟩

lemma step_slotsKept {e : Engine.Event} (hs : Inv s) (h : Engine.step cfg s e = .ok s') :
    SlotsKept s.db s'.db ∨ ∃ batchId recovered now db, e = .finalizeBatch batchId recovered now ∧
      finalizeBatch s.db batchId recovered now = .ok db ∧ s' = { s with db } := by
  have hfinal : ∀ batchId now, s.db.batches.length ≤ (markFinalized s.db batchId now).batches.length := fun _ _ =>
    (List.length_map _).ge
  cases step_effect h with
  | submitCiphertext c _ now code _ wire blob row rows _ _ _ hcoded _ =>
    exact .inl (slotsKept_coded (slotsKept_insertSeal (ctHash wire) c blob now code) hcoded)
  | createSeal c _ now code wire blob => exact .inl (slotsKept_insertSeal (ctHash wire) c blob now code)
  | freezeWrite frozenAt committedAt p db f hp hok => exact .inl (slotsKept_freezeWrite (hs.plan p hp) hok)
  | shareKnown _ _ _ x =>
    obtain ⟨completed, heq⟩ := complete_same (s := s) x
    rw [heq]
    exact .inl (slotsKept_same rfl rfl le_rfl)
  | shareWrite i now x _ =>
    obtain ⟨completed, heq⟩ :=
      complete_same (s := { s with db := insertShare s.db x now, submissions := s.submissions.eraseIdx i }) x
    obtain ⟨shares, hdb⟩ := @insertShare_same s.db x now
    rw [heq, hdb]
    exact .inl (slotsKept_same rfl rfl le_rfl)
  | finalizeBatch batchId recovered now db _ hok => exact .inr ⟨batchId, recovered, now, db, rfl, hok, rfl⟩
  | finalizeTorn batchId now => exact .inl (slotsKept_same rfl rfl (hfinal batchId now))
  | _ => exact .inl (slotsKept_same rfl rfl le_rfl)

lemma revealsKept_same (hreveals : db'.reveals = db.reveals) (hconditions : db'.conditions = db.conditions) :
    RevealsKept db db' :=
  ⟨hreveals, fun _ row hrow hrev => ⟨row, hconditions ▸ hrow, hrev⟩⟩

lemma revealsKept_insertSeal (hash c : Text) (blob : Bytes) (now : Int) (code : Text) :
    RevealsKept db (insertSeal db hash c blob now code) := by
  rcases @insertSeal_cases db hash c blob now code with ⟨-, heq⟩ | ⟨-, heq⟩
  · rw [heq]
    exact revealsKept_same rfl rfl
  · rw [heq]
    exact revealsKept_same rfl rfl

lemma step_revealsKept {e : Engine.Event} (h : Engine.step cfg s e = .ok s') :
    RevealsKept s.db s'.db ∧ s.SlotsStored e ∨
      ∃ c now reveal, assembleReveal s.db c now = .ok reveal ∧
        (e = .buildReveal c now ∧ s.freezing = none ∧
            s' = { s with db := (storeReveal s.db c reveal).setStatus c .revealed } ∨
          e = .revealTorn c now ∧ s' = s.restart (storeReveal s.db c reveal)) := by
  cases step_effect h with
  | createCondition id row hfresh hpending =>
    refine .inl ⟨⟨rfl, fun c row' hrow hrev => ?_⟩, trivial⟩
    dsimp only at hrow
    rw [Database.insertCondition_conditions] at hrow
    by_cases hc : c = id
    · subst hc
      rw [Function.update_self] at hrow
      obtain rfl := Option.some.inj hrow
      rw [hpending] at hrev
      cases hrev
    · rw [Function.update_of_ne hc] at hrow
      exact ⟨row', hrow, hrev⟩
  | submitCiphertext c _ now code _ wire blob =>
    have hk := @revealsKept_insertSeal s.db (ctHash wire) c blob now code
    exact .inl ⟨⟨hk.reveals, hk.revealed⟩, trivial⟩
  | createSeal c _ now code wire blob => exact .inl ⟨revealsKept_insertSeal (ctHash wire) c blob now code, trivial⟩
  | freezeWrite frozenAt committedAt p db f hp hok =>
    obtain ⟨-, -, -, -, -, -, hconditions, -, -, -, -, hreveals⟩ := freezeWrite_eq_ok hok
    refine .inl ⟨⟨hreveals, fun c row hrow hrev => ?_⟩, trivial⟩
    dsimp only at hrow
    rw [hconditions, Database.setStatus_conditions] at hrow
    by_cases hc : c = p.conditionId
    · subst hc
      rw [Function.update_self] at hrow
      obtain ⟨row', -, rfl⟩ := Option.map_eq_some_iff.mp hrow
      cases hrev
    · rw [Function.update_of_ne hc] at hrow
      exact ⟨row, hrow, hrev⟩
  | shareKnown _ _ _ x =>
    obtain ⟨completed, heq⟩ := complete_same (s := s) x
    rw [heq]
    exact .inl ⟨revealsKept_same rfl rfl, trivial⟩
  | shareWrite i now x _ =>
    obtain ⟨completed, heq⟩ :=
      complete_same (s := { s with db := insertShare s.db x now, submissions := s.submissions.eraseIdx i }) x
    obtain ⟨shares, hdb⟩ := @insertShare_same s.db x now
    rw [heq, hdb]
    exact .inl ⟨revealsKept_same rfl rfl, trivial⟩
  | finalizeBatch batchId _ now db _ hok =>
    obtain ⟨batch, k, -, -, -, -, -, rfl⟩ := finalizeBatch_ok hok
    exact .inl ⟨revealsKept_same rfl rfl, trivial⟩
  | buildReveal c now reveal hidle hok => exact .inr ⟨c, now, reveal, hok, .inl ⟨rfl, hidle, rfl⟩⟩
  | markStalled now =>
    refine .inl ⟨⟨rfl, fun c row hrow hrev => ?_⟩, trivial⟩
    unfold markStalled at hrow
    dsimp only at hrow
    obtain ⟨row', hrow', rfl⟩ := Option.map_eq_some_iff.mp hrow
    refine ⟨row', hrow', ?_⟩
    split_ifs at hrev
    exact hrev
  | revealTorn c now reveal hok => exact .inr ⟨c, now, reveal, hok, .inr ⟨rfl, rfl⟩⟩
  | _ => exact .inl ⟨revealsKept_same rfl rfl, trivial⟩

lemma Inv.frozen_step {e : Engine.Event} (hs : Inv s) (h : Engine.step cfg s e = .ok s') (c : Text) :
    (∀ f, s.frozen c = some f → s'.frozen c = some f) ∧
      ∀ f, s'.frozen c = some f → s.frozen c = some f ∨ s.db.batches.length < f.firstBatch := by
  rcases step_cases_freeze hs h with ⟨-, hfrozen, -⟩ | ⟨frozenAt, committedAt, p, db, f, -, hp, hok, rfl⟩
  · rw [hfrozen]
    exact ⟨fun _ hf => hf, fun _ hf => .inl hf⟩
  · have hnone := hs.plan_unfrozen (hs.plan p hp)
    obtain ⟨rfl, -⟩ := freezeWrite_eq_ok hok
    dsimp only
    by_cases hc : c = p.conditionId
    · subst hc
      rw [Function.update_self]
      refine ⟨fun f hf => (Option.some_ne_none f (hf.symm.trans hnone)).elim, fun f hf => .inr ?_⟩
      obtain rfl := Option.some.inj hf
      exact Nat.lt_succ_self _
    · rw [Function.update_of_ne hc]
      exact ⟨fun _ hf => hf, fun _ hf => .inl hf⟩

lemma Recovered.kept (hk : SlotsKept db db') {slot : RevealSlot} (h : Recovered good db slot) :
    Recovered good db' slot := by
  obtain ⟨x, hx, hhash, hdummy, hopen⟩ := h
  obtain ⟨y, hy, hyhash, -, hydummy, hyblob⟩ := hk.rows x hx
  exact ⟨y, hy, hyhash.trans hhash, hydummy.trans hdummy, hyblob ▸ hopen⟩

lemma RevealedAs.kept {f : Frozen} {r : Reveal} (hk : SlotsKept db db') (h : RevealedAs good db f r) :
    RevealedAs good db' f r :=
  ⟨h.positions, fun slot hslot => ⟨(h.payloads slot hslot).1, (h.payloads slot hslot).2.kept hk⟩, h.root⟩

/-- The results recovered for a batch are good ones. -/
def Results (good : Bytes → Bool × Bytes → Prop) (s : Engine) : Engine.Event → Prop
  | .finalizeBatch batchId recovered _ => ∀ batch ∈ s.db.batches, batch.id = batchId →
      ∀ k ∈ batchCommittee s.db batch, recovered.length = (batchCts s.db batch k.b).length →
        List.Forall₂ (fun x r => good x.sealedBlob r) (batchCts s.db batch k.b) recovered
  | _ => True

lemma Results.of_opens {e : Engine.Event} (h : Engine.Opens decrypt s e) : Results (OpensTo decrypt) s e := by
  cases e with
  | finalizeBatch batchId recovered now =>
    intro batch hbatch hid k hk _
    rw [h batch hbatch hid k hk, List.forall₂_map_right_iff]
    exact List.forall₂_same.mpr fun _ _ => rfl
  | _ => trivial

lemma Results.any (e : Engine.Event) : Results (fun _ _ => True) s e := by
  cases e with
  | finalizeBatch batchId recovered now =>
    intro batch _ _ k _ hlength
    exact List.forall₂_iff_get.mpr ⟨hlength.symm, fun _ _ _ => trivial⟩
  | _ => trivial

lemma recoveredSlots_hashes {cts : List Ciphertext} {recovered : List (Bool × Bytes)}
    (h : List.Forall₂ (fun x r => good x.sealedBlob r) cts recovered) :
    (recoveredSlots cts recovered).map RevealSlot.ctHash = cts.map Ciphertext.ctHash ∧
      ∀ slot ∈ recoveredSlots cts recovered, ∃ x ∈ cts, x.ctHash = slot.ctHash ∧ x.isDummy = slot.isDummy ∧
        good x.sealedBlob (slot.valid, slot.payload) := by
  unfold recoveredSlots
  induction h with
  | nil => exact ⟨rfl, fun slot hslot => absurd hslot List.not_mem_nil⟩
  | @cons x r cts recovered hgood _ ih =>
    rw [List.zipWith_cons_cons, List.map_cons, List.map_cons, ih.1]
    refine ⟨rfl, fun slot hslot => ?_⟩
    rcases List.mem_cons.mp hslot with rfl | hrest
    · exact ⟨x, List.mem_cons_self, rfl, rfl, hgood⟩
    · obtain ⟨y, hy, hsame⟩ := ih.2 slot hrest
      exact ⟨y, List.mem_cons_of_mem _ hy, hsame⟩

lemma Stored.finalized (hst : Stored good s) (hs : Inv s) {batchId : Nat} {recovered : List (Bool × Bytes)} {now : Int}
    (hresults : Results good s (.finalizeBatch batchId recovered now))
    (h : finalizeBatch s.db batchId recovered now = .ok db) : Stored good { s with db } := by
  obtain ⟨batch, k, -, hbatch, hid, hk, hlength, rfl⟩ := finalizeBatch_ok h
  obtain ⟨f, hf, hi, hfirst⟩ := hs.batch_frozen hbatch
  have hb : k.b = f.size := (hs.frozen _ f hf).committee rfl hk
  obtain ⟨hhashes, hgood⟩ := recoveredSlots_hashes (hresults batch hbatch hid k hk hlength)
  rw [hid] at hfirst
  refine ⟨fun c g hg i hig slots hslots => ?_, fun id hlt => ?_⟩
  · dsimp only at hg hslots ⊢
    by_cases hsame : g.firstBatch + i = batchId
    · rw [hsame, Function.update_self] at hslots
      obtain rfl := Option.some.inj hslots
      obtain ⟨x, hx, hxc, hxi, hxid⟩ := (hs.frozen c g hg).batch_at hig
      obtain rfl := hs.batch_unique hx hbatch (hxid.trans (hsame.trans hid.symm))
      subst hxc
      obtain rfl := Option.some.inj (hf.symm.trans hg)
      refine ⟨?_, fun slot hslot => ?_⟩
      · rw [hhashes, ← hxi, ← hs.batchCts_hashes (hs.frozen _ f hf) rfl hi, hb]
      · obtain ⟨y, hy, hsame⟩ := hgood slot hslot
        rw [batchCts, List.mem_insertionSort] at hy
        exact ⟨y, List.mem_of_mem_filter (List.mem_of_mem_filter hy), hsame⟩
    · rw [Function.update_of_ne hsame] at hslots
      exact hst.slots c g hg i hig slots hslots
  · dsimp only [markFinalized] at hlt ⊢
    rw [List.length_map] at hlt
    have hne : id ≠ batchId := by
      rintro rfl
      have hmem : id ∈ s.db.batches.map Batch.id := List.mem_map.mpr ⟨batch, hbatch, hid⟩
      rw [hs.ids] at hmem
      obtain ⟨n, hn, heq⟩ := List.mem_map.mp hmem
      have := List.mem_range.mp hn
      omega
    rw [Function.update_of_ne hne]
    exact hst.unborn id hlt

theorem Stored.step (hst : Stored good s) (hs : Inv s) {e : Engine.Event} (hresults : Results good s e)
    (h : Engine.step cfg s e = .ok s') : Stored good s' := by
  rcases step_slotsKept hs h with hk | ⟨batchId, recovered, now, db, rfl, hok, rfl⟩
  · refine ⟨fun c f hf i hi slots hslots => ?_, fun id hid => ?_⟩
    · rw [hk.slots] at hslots
      rcases (hs.frozen_step h c).2 f hf with hold | hnew
      · obtain ⟨hhashes, hopen⟩ := hst.slots c f hold i hi slots hslots
        exact ⟨hhashes, fun slot hslot => (hopen slot hslot).kept hk⟩
      · rw [hst.unborn _ (Nat.lt_add_right i hnew)] at hslots
        cases hslots
    · rw [hk.slots]
      exact hst.unborn id (hk.length.trans_lt hid)
  · exact hst.finalized hs hresults hok

lemma Inv.frozen_of_status (hs : Inv s) {c : Text} {row : Condition} (hrow : s.db.conditions c = some row)
    (hstatus : row.status ≠ .pending) : ∃ f, s.frozen c = some f := by
  cases hf : s.frozen c with
  | none => exact absurd ((hs.unfrozen c hf).pending row hrow) hstatus
  | some f => exact ⟨f, rfl⟩

lemma Inv.revealComplete_step (hs : Inv s) {e : Engine.Event} (h : Engine.step cfg s e = .ok s')
    (hk : SlotsKept s.db s'.db) {c : Text} {f : Frozen} (hf : s.frozen c = some f) {r : Reveal}
    (hr : RevealComplete good s.db c r) : RevealComplete good s'.db c r := by
  have hs' := hs.step h
  have hf' := (hs.frozen_step h c).1 f hf
  exact (hs'.revealComplete_iff (hs'.frozen c f hf')).mpr (((hs.revealComplete_iff (hs.frozen c f hf)).mp hr).kept hk)

/-- An event keeps the reveals complete exactly when it builds none from batches without slots. -/
theorem revealed_step_iff (hs : Inv s ∧ Stored good s) (hrev : s.Revealed good) {e : Engine.Event} :
    (advance (Engine.step cfg) s e).Revealed good ↔ s.SlotsStored e := by
  unfold advance
  cases h : Engine.step cfg s e with
  | error u =>
    refine iff_of_true hrev ?_
    cases e with
    | buildReveal c now =>
      intro hidle row hrow hstatus hdone
      have hne : row.status ≠ .pending := by
        rcases hstatus with heq | heq
        · simp [heq]
        · simp [heq]
      obtain ⟨f, hf⟩ := hs.1.frozen_of_status hrow hne
      obtain ⟨r, hr⟩ := hs.2.assembles hs.1 hf hrow hstatus hdone now
      simp only [Engine.step, require, hidle, buildReveal, hr, bind, Except.bind, pure, Except.pure, if_true,
        Option.isNone_none] at h
      cases h
    | _ => trivial
  | ok s' =>
    dsimp only
    rcases step_revealsKept h with ⟨hk, hok⟩ | ⟨c, now, r, hr, ⟨rfl, hidle, rfl⟩ | ⟨rfl, rfl⟩⟩
    · refine iff_of_true (fun c row hrow hstatus => ?_) hok
      obtain ⟨row', hrow', hstatus'⟩ := hk.revealed c row hrow hstatus
      obtain ⟨f, hf⟩ := hs.1.frozen_of_status hrow' (by simp [hstatus'])
      obtain ⟨r, hr, hcomplete⟩ := hrev c row' hrow' hstatus'
      refine ⟨r, hk.reveals ▸ hr, ?_⟩
      rcases step_slotsKept hs.1 h with hslots | ⟨batchId, recovered, now, db, -, hok, rfl⟩
      · exact hs.1.revealComplete_step h hslots hf hcomplete
      · obtain ⟨batch, k, -, -, -, -, -, rfl⟩ := finalizeBatch_ok hok
        exact ⟨hcomplete.positions, hcomplete.payloads, hcomplete.root⟩
    · obtain ⟨row, _, hrow, hstatus, hdone, -⟩ := assembleReveal_ok hr
      have hne : row.status ≠ .pending := by
        rcases hstatus with heq | heq
        · simp [heq]
        · simp [heq]
      obtain ⟨f, hf⟩ := hs.1.frozen_of_status hrow hne
      have hfrozen := hs.1.frozen c f hf
      constructor
      · intro hnext _ _ _ _ _ x hx hxc
        have hmarked : ((storeReveal s.db c r).setStatus c .revealed).conditions c =
            some { row with status := .revealed } := by
          rw [Database.setStatus_conditions, Function.update_self]
          exact congrArg (Option.map fun row : Condition => { row with status := .revealed }) hrow
        obtain ⟨r', hr', hcomplete⟩ := hnext c _ hmarked rfl
        have hreveals : ((storeReveal s.db c r).setStatus c .revealed).reveals c = some r := Function.update_self c _ _
        obtain rfl := Option.some.inj (hreveals.symm.trans hr')
        have hcomplete' : RevealComplete good s.db c r :=
          ⟨hcomplete.positions, hcomplete.payloads, hcomplete.root⟩
        subst hxc
        obtain ⟨g, hg, hi, hid⟩ := hs.1.batch_frozen hx
        obtain rfl := Option.some.inj (hf.symm.trans hg)
        rw [hid]
        exact hs.2.all_stored hs.1 hf hr ((hs.1.revealComplete_iff hfrozen).mp hcomplete') _ hi
      · intro hok c' row' hrow' hstatus'
        dsimp only at hrow' ⊢
        rw [Database.setStatus_conditions] at hrow'
        by_cases hc : c' = c
        · subst hc
          refine ⟨r, Function.update_self c' _ _, ?_⟩
          have hall : ∀ i < f.batches, s.db.batchSlots (f.firstBatch + i) ≠ none := by
            intro i hi
            obtain ⟨x, hx, hxc, -, hid⟩ := hfrozen.batch_at hi
            rw [← hid]
            exact hok hidle row hrow hstatus hdone x hx hxc
          have hcomplete := (hs.1.revealComplete_iff hfrozen).mpr (hs.2.assembled hs.1 hf hr hall)
          exact ⟨hcomplete.positions, hcomplete.payloads, hcomplete.root⟩
        · rw [Function.update_of_ne hc] at hrow'
          obtain ⟨r', hr', hcomplete⟩ := hrev c' row' hrow' hstatus'
          exact ⟨r', (Function.update_of_ne hc _ _).trans hr', hcomplete.positions, hcomplete.payloads, hcomplete.root⟩
    · refine iff_of_true (fun c' row' hrow' hstatus' => ?_) trivial
      obtain ⟨row, _, hrow, hstatus, -⟩ := assembleReveal_ok hr
      have hc : c' ≠ c := by
        rintro rfl
        obtain rfl := Option.some.inj (hrow.symm.trans hrow')
        rw [hstatus'] at hstatus
        rcases hstatus with heq | heq
        · cases heq
        · cases heq
      obtain ⟨r', hr', hcomplete⟩ := hrev c' row' hrow' hstatus'
      exact ⟨r', (Function.update_of_ne hc _ _).trans hr', hcomplete.positions, hcomplete.payloads, hcomplete.root⟩

end Step

/-- Through a run every condition that becomes revealed has a complete reveal exactly when no reveal is built from a
batch without slots. -/
theorem revealed_iff (cfg : EngineConfig) (decrypt : Bytes → Bool × Bytes) (es : List Engine.Event)
    (hopens : Along (Engine.step cfg) (Engine.Opens decrypt) Engine.start es) :
    Throughout (Engine.step cfg) (Engine.Revealed (OpensTo decrypt)) Engine.start es ↔
      Along (Engine.step cfg) Engine.SlotsStored Engine.start es := by
  have hstep : ∀ s e s', Inv s ∧ Stored (OpensTo decrypt) s → Engine.Opens decrypt s e →
      Engine.step cfg s e = .ok s' → Inv s' ∧ Stored (OpensTo decrypt) s' :=
    fun _ _ _ hs ho h => ⟨hs.1.step h, hs.2.step hs.1 (.of_opens ho) h⟩
  have hstart : Stored (OpensTo decrypt) Engine.start := ⟨fun c f hf => (Option.some_ne_none f hf.symm).elim, fun _ _ => rfl⟩
  have hrevealed : Engine.start.Revealed (OpensTo decrypt) := fun c row hrow => by cases hrow
  exact throughout_iff_along_under (Engine.step cfg) hstep (fun _ _ hs _ hrev => revealed_step_iff hs hrev)
    ⟨inv_start, hstart⟩ hrevealed hopens

instance (decrypt : Bytes → Bool × Bytes) (s : Engine) (e : Engine.Event) : Decidable (Engine.Opens decrypt s e) := by
  unfold Engine.Opens
  split
  · infer_instance
  · exact isTrue trivial

instance (s : Engine) (e : Engine.Event) : Decidable (s.SlotsStored e) := by
  unfold Engine.SlotsStored
  split
  · infer_instance
  · exact isTrue trivial

/-- Two batches of one slot; a crash falls between the two statements that finalize the first. -/
def tornFinalization : List Engine.Event :=
  opened 1 1 ++ [.createSeal ['r'] "AQ==".toList 10 ['a'], .createSeal ['r'] "Ag==".toList 11 ['b'],
    .freezeRead ['r'] 100 0 [], .freezeWrite 101 fun _ => 101,
    .shareRead 1 1 "AQE=".toList, .shareWrite 0 102, .shareRead 2 1 "AQE=".toList, .shareWrite 0 102,
    .finalizeTorn 1 103, .finalizeBatch 2 [(true, [2])] 104, .buildReveal ['r'] 105]

def sampleDecrypt (blob : Bytes) : Bool × Bytes := (true, blob)

lemma tornFinalization_opens :
    Along (Engine.step sampleEngine) (Engine.Opens sampleDecrypt) Engine.start tornFinalization := by
  decide +kernel

lemma tornFinalization_end :
    (exec (Engine.step sampleEngine) Engine.start tornFinalization).db.conditions ['r'] =
        some { sampleCondition with status := .revealed } ∧
      ((exec (Engine.step sampleEngine) Engine.start tornFinalization).db.reveals ['r']).map
        (fun r => r.payloadsBlob.map RevealSlot.position) = some [1] := by
  decide +kernel

/-- The reveal is published without the slot of the batch that was torn. -/
theorem reveal_incomplete : Along (Engine.step sampleEngine) (Engine.Opens sampleDecrypt) Engine.start tornFinalization ∧
    ¬Throughout (Engine.step sampleEngine) (Engine.Revealed (OpensTo sampleDecrypt)) Engine.start tornFinalization := by
  refine ⟨tornFinalization_opens, fun h => ?_⟩
  obtain ⟨hrow, hpositions⟩ := tornFinalization_end
  have hend := h tornFinalization.length
  rw [List.take_length] at hend
  obtain ⟨r, hr, hcomplete⟩ := hend ['r'] _ hrow rfl
  rw [hr, Option.map_some, Option.some.injEq] at hpositions
  obtain ⟨total, hrange, -⟩ := hcomplete.positions
  rw [hpositions] at hrange
  have hlength := congrArg List.length hrange
  rw [List.length_range] at hlength
  rw [← hlength] at hrange
  exact absurd hrange (by decide)

theorem revealed_sample :
    Throughout (Engine.step sampleEngine) (Engine.Revealed (OpensTo sampleDecrypt)) Engine.start tornFinalization ↔
      Along (Engine.step sampleEngine) Engine.SlotsStored Engine.start tornFinalization :=
  revealed_iff sampleEngine sampleDecrypt tornFinalization tornFinalization_opens

end Peal.Coordinator
