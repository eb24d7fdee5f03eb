import Peal.Coordinator.Freeze
import Peal.Actions.Inclusion

namespace Peal.Coordinator
open Peal.Fallible Peal.Runs Peal.Sha256 Peal.PromotedTree
open Peal.Actions (utf8 parent Digests digests_levelUp parent_digest treePairs_length append_pair_inj path_digests climb_digest)
open Peal.Links (hexEncode hexDecode hexDecode_hexEncode)

/-! # The batch that a seal's proof names

A round has one commitment for each of its batches, and the proof of every seal carries the round's earliest. -/

structure SealProof where
  sealId : Text
  roundId : Text
  roundStatus : PublicStatus
  position : Option Nat
  orderingRoot : Option Text
  orderingCommittedAt : Option Int
  batchSize : Option Nat
  merkleRoot : Option Text
  revealedAt : Option Int
  commitmentPrecedesReveal : Option Bool
  deriving DecidableEq, Repr

namespace Database

def commitmentsOf (db : Database) (conditionId : Text) : List BatchCommitment :=
  db.batchCommitments.filter fun x => x.conditionId = conditionId

/-- The commitment of the batch that holds a position of a round. -/
def commitmentAt (db : Database) (conditionId : Text) (position : Nat) : Option BatchCommitment := do
  let row ← db.conditions conditionId
  let k ← db.committee? row.committeeId
  let batch ← (db.numbered conditionId).find? fun x => x.2 = position / k.b
  (db.commitmentsOf conditionId).find? fun x => x.batchId = batch.1

end Database

/-- `ORDER BY committed_at ASC LIMIT 1`; of rows of one second the first is kept. -/
def earliest : List BatchCommitment → Option BatchCommitment
  | [] => none
  | x :: rest =>
    match earliest rest with
    | some y => if y.committedAt < x.committedAt then some y else some x
    | none => some x

/-- `get_seal_proof`. -/
def getSealProof (db : Database) (id : Text) : Except Problem SealProof := do
  let row ← expect (db.ciphertexts.find? fun c => c.ctHash = id ∧ ¬c.isDummy) (.missing "seal")
  let commitment := earliest (db.commitmentsOf row.conditionId)
  let reveal := db.reveals row.conditionId
  let round ← loadRound db row.conditionId
  return {
    sealId := id
    roundId := row.conditionId
    roundStatus := round.status
    position := row.position
    orderingRoot := commitment.map BatchCommitment.orderingRoot
    orderingCommittedAt := commitment.map BatchCommitment.committedAt
    batchSize := commitment.map BatchCommitment.batchSize
    merkleRoot := reveal.map Reveal.merkleRoot
    revealedAt := reveal.map Reveal.revealedAt
    commitmentPrecedesReveal := commitment.bind fun x => reveal.map fun r => x.committedAt ≤ r.revealedAt }

/-- A leaf of the ciphertext lies under the root at an index of a batch. -/
def LiesUnder (root hash : Text) (size index : Nat) : Prop :=
  ∃ intentId raw path, hexDecode hash = some raw ∧ path.map Prod.snd = sides size size index ∧
    hexEncode (climb parent (orderingLeaf intentId raw) path) = root

/-- The proof of a seal at a position names the batch of that position. -/
def NamesBatch (db : Database) (hash : Text) (position : Nat) : Prop :=
  ∃ out x, getSealProof db hash = .ok out ∧ db.commitmentAt out.roundId position = some x ∧
    out.position = some position ∧ out.orderingRoot = some x.orderingRoot ∧
    out.orderingCommittedAt = some x.committedAt ∧ out.batchSize = some x.batchSize ∧
    LiesUnder x.orderingRoot hash x.batchSize (position % x.batchSize)

/-- No batch of the round was committed in an earlier second than that of the position, and none before it in the
same second. -/
def CommittedFirst (db : Database) (conditionId : Text) (position : Nat) : Prop :=
  ∃ x, db.commitmentAt conditionId position = some x ∧ ∀ y ∈ db.commitmentsOf conditionId,
    x.committedAt < y.committedAt ∨ x.committedAt = y.committedAt ∧ x.batchId ≤ y.batchId

/-! ### The query -/

lemma earliest_eq_some {rows : List BatchCommitment} (h : rows.Pairwise fun x y => x.batchId < y.batchId)
    {x : BatchCommitment} : earliest rows = some x ↔
      x ∈ rows ∧ ∀ y ∈ rows, x.committedAt < y.committedAt ∨ x.committedAt = y.committedAt ∧ x.batchId ≤ y.batchId := by
  induction rows generalizing x with
  | nil => simp [earliest]
  | cons r rest ih =>
    obtain ⟨hr, hrest⟩ := List.pairwise_cons.mp h
    unfold earliest
    cases he : earliest rest with
    | none =>
      have hnil : rest = [] := by
        cases rest with
        | nil => rfl
        | cons q rest' =>
          unfold earliest at he
          split at he
          · split_ifs at he
          · cases he
      subst hnil
      simp only [Option.some.injEq, List.mem_singleton, forall_eq]
      constructor
      · rintro rfl
        exact ⟨rfl, .inr ⟨rfl, le_rfl⟩⟩
      · rintro ⟨rfl, -⟩
        rfl
    | some e =>
      obtain ⟨hmem, hleast⟩ := (ih hrest).mp he
      have hlt := hr e hmem
      dsimp only
      by_cases hearly : e.committedAt < r.committedAt
      · rw [if_pos hearly, Option.some.injEq]
        constructor
        · rintro rfl
          refine ⟨List.mem_cons_of_mem r hmem, fun y hy => ?_⟩
          rcases List.mem_cons.mp hy with rfl | hy
          · exact .inl hearly
          · exact hleast y hy
        · rintro ⟨hx, hall⟩
          rcases List.mem_cons.mp hx with rfl | hx
          · have := hall e (List.mem_cons_of_mem _ hmem)
            omega
          · exact Option.some.inj (he.symm.trans
              ((ih hrest).mpr ⟨hx, fun y hy => hall y (List.mem_cons_of_mem r hy)⟩))
      · rw [if_neg hearly, Option.some.injEq]
        constructor
        · rintro rfl
          refine ⟨List.mem_cons_self, fun y hy => ?_⟩
          rcases List.mem_cons.mp hy with rfl | hy
          · exact .inr ⟨rfl, le_rfl⟩
          · have hid := hr y hy
            have := hleast y hy
            omega
        · rintro ⟨hx, hall⟩
          rcases List.mem_cons.mp hx with rfl | hx
          · rfl
          · have hid := hr x hx
            have hr' := hall r List.mem_cons_self
            have := hleast x hx
            omega

/-! ### The commitments of a frozen round -/

/-- What is hashed to build the ordering roots of a round. -/
def Frozen.hashed (f : Frozen) : List Bytes :=
  (List.range f.batches).flatMap fun i =>
    ((f.batchEntries i).map fun e => utf8 e.1 ++ 0 :: (hexDecode e.2).getD []) ++
      (treePairs parent (f.leaves i).length (f.leaves i)).map fun x => x.1 ++ x.2

/-- SHA-256 does not collide on the strings hashed for the round. -/
def Frozen.CollisionFree (f : Frozen) : Prop := ∀ x ∈ f.hashed, ∀ y ∈ f.hashed, sha256 x = sha256 y → x = y

instance (f : Frozen) : Decidable f.CollisionFree := by
  unfold Frozen.CollisionFree
  infer_instance

section Frozen

variable {db : Database} {c : Text} {f : Frozen}

lemma batches_lt (h : FrozenAs db c f) {p : Nat} (hp : p < f.entries.length) : p / f.size < f.batches := by
  rw [Nat.div_lt_iff_lt_mul h.size, ← h.full]
  exact hp

lemma batchEntries_length (h : FrozenAs db c f) {i : Nat} (hi : i < f.batches) : (f.batchEntries i).length = f.size := by
  have hroom : i * f.size + f.size ≤ f.batches * f.size := by
    rw [← Nat.succ_mul]
    exact Nat.mul_le_mul_right _ hi
  rw [Frozen.batchEntries, List.length_take, List.length_drop, h.full]
  omega

lemma leaves_length (h : FrozenAs db c f) {i : Nat} (hi : i < f.batches) : (f.leaves i).length = f.size := by
  rw [Frozen.leaves, List.length_map, batchEntries_length h hi]

lemma batchEntries_getElem? (h : FrozenAs db c f) (p : Nat) : (f.batchEntries (p / f.size))[p % f.size]? = f.entries[p]? := by
  rw [Frozen.batchEntries, List.getElem?_take_of_lt (Nat.mod_lt p h.size), List.getElem?_drop, Nat.div_add_mod']

lemma commitments_sorted (h : FrozenAs db c f) : (db.commitmentsOf c).Pairwise fun x y => x.batchId < y.batchId := by
  unfold Database.commitmentsOf
  rw [h.commitments, List.pairwise_map]
  exact List.pairwise_lt_range.imp fun hlt => Nat.add_lt_add_left hlt f.firstBatch

lemma mem_commitmentsOf (h : FrozenAs db c f) {x : BatchCommitment} :
    x ∈ db.commitmentsOf c ↔ ∃ i < f.batches, f.commitment c i = x := by
  unfold Database.commitmentsOf
  rw [h.commitments, List.mem_map]
  simp only [List.mem_range]

lemma find?_range_map {α : Type} {g : Nat → α} {test : α → Bool} {n i : Nat} (hi : i < n)
    (h : ∀ j, test (g j) = true ↔ j = i) : ((List.range n).map g).find? test = some (g i) := by
  rw [List.find?_map, Option.map_eq_some_iff]
  refine ⟨i, ?_, rfl⟩
  rw [List.find?_range_eq_some]
  refine ⟨(h i).mpr rfl, List.mem_range.mpr hi, fun j hj => ?_⟩
  rw [Bool.not_eq_true', ← Bool.not_eq_true]
  exact fun htest => absurd ((h j).mp htest) (Nat.ne_of_lt hj)

lemma commitmentAt_eq (h : FrozenAs db c f) {p : Nat} (hp : p < f.entries.length) :
    db.commitmentAt c p = some (f.commitment c (p / f.size)) := by
  obtain ⟨row, k, hrow, -, hk, hb⟩ := h.condition
  have hi := batches_lt h hp
  have hbatch : ((List.range f.batches).map fun i => (f.firstBatch + i, i)).find? (fun x => x.2 = p / f.size) =
      some (f.firstBatch + p / f.size, p / f.size) :=
    find?_range_map hi fun j => decide_eq_true_iff
  have hrow' : ((List.range f.batches).map (f.commitment c)).find?
      (fun x => x.batchId = f.firstBatch + p / f.size) = some (f.commitment c (p / f.size)) := by
    refine find?_range_map hi fun j => ?_
    rw [decide_eq_true_iff]
    exact Nat.add_left_cancel_iff
  unfold Database.commitmentAt Database.commitmentsOf
  rw [hrow, h.numbered, h.commitments]
  simp only [bind, Option.bind, hk, hb, hbatch, hrow']

lemma leaves_digests (i : Nat) : Digests (f.leaves i) := by
  intro d hd
  obtain ⟨e, -, rfl⟩ := List.mem_map.mp hd
  exact ⟨sha256_length _, sha256_lt _⟩

lemma merkleRoot_climb {leaves : List Bytes} {i : Nat} {d : Bytes} (hi : leaves[i]? = some d) :
    collapse parent leaves.length leaves = [merkleRoot leaves] ∧
      merkleRoot leaves = climb parent d (path parent leaves.length leaves i) := by
  have hclimb := climb_path parent (Nat.le_succ leaves.length) hi
  have hroot : merkleRoot leaves = climb parent d (path parent leaves.length leaves i) := by
    rw [merkleRoot, rootOf, hclimb]
    rfl
  exact ⟨hroot ▸ hclimb, hroot⟩

lemma merkleRoot_digest (h : FrozenAs db c f) {i : Nat} (hi : i < f.batches) :
    collapse parent f.size (f.leaves i) = [merkleRoot (f.leaves i)] ∧ ∀ b ∈ merkleRoot (f.leaves i), b < 256 := by
  have hlength := leaves_length h hi
  have hfirst := List.getElem?_eq_getElem (hlength ▸ h.size : 0 < (f.leaves i).length)
  obtain ⟨hcollapse, hclimb⟩ := merkleRoot_climb hfirst
  refine ⟨hlength ▸ hcollapse, ?_⟩
  rw [hclimb]
  exact (climb_digest (leaves_digests i _ (List.mem_of_getElem? hfirst))).2

lemma liesUnder (h : FrozenAs db c f) {p : Nat} {intentId hash : Text} (hp : f.entries[p]? = some (intentId, hash))
    {wire : Bytes} (hhash : hash = ctHash wire) : LiesUnder (f.orderingRoot (p / f.size)) hash f.size (p % f.size) := by
  have hi := batches_lt h (List.getElem?_eq_some_iff.mp hp).1
  have hraw : hexDecode hash = some (sha256 wire) := by
    rw [hhash]
    exact hexDecode_hexEncode (sha256_lt wire)
  have hlength := leaves_length h hi
  have hleaf : (f.leaves (p / f.size))[p % f.size]? = some (orderingLeaf intentId (sha256 wire)) := by
    rw [Frozen.leaves, List.getElem?_map, batchEntries_getElem? h, hp, Option.map_some, hraw, Option.getD_some]
  obtain ⟨-, hclimb⟩ := merkleRoot_climb hleaf
  refine ⟨intentId, sha256 wire, _, hraw, ?_, congrArg hexEncode hclimb.symm⟩
  have hindex : p % f.size < (f.leaves (p / f.size)).length := hlength.symm ▸ Nat.mod_lt p h.size
  rw [path_sides parent hindex, hlength]

lemma hexEncode_inj {a b : Bytes} (ha : ∀ x ∈ a, x < 256) (hb : ∀ x ∈ b, x < 256) (h : hexEncode a = hexEncode b) :
    a = b := by
  have heq := congrArg hexDecode h
  rw [hexDecode_hexEncode ha, hexDecode_hexEncode hb] at heq
  exact Option.some.inj heq

lemma mem_hashed {i : Nat} (hi : i < f.batches) {x : Bytes}
    (hx : x ∈ (f.batchEntries i).map (fun e => utf8 e.1 ++ 0 :: (hexDecode e.2).getD []) ∨
      x ∈ (treePairs parent (f.leaves i).length (f.leaves i)).map fun x => x.1 ++ x.2) : x ∈ f.hashed :=
  List.mem_flatMap.mpr ⟨i, List.mem_range.mpr hi, List.mem_append.mpr hx⟩

/-- Two batches of a round with the same root are the same batch. -/
theorem orderingRoot_inj (h : FrozenAs db c f) (hhashed : ∀ hash ∈ f.hashes, ∃ wire, hash = ctHash wire)
    (hcol : f.CollisionFree) {i j : Nat} (hi : i < f.batches) (hj : j < f.batches)
    (hroot : f.orderingRoot i = f.orderingRoot j) : i = j := by
  obtain ⟨hci, hbi⟩ := merkleRoot_digest h hi
  obtain ⟨hcj, hbj⟩ := merkleRoot_digest h hj
  have hli := leaves_length h hi
  have hlj := leaves_length h hj
  have hcollapse : collapse parent f.size (f.leaves i) = collapse parent f.size (f.leaves j) := by
    rw [hci, hcj, hexEncode_inj hbi hbj hroot]
  have hpairs : ∀ x ∈ treePairs parent f.size (f.leaves i), ∀ y ∈ treePairs parent f.size (f.leaves j),
      parent x.1 x.2 = parent y.1 y.2 → x = y := by
    intro x hx y hy heq
    have hx' : x.1 ++ x.2 ∈ f.hashed := mem_hashed hi (.inr (hli ▸ List.mem_map_of_mem hx))
    have hy' : y.1 ++ y.2 ∈ f.hashed := mem_hashed hj (.inr (hlj ▸ List.mem_map_of_mem hy))
    exact append_pair_inj (treePairs_length (leaves_digests i) hx) (.inl (treePairs_length (leaves_digests j) hy).1)
      (hcol _ hx' _ hy' heq)
  have hleaves := collapse_inj parent (hli.trans hlj.symm) hpairs hcollapse
  -- the first leaves of the two batches are equal, so their ciphertexts are
  have hentry : ∀ k < f.batches, ∃ e, (f.batchEntries k)[0]? = some e ∧ f.entries[k * f.size]? = some e := by
    intro k hk
    have hlt : 0 < (f.batchEntries k).length := (batchEntries_length h hk).symm ▸ h.size
    refine ⟨_, List.getElem?_eq_getElem hlt, ?_⟩
    have hat := batchEntries_getElem? h (k * f.size)
    rw [Nat.mul_div_cancel k h.size, Nat.mul_mod_left] at hat
    rw [← hat, List.getElem?_eq_getElem hlt]
  obtain ⟨e, he, hei⟩ := hentry i hi
  obtain ⟨e', he', hej⟩ := hentry j hj
  have hleaf : orderingLeaf e.1 ((hexDecode e.2).getD []) = orderingLeaf e'.1 ((hexDecode e'.2).getD []) := by
    have := congrArg (fun l => l[0]?) hleaves
    simpa [Frozen.leaves, List.getElem?_map, he, he'] using this
  have hbuffer := hcol _ (mem_hashed hi (.inl (List.mem_map_of_mem (List.mem_of_getElem? he))))
    _ (mem_hashed hj (.inl (List.mem_map_of_mem (List.mem_of_getElem? he')))) hleaf
  have hmem : ∀ {k : Nat} {e : Text × Text}, f.entries[k]? = some e → e.2 ∈ f.hashes := fun hk =>
    List.mem_map_of_mem (List.mem_of_getElem? hk)
  obtain ⟨wire, hwire⟩ := hhashed e.2 (hmem hei)
  obtain ⟨wire', hwire'⟩ := hhashed e'.2 (hmem hej)
  have hhash : e.2 = e'.2 := by
    rw [hwire, hwire', ctHash, ctHash, hexDecode_hexEncode (sha256_lt wire), hexDecode_hexEncode (sha256_lt wire'),
      Option.getD_some, Option.getD_some] at hbuffer
    obtain ⟨-, htail⟩ := List.append_inj' hbuffer (by simp [sha256_length])
    rw [hwire, hwire', ctHash, ctHash, (List.cons.inj htail).2]
  have hposition : i * f.size = j * f.size := by
    have hi' : f.hashes[i * f.size]? = some e.2 := by rw [Frozen.hashes, List.getElem?_map, hei, Option.map_some]
    have hj' : f.hashes[j * f.size]? = some e.2 := by rw [Frozen.hashes, List.getElem?_map, hej, Option.map_some, hhash]
    obtain ⟨hlt, -⟩ := List.getElem?_eq_some_iff.mp hi'
    exact (List.getElem?_inj hlt h.nodup).mp (hi'.trans hj'.symm)
  exact Nat.eq_of_mul_eq_mul_right h.size hposition

end Frozen

/-! ### Every run -/

section Runs

variable {cfg : EngineConfig} {s : Engine} {x : Ciphertext}

lemma Inv.hashes_hashed (hs : Inv s) {c : Text} {f : Frozen} (h : FrozenAs s.db c f) :
    ∀ hash ∈ f.hashes, ∃ wire, hash = ctHash wire := by
  intro hash hhash
  obtain ⟨pos, hpos⟩ := h.held hash hhash
  exact hs.hashed _ hpos

lemma Inv.getSealProof_ok (hs : Inv s) (hx : x ∈ s.db.ciphertexts) (hreal : x.isDummy = false) {row : Condition}
    (hrow : s.db.conditions x.conditionId = some row) :
    ∃ out, getSealProof s.db x.ctHash = .ok out ∧ out.roundId = x.conditionId ∧ out.position = x.position ∧
      out.orderingRoot = (earliest (s.db.commitmentsOf x.conditionId)).map BatchCommitment.orderingRoot ∧
      out.orderingCommittedAt = (earliest (s.db.commitmentsOf x.conditionId)).map BatchCommitment.committedAt ∧
      out.batchSize = (earliest (s.db.commitmentsOf x.conditionId)).map BatchCommitment.batchSize := by
  have hfind : s.db.ciphertexts.find? (fun c => c.ctHash = x.ctHash ∧ ¬c.isDummy) = some x := by
    cases hf : s.db.ciphertexts.find? (fun c => c.ctHash = x.ctHash ∧ ¬c.isDummy) with
    | none =>
      have := List.find?_eq_none.mp hf x hx
      simp [hreal] at this
    | some y =>
      have htest := List.find?_some hf
      rw [hs.row_unique (List.mem_of_find?_eq_some hf) hx (of_decide_eq_true htest).1]
  obtain ⟨round, hround⟩ : ∃ round, loadRound s.db x.conditionId = .ok round := by
    unfold loadRound
    rw [hrow]
    exact ⟨_, rfl⟩
  unfold getSealProof
  rw [hfind]
  simp only [expect, bind, Except.bind, hround]
  exact ⟨_, rfl, rfl, rfl, rfl, rfl, rfl⟩

/-- In every state a run reaches, the proof of a real seal names the batch of its position exactly when that batch
was committed first. -/
theorem names_batch_iff (es : List Engine.Event) {c : Text} {f : Frozen} {x : Ciphertext} {position : Nat}
    (hf : (exec (Engine.step cfg) Engine.start es).frozen c = some f) (hcol : f.CollisionFree)
    (hx : x ∈ (exec (Engine.step cfg) Engine.start es).db.ciphertexts) (hc : x.conditionId = c)
    (hreal : x.isDummy = false) (hposition : x.position = some position) :
    NamesBatch (exec (Engine.step cfg) Engine.start es).db x.ctHash position ↔
      CommittedFirst (exec (Engine.step cfg) Engine.start es).db c position := by
  subst hc
  have hs := inv_run cfg es
  have h := hs.frozen _ f hf
  obtain ⟨row, k, hrow, -⟩ := h.condition
  have hplaced : (x.ctHash, x.conditionId, x.position) ∈ (exec (Engine.step cfg) Engine.start es).db.placed :=
    List.mem_map_of_mem hx
  have hhash := (h.position_iff hx rfl).mp hposition
  have hlt : position < f.entries.length := by
    have := (List.getElem?_eq_some_iff.mp hhash).1
    rwa [Frozen.hashes, List.length_map] at this
  have hi := batches_lt h hlt
  have hat := commitmentAt_eq h hlt
  obtain ⟨out, hout, hround, hpos, hroot, htime, hsize⟩ := hs.getSealProof_ok hx hreal hrow
  constructor
  · rintro ⟨out', y, hout', hy, -, hroot', -⟩
    obtain rfl := Except.ok.inj (hout.symm.trans hout')
    rw [hround, hat] at hy
    obtain rfl := Option.some.inj hy
    obtain ⟨e, he, heroot⟩ := Option.map_eq_some_iff.mp (hroot.symm.trans hroot')
    obtain ⟨hmem, hleast⟩ := (earliest_eq_some (commitments_sorted h)).mp he
    obtain ⟨j, hj, rfl⟩ := (mem_commitmentsOf h).mp hmem
    obtain rfl := orderingRoot_inj h (hs.hashes_hashed h) hcol hj hi heroot
    exact ⟨_, hat, hleast⟩
  · rintro ⟨y, hy, hleast⟩
    rw [hat] at hy
    obtain rfl := Option.some.inj hy
    have he := (earliest_eq_some (commitments_sorted h)).mpr ⟨(mem_commitmentsOf h).mpr ⟨_, hi, rfl⟩, hleast⟩
    rw [he, Option.map_some] at hroot htime hsize
    refine ⟨out, _, hout, hround.symm ▸ hat, hpos.trans hposition, hroot, htime, hsize, ?_⟩
    have hbatch : (f.commitment x.conditionId (position / f.size)).batchSize = f.size := batchEntries_length h hi
    rw [hbatch]
    rw [Frozen.hashes, List.getElem?_map] at hhash
    obtain ⟨⟨intentId, hash⟩, hentry, rfl⟩ := Option.map_eq_some_iff.mp hhash
    obtain ⟨wire, hwire⟩ := hs.hashed _ hplaced
    exact liesUnder h hentry hwire

end Runs

/-- Two seals in batches of one, the second frozen in the second batch. -/
def twoBatches : List Engine.Event :=
  opened 1 1 ++ [.createSeal ['r'] "AQ==".toList 10 ['a'], .createSeal ['r'] "Ag==".toList 11 ['b'],
    .freezeRead ['r'] 100 0 [], .freezeWrite 101 fun _ => 101]

def twoBatches_end : Engine := exec (Engine.step sampleEngine) Engine.start twoBatches

/-- The seal in the second batch. -/
def secondSeal : Text := ctHash [2]

lemma twoBatches_proof :
    (twoBatches_end.db.ciphertexts.any fun x => x.ctHash = secondSeal && x.conditionId = ['r'] && !x.isDummy &&
        x.position = some 1) = true ∧
      twoBatches_end.db.conditions ['r'] = some { sampleCondition with status := .frozen } ∧
      ((getSealProof twoBatches_end.db secondSeal).toOption.bind SealProof.orderingRoot) ≠
        (twoBatches_end.db.commitmentAt ['r'] 1).map BatchCommitment.orderingRoot ∧
      ((twoBatches_end.frozen ['r']).any fun f => decide f.CollisionFree) = true := by
  decide +kernel

lemma twoBatches_seal : ∃ x ∈ twoBatches_end.db.ciphertexts, x.ctHash = secondSeal ∧ x.conditionId = ['r'] ∧
    x.isDummy = false ∧ x.position = some 1 := by
  obtain ⟨x, hx, htest⟩ := List.any_eq_true.mp twoBatches_proof.1
  simp only [Bool.and_eq_true, decide_eq_true_eq, Bool.not_eq_true'] at htest
  obtain ⟨⟨⟨hhash, hc⟩, hreal⟩, hpos⟩ := htest
  exact ⟨x, hx, hhash, hc, hreal, hpos⟩

/-- A real seal of a frozen round whose proof carries the root of another batch. -/
theorem proof_names_another : ∃ x ∈ twoBatches_end.db.ciphertexts, x.conditionId = ['r'] ∧ x.isDummy = false ∧
    x.position = some 1 ∧ twoBatches_end.db.conditions ['r'] = some { sampleCondition with status := .frozen } ∧
    ¬NamesBatch twoBatches_end.db x.ctHash 1 := by
  obtain ⟨-, hfrozen, hroots, -⟩ := twoBatches_proof
  obtain ⟨x, hx, hhash, hc, hreal, hpos⟩ := twoBatches_seal
  refine ⟨x, hx, hc, hreal, hpos, hfrozen, ?_⟩
  rintro ⟨out, y, hout, hy, -, hroot, -⟩
  have hinv : Inv twoBatches_end := inv_run _ twoBatches
  have hrow : twoBatches_end.db.conditions x.conditionId = some { sampleCondition with status := .frozen } := by
    rw [hc]
    exact hfrozen
  obtain ⟨out', hout', hround, -⟩ := hinv.getSealProof_ok hx hreal hrow
  obtain rfl := Except.ok.inj (hout'.symm.trans hout)
  rw [hround, hc] at hy
  rw [← hhash, hout, hy] at hroots
  exact hroots hroot

theorem names_batch_sample : ∃ x ∈ twoBatches_end.db.ciphertexts,
    (NamesBatch twoBatches_end.db x.ctHash 1 ↔ CommittedFirst twoBatches_end.db ['r'] 1) := by
  obtain ⟨-, -, -, hfree⟩ := twoBatches_proof
  obtain ⟨x, hx, -, hc, hreal, hpos⟩ := twoBatches_seal
  obtain ⟨f, hf, hcol⟩ := (Option.any_eq_true _ _).mp hfree
  unfold twoBatches_end at hf hx ⊢
  exact ⟨x, hx, names_batch_iff twoBatches hf (of_decide_eq_true hcol) hx hc hreal hpos⟩

end Peal.Coordinator
