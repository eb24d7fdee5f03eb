import Peal.Coordinator.Effects

namespace Peal.Coordinator
open Peal.Fallible Peal.Runs

/-! # What a freeze leaves in the tables -/

/-- Where each ciphertext is: its hash, its condition and its position. -/
def Database.placed (db : Database) : List (Text × Text × Option Nat) :=
  db.ciphertexts.map fun c => (c.ctHash, c.conditionId, c.position)

/-- The batches of a condition: their ids and indices. -/
def Database.numbered (db : Database) (conditionId : Text) : List (Nat × Nat) :=
  (db.batches.filter fun x => x.conditionId = conditionId).map fun x => (x.id, x.batchIndex)

def Frozen.hashes (f : Frozen) : List Text := f.entries.map Prod.snd

/-- The tables hold of a condition what its freeze has committed it to. -/
structure FrozenAs (db : Database) (c : Text) (f : Frozen) : Prop where
  size : 0 < f.size
  full : f.entries.length = f.batches * f.size
  nonempty : 0 < f.batches
  nodup : f.hashes.Nodup
  numbered : db.numbered c = (List.range f.batches).map fun i => (f.firstBatch + i, i)
  commitments : db.batchCommitments.filter (fun x => x.conditionId = c) = (List.range f.batches).map (f.commitment c)
  positions : ∀ h pos, (h, c, pos) ∈ db.placed → ∀ p, pos = some p ↔ f.hashes[p]? = some h
  held : ∀ h ∈ f.hashes, ∃ pos, (h, c, pos) ∈ db.placed
  condition : ∃ row k, db.conditions c = some row ∧ row.status ≠ .pending ∧
    db.committee? row.committeeId = some k ∧ k.b = f.size

structure Unfrozen (db : Database) (c : Text) : Prop where
  numbered : db.numbered c = []
  commitments : db.batchCommitments.filter (fun x => x.conditionId = c) = []
  positions : ∀ h pos, (h, c, pos) ∈ db.placed → pos = none
  pending : ∀ row, db.conditions c = some row → row.status = .pending

/-- What a freeze under way may rely on. -/
structure PlanOk (db : Database) (p : Plan) : Prop where
  size : 0 < p.committee.b
  padded : p.ordered.length = paddedSize p.committee.b p.real.length
  real : ∀ x ∈ p.real, ∃ pos, (x.1, p.conditionId, pos) ∈ db.placed
  dummies : ∀ d ∈ p.dummies, ∃ wire, d.1 = ctHash wire
  nodup : (p.real.map Prod.fst).Nodup
  condition : ∃ row, db.conditions p.conditionId = some row ∧ row.status = .pending ∧
    db.committee? row.committeeId = some p.committee

structure Inv (s : Engine) : Prop where
  hashes : (s.db.placed.map Prod.fst).Nodup
  hashed : ∀ x ∈ s.db.placed, ∃ wire, x.1 = ctHash wire
  ids : s.db.batches.map Batch.id = (List.range s.db.batches.length).map (· + 1)
  committed : ∀ x ∈ s.db.batchCommitments, x.batchId ≤ s.db.batches.length
  unfrozen : ∀ c, s.frozen c = none → Unfrozen s.db c
  frozen : ∀ c f, s.frozen c = some f → FrozenAs s.db c f
  plan : ∀ p, s.freezing = some p → PlanOk s.db p

/-! ### The loops of the transaction -/

/-- A row once positions have been assigned from `n` on. -/
def place (ordered : List Text) (n : Nat) (c : Ciphertext) : Ciphertext :=
  if c.ctHash ∈ ordered then { c with position := some (n + ordered.idxOf c.ctHash) } else c

lemma place_same (ordered : List Text) (n : Nat) (c : Ciphertext) :
    ∃ position, place ordered n c = { c with position } := by
  unfold place
  split_ifs
  · exact ⟨_, rfl⟩
  · exact ⟨c.position, rfl⟩

lemma assign_from {ordered : List Text} (h : ordered.Nodup) (n : Nat) (rows : List Ciphertext) :
    (ordered.zipIdx n).foldl (fun rows slot =>
      rows.map fun c => if c.ctHash = slot.1 then { c with position := some slot.2 } else c) rows =
      rows.map (place ordered n) := by
  induction ordered generalizing n rows with
  | nil =>
    have hid : place [] n = id := by
      funext c
      simp [place]
    simp [hid]
  | cons hash rest ih =>
    obtain ⟨hnot, hrest⟩ := List.nodup_cons.mp h
    rw [List.zipIdx_cons, List.foldl_cons, ih hrest, List.map_map]
    apply List.map_congr_left
    intro c _
    simp only [Function.comp_apply]
    by_cases heq : c.ctHash = hash
    · subst heq
      simp [place, hnot]
    · rw [if_neg heq]
      unfold place
      by_cases hmem : c.ctHash ∈ rest
      · rw [if_pos hmem, if_pos (List.mem_cons_of_mem _ hmem), List.idxOf_cons_ne _ (Ne.symm heq)]
        congr 2
        omega
      · rw [if_neg hmem, if_neg (by simp [heq, hmem])]

lemma assignPositions_eq {ordered : List Text} (h : ordered.Nodup) (rows : List Ciphertext) :
    assignPositions rows ordered = rows.map (place ordered 0) :=
  assign_from h 0 rows

lemma record_all {rows : List BatchCommitment} {commitment : Nat → BatchCommitment} {indices : List Nat} {first : Nat}
    (hid : ∀ i, (commitment i).batchId = first + i) (hrows : ∀ x ∈ rows, x.batchId < first) (hnodup : indices.Nodup) :
    indices.foldl (fun rows i => recordCommitment rows (commitment i)) rows = rows ++ indices.map commitment := by
  -- the invariant of the loop: a row is an old one or that of an index already passed
  have hloop : ∀ (is : List Nat) (rows : List BatchCommitment), is.Nodup →
      (∀ x ∈ rows, ∀ i ∈ is, x.batchId ≠ first + i) →
        is.foldl (fun rows i => recordCommitment rows (commitment i)) rows = rows ++ is.map commitment := by
    intro is
    induction is with
    | nil => intro rows _ _; simp
    | cons i is ih =>
      intro rows hnodup hfresh
      obtain ⟨hnot, hrest⟩ := List.nodup_cons.mp hnodup
      have hnone : ¬(rows.any fun x => x.batchId = (commitment i).batchId) = true := by
        intro hany
        obtain ⟨x, hx, heq⟩ := List.any_eq_true.mp hany
        exact hfresh x hx i List.mem_cons_self ((of_decide_eq_true heq).trans (hid i))
      rw [List.foldl_cons, recordCommitment, if_neg hnone, ih _ hrest]
      · rw [List.map_cons, List.append_assoc, List.singleton_append]
      · intro x hx j hj
        rcases List.mem_append.mp hx with hold | hnew
        · exact hfresh x hold j (List.mem_cons_of_mem i hj)
        · obtain rfl := List.mem_singleton.mp hnew
          rw [hid]
          intro heq
          exact hnot ((Nat.add_left_cancel heq) ▸ hj)
  exact hloop indices rows hnodup fun x hx i _ => by
    have := hrows x hx
    omega

/-! ### The transaction -/

section Write

variable {cfg : EngineConfig} {db db' : Database} {p : Plan} {frozenAt : Int} {committedAt : Nat → Int} {f : Frozen}

lemma unplaced {hash : Text} (h : ∀ x ∈ db.ciphertexts, x.ctHash ≠ hash) : ∀ x ∈ db.placed, x.1 ≠ hash := by
  intro x hx
  obtain ⟨c, hc, rfl⟩ := List.mem_map.mp hx
  exact h c hc

lemma paddedSize_eq {b : Nat} (rows : Nat) : ∃ m, 0 < m ∧ paddedSize b rows = m * b :=
  ⟨max ((rows + b - 1) / b) 1, by omega, rfl⟩

lemma Plan.frozen_hashes : (p.frozen cfg db frozenAt committedAt).hashes = p.ordered := by
  simp [Frozen.hashes, Plan.frozen, Function.comp_def]

/-- A slot once the ordered hashes have their positions. -/
def reposition (ordered : List Text) (x : Text × Text × Option Nat) : Text × Text × Option Nat :=
  (x.1, x.2.1, if x.1 ∈ ordered then some (ordered.idxOf x.1) else x.2.2)

lemma ordered_nodup (hp : PlanOk db p) (hdummies : (p.dummies.map Prod.fst).Nodup)
    (hfresh : ∀ d ∈ p.dummies, ∀ x ∈ db.ciphertexts, x.ctHash ≠ d.1) : p.ordered.Nodup := by
  unfold Plan.ordered
  rw [List.map_append]
  refine List.nodup_append.mpr ⟨hp.nodup, hdummies, ?_⟩
  intro a ha b hb heq
  obtain ⟨x, hx, rfl⟩ := List.mem_map.mp ha
  obtain ⟨d, hd, rfl⟩ := List.mem_map.mp hb
  obtain ⟨pos, hpos⟩ := hp.real x hx
  exact unplaced (hfresh d hd) _ hpos heq

/-- The slots of the dummies as they are inserted. -/
def Plan.inserted (p : Plan) : List (Text × Text × Option Nat) := p.dummies.map fun d => (d.1, p.conditionId, none)

lemma freezeWrite_placed (hp : PlanOk db p) (h : freezeWrite cfg db p frozenAt committedAt = .ok (db', f)) :
    db'.placed = (db.placed ++ p.inserted).map (reposition p.ordered) := by
  obtain ⟨-, hdummies, hfresh, hrows, -⟩ := freezeWrite_eq_ok h
  unfold Database.placed Plan.inserted
  rw [hrows, assignPositions_eq (ordered_nodup hp hdummies hfresh), List.map_map]
  simp only [List.map_append, List.map_map]
  congr 1
  · apply List.map_congr_left
    intro c _
    simp only [Function.comp_apply, place, reposition, Nat.zero_add]
    split_ifs
    · rfl
    · rfl
  · apply List.map_congr_left
    intro d _
    simp only [Function.comp_apply, place, reposition, Nat.zero_add]
    split_ifs
    · rfl
    · rfl

lemma ordered_placed (hp : PlanOk db p) {hash : Text} (hhash : hash ∈ p.ordered) :
    ∃ pos, (hash, p.conditionId, pos) ∈ db.placed ++ p.inserted := by
  unfold Plan.ordered at hhash
  rw [List.map_append, List.mem_append] at hhash
  rcases hhash with hreal | hdummy
  · obtain ⟨x, hx, rfl⟩ := List.mem_map.mp hreal
    obtain ⟨pos, hpos⟩ := hp.real x hx
    exact ⟨pos, List.mem_append_left _ hpos⟩
  · obtain ⟨d, hd, rfl⟩ := List.mem_map.mp hdummy
    exact ⟨none, List.mem_append_right _ (List.mem_map.mpr ⟨d, hd, rfl⟩)⟩

lemma inserted_nodup (hnodup : (db.placed.map Prod.fst).Nodup) (hdummies : (p.dummies.map Prod.fst).Nodup)
    (hfresh : ∀ d ∈ p.dummies, ∀ x ∈ db.ciphertexts, x.ctHash ≠ d.1) : ((db.placed ++ p.inserted).map Prod.fst).Nodup := by
  rw [List.map_append]
  refine List.nodup_append.mpr ⟨hnodup, ?_, ?_⟩
  · unfold Plan.inserted
    rw [List.map_map]
    exact hdummies
  · intro a ha b hb heq
    obtain ⟨x, hx, rfl⟩ := List.mem_map.mp ha
    obtain ⟨y, hy, rfl⟩ := List.mem_map.mp hb
    obtain ⟨d, hd, rfl⟩ := List.mem_map.mp hy
    exact unplaced (hfresh d hd) x hx heq

lemma reposition_fst (ordered : List Text) (rows : List (Text × Text × Option Nat)) :
    (rows.map (reposition ordered)).map Prod.fst = rows.map Prod.fst := by
  rw [List.map_map]
  rfl

lemma mem_reposition {ordered : List Text} {rows : List (Text × Text × Option Nat)} {hash c : Text} {pos : Option Nat} :
    (hash, c, pos) ∈ rows.map (reposition ordered) ↔ ∃ pos', (hash, c, pos') ∈ rows ∧
      pos = if hash ∈ ordered then some (ordered.idxOf hash) else pos' := by
  rw [List.mem_map]
  constructor
  · rintro ⟨⟨hash', c', pos'⟩, hx, heq⟩
    simp only [reposition, Prod.mk.injEq] at heq
    obtain ⟨rfl, rfl, rfl⟩ := heq
    exact ⟨pos', hx, rfl⟩
  · rintro ⟨pos', hx, rfl⟩
    exact ⟨(hash, c, pos'), hx, rfl⟩

lemma mem_inserted {hash c : Text} {pos : Option Nat} (h : (hash, c, pos) ∈ p.inserted) :
    c = p.conditionId ∧ pos = none := by
  obtain ⟨d, -, hd⟩ := List.mem_map.mp h
  exact ⟨(congrArg (fun x => x.2.1) hd).symm, (congrArg (fun x => x.2.2) hd).symm⟩

lemma inserted_hashed (hp : PlanOk db p) {x : Text × Text × Option Nat} (h : x ∈ p.inserted) :
    ∃ wire, x.1 = ctHash wire := by
  obtain ⟨d, hd, rfl⟩ := List.mem_map.mp h
  exact hp.dummies d hd

lemma placed_other (hp : PlanOk db p) (hnodup : (db.placed.map Prod.fst).Nodup)
    (h : freezeWrite cfg db p frozenAt committedAt = .ok (db', f)) {c : Text} (hc : c ≠ p.conditionId) {hash : Text}
    {pos : Option Nat} : (hash, c, pos) ∈ db'.placed ↔ (hash, c, pos) ∈ db.placed := by
  obtain ⟨-, hdummies, hfresh, -⟩ := freezeWrite_eq_ok h
  have hall := inserted_nodup hnodup hdummies hfresh
  have hnot : ∀ {pos}, (hash, c, pos) ∈ db.placed → hash ∉ p.ordered := by
    intro pos hmem hhash
    obtain ⟨pos', hpos'⟩ := ordered_placed hp hhash
    have heq := List.inj_on_of_nodup_map hall (List.mem_append_left _ hmem) hpos' rfl
    exact hc (congrArg (fun x => x.2.1) heq)
  rw [freezeWrite_placed hp h]
  constructor
  · intro hmem
    obtain ⟨pos', hx, rfl⟩ := mem_reposition.mp hmem
    rcases List.mem_append.mp hx with hold | hnew
    · rwa [if_neg (hnot hold)]
    · exact absurd (mem_inserted hnew).1 hc
  · intro hmem
    exact mem_reposition.mpr ⟨pos, List.mem_append_left _ hmem, by rw [if_neg (hnot hmem)]⟩

lemma range_filter_batches (f : Frozen) (c c' : Text) (n : Nat) :
    ((List.range n).map (f.batch c)).filter (fun x => x.conditionId = c') =
      if c = c' then (List.range n).map (f.batch c) else [] := by
  split_ifs with h
  · rw [List.filter_eq_self]
    intro x hx
    obtain ⟨i, -, rfl⟩ := List.mem_map.mp hx
    exact decide_eq_true h
  · rw [List.filter_eq_nil_iff]
    intro x hx hx'
    obtain ⟨i, -, rfl⟩ := List.mem_map.mp hx
    exact h (of_decide_eq_true hx')

lemma range_filter_commitments (f : Frozen) (c c' : Text) (n : Nat) :
    ((List.range n).map (f.commitment c)).filter (fun x => x.conditionId = c') =
      if c = c' then (List.range n).map (f.commitment c) else [] := by
  split_ifs with h
  · rw [List.filter_eq_self]
    intro x hx
    obtain ⟨i, -, rfl⟩ := List.mem_map.mp hx
    exact decide_eq_true h
  · rw [List.filter_eq_nil_iff]
    intro x hx hx'
    obtain ⟨i, -, rfl⟩ := List.mem_map.mp hx
    exact h (of_decide_eq_true hx')

lemma freezeWrite_numbered (h : freezeWrite cfg db p frozenAt committedAt = .ok (db', f)) (c : Text) :
    db'.numbered c = db.numbered c ++
      if p.conditionId = c then (List.range f.batches).map fun i => (f.firstBatch + i, i) else [] := by
  obtain ⟨-, -, -, -, hbatches, -⟩ := freezeWrite_eq_ok h
  unfold Database.numbered
  rw [hbatches, List.filter_append, range_filter_batches, List.map_append]
  congr 1
  split_ifs
  · rw [List.map_map]
    rfl
  · rfl

lemma freezeWrite_commitments (hcommitted : ∀ x ∈ db.batchCommitments, x.batchId ≤ db.batches.length)
    (h : freezeWrite cfg db p frozenAt committedAt = .ok (db', f)) :
    db'.batchCommitments = db.batchCommitments ++ (List.range f.batches).map (f.commitment p.conditionId) := by
  obtain ⟨rfl, -, -, -, -, hcommitments, -⟩ := freezeWrite_eq_ok h
  rw [hcommitments]
  refine record_all (fun i => rfl) (fun x hx => ?_) List.nodup_range
  have := hcommitted x hx
  change x.batchId < db.batches.length + 1
  omega

lemma freezeWrite_conditions (h : freezeWrite cfg db p frozenAt committedAt = .ok (db', f)) {c : Text}
    (hc : c ≠ p.conditionId) : db'.conditions c = db.conditions c := by
  obtain ⟨-, -, -, -, -, -, hconditions, -⟩ := freezeWrite_eq_ok h
  rw [hconditions, Database.setStatus_conditions, Function.update_of_ne hc]

/-- The tables hold of a condition what its freeze has just committed it to. -/
theorem freezeWrite_frozenAs
    (hcommitted : ∀ x ∈ db.batchCommitments, x.batchId ≤ db.batches.length) (hp : PlanOk db p)
    (hun : Unfrozen db p.conditionId) (h : freezeWrite cfg db p frozenAt committedAt = .ok (db', f)) :
    FrozenAs db' p.conditionId f := by
  obtain ⟨hf, hdummies, hfresh, -, -, -, hconditions, hcommittees, -⟩ := freezeWrite_eq_ok h
  have hhashes : f.hashes = p.ordered := hf ▸ Plan.frozen_hashes
  have hordered := ordered_nodup hp hdummies hfresh
  have hlength : f.entries.length = p.ordered.length := by rw [← hhashes, Frozen.hashes, List.length_map]
  have hsize : f.size = p.committee.b := by rw [hf]; rfl
  obtain ⟨m, hm, hpadded⟩ := paddedSize_eq (b := p.committee.b) p.real.length
  have hbatches : f.batches = m := by
    unfold Frozen.batches
    rw [hlength, hsize, hp.padded, hpadded]
    exact Nat.mul_div_cancel m hp.size
  refine ⟨hsize ▸ hp.size, ?_, hbatches ▸ hm, hhashes ▸ hordered, ?_, ?_, fun hash pos hmem i => ?_, fun hash hhash => ?_, ?_⟩
  · rw [hlength, hp.padded, hpadded, hbatches, hsize]
  · rw [freezeWrite_numbered h, hun.numbered, if_pos rfl, List.nil_append]
  · rw [freezeWrite_commitments hcommitted h, List.filter_append, hun.commitments, List.nil_append,
      range_filter_commitments, if_pos rfl]
  · rw [freezeWrite_placed hp h] at hmem
    obtain ⟨pos', hx, rfl⟩ := mem_reposition.mp hmem
    rw [hhashes]
    by_cases hin : hash ∈ p.ordered
    · rw [if_pos hin, Option.some.injEq]
      constructor
      · rintro rfl
        exact List.getElem?_idxOf hin
      · intro hi
        obtain ⟨hlt, rfl⟩ := List.getElem?_eq_some_iff.mp hi
        exact hordered.idxOf_getElem i hlt
    · rw [if_neg hin]
      have hnone : pos' = none := by
        rcases List.mem_append.mp hx with hold | hnew
        · exact hun.positions _ _ hold
        · exact (mem_inserted hnew).2
      rw [hnone]
      exact ⟨fun hi => (Option.some_ne_none i hi.symm).elim, fun hi => absurd (List.mem_of_getElem? hi) hin⟩
  · rw [hhashes] at hhash
    obtain ⟨pos, hpos⟩ := ordered_placed hp hhash
    rw [freezeWrite_placed hp h]
    exact ⟨_, List.mem_map_of_mem hpos⟩
  · obtain ⟨row, hrow, -, hk⟩ := hp.condition
    refine ⟨{ row with status := .frozen }, p.committee, ?_, by simp, ?_, hsize.symm⟩
    · rw [hconditions, Database.setStatus_conditions, Function.update_self, hrow]
      rfl
    · unfold Database.committee? at hk ⊢
      rw [hcommittees]
      exact hk

lemma FrozenAs.other {c : Text} {g : Frozen} (hg : FrozenAs db c g) (hp : PlanOk db p) (hc : c ≠ p.conditionId)
    (hnodup : (db.placed.map Prod.fst).Nodup)
    (hcommitted : ∀ x ∈ db.batchCommitments, x.batchId ≤ db.batches.length)
    (h : freezeWrite cfg db p frozenAt committedAt = .ok (db', f)) : FrozenAs db' c g := by
  obtain ⟨row, k, hrow, hstatus, hk, hb⟩ := hg.condition
  obtain ⟨-, -, -, -, -, -, -, hcommittees, -⟩ := freezeWrite_eq_ok h
  refine ⟨hg.size, hg.full, hg.nonempty, hg.nodup, ?_, ?_, fun hash pos hmem => ?_, fun hash hhash => ?_,
    row, k, ?_, hstatus, ?_, hb⟩
  · rw [freezeWrite_numbered h, if_neg (Ne.symm hc), List.append_nil, hg.numbered]
  · rw [freezeWrite_commitments hcommitted h, List.filter_append, range_filter_commitments, if_neg (Ne.symm hc),
      List.append_nil, hg.commitments]
  · exact hg.positions hash pos ((placed_other hp hnodup h hc).mp hmem)
  · obtain ⟨pos, hpos⟩ := hg.held hash hhash
    exact ⟨pos, (placed_other hp hnodup h hc).mpr hpos⟩
  · rw [freezeWrite_conditions h hc, hrow]
  · unfold Database.committee? at hk ⊢
    rw [hcommittees]
    exact hk

lemma Unfrozen.other {c : Text} (hu : Unfrozen db c) (hp : PlanOk db p) (hc : c ≠ p.conditionId)
    (hnodup : (db.placed.map Prod.fst).Nodup)
    (hcommitted : ∀ x ∈ db.batchCommitments, x.batchId ≤ db.batches.length)
    (h : freezeWrite cfg db p frozenAt committedAt = .ok (db', f)) : Unfrozen db' c := by
  refine ⟨?_, ?_, fun hash pos hmem => hu.positions hash pos ((placed_other hp hnodup h hc).mp hmem), fun row hrow => ?_⟩
  · rw [freezeWrite_numbered h, if_neg (Ne.symm hc), List.append_nil, hu.numbered]
  · rw [freezeWrite_commitments hcommitted h, List.filter_append, range_filter_commitments, if_neg (Ne.symm hc),
      List.append_nil, hu.commitments]
  · rw [freezeWrite_conditions h hc] at hrow
    exact hu.pending row hrow

end Write

/-! ### The other events -/

section Quiet

variable {cfg : EngineConfig} {s s' : Engine}

lemma Inv.plan_unfrozen (hs : Inv s) {p : Plan} (hp : PlanOk s.db p) : s.frozen p.conditionId = none := by
  rw [← Option.not_isSome_iff_eq_none]
  intro hsome
  obtain ⟨f, hf⟩ := Option.isSome_iff_exists.mp hsome
  obtain ⟨row, k, hrow, hstatus, -⟩ := (hs.frozen _ f hf).condition
  obtain ⟨row', hrow', hpending, -⟩ := hp.condition
  obtain rfl := Option.some.inj (hrow.symm.trans hrow')
  exact hstatus hpending

lemma Inv.freezeWrite (hs : Inv s) {p : Plan} (hplan : s.freezing = some p) {frozenAt : Int} {committedAt : Nat → Int}
    {db' : Database} {f : Frozen} (h : freezeWrite cfg s.db p frozenAt committedAt = .ok (db', f)) :
    Inv { s with db := db', freezing := none, frozen := Function.update s.frozen p.conditionId (some f) } := by
  have hp := hs.plan p hplan
  obtain ⟨hf, hdummies, hfresh, -, hbatches, -⟩ := freezeWrite_eq_ok h
  have hfirst : f.firstBatch = s.db.batches.length + 1 := by rw [hf]; rfl
  have hlength : db'.batches.length = s.db.batches.length + f.batches := by
    rw [hbatches, List.length_append, List.length_map, List.length_range]
  refine ⟨?_, fun x hx => ?_, ?_, fun x hx => ?_, fun c hc => ?_, fun c g hg => ?_, fun q hq => by cases hq⟩
  · rw [freezeWrite_placed hp h, reposition_fst]
    exact inserted_nodup hs.hashes hdummies hfresh
  · rw [freezeWrite_placed hp h] at hx
    obtain ⟨y, hy, rfl⟩ := List.mem_map.mp hx
    rcases List.mem_append.mp hy with hold | hnew
    · exact hs.hashed y hold
    · obtain ⟨wire, hwire⟩ := inserted_hashed hp hnew
      exact ⟨wire, hwire⟩
  · dsimp only
    rw [hlength, hbatches, List.map_append, hs.ids, List.map_map, List.range_add, List.map_append, List.map_map]
    congr 1
    apply List.map_congr_left
    intro i _
    change f.firstBatch + i = s.db.batches.length + i + 1
    omega
  · dsimp only at hx ⊢
    rw [hlength]
    rw [freezeWrite_commitments hs.committed h] at hx
    rcases List.mem_append.mp hx with hold | hnew
    · have := hs.committed x hold
      omega
    · obtain ⟨i, hi, rfl⟩ := List.mem_map.mp hnew
      have := List.mem_range.mp hi
      change f.firstBatch + i ≤ _
      omega
  · dsimp only at hc
    have hne : c ≠ p.conditionId := by
      rintro rfl
      rw [Function.update_self] at hc
      cases hc
    rw [Function.update_of_ne hne] at hc
    exact (hs.unfrozen c hc).other hp hne hs.hashes hs.committed h
  · dsimp only at hg
    by_cases hne : c = p.conditionId
    · subst hne
      rw [Function.update_self] at hg
      obtain rfl := Option.some.inj hg
      exact freezeWrite_frozenAs hs.committed hp (hs.unfrozen _ (hs.plan_unfrozen hp)) h
    · rw [Function.update_of_ne hne] at hg
      exact (hs.frozen c g hg).other hp hne hs.hashes hs.committed h

/-- What an event that freezes nothing does to the tables of the freeze: conditions keep being pending or not, a
ciphertext at most joins a pending condition, batches only get finalized. -/
structure Quiet (db db' : Database) : Prop where
  conditions : ∀ c row, db.conditions c = some row →
    ∃ status, db'.conditions c = some { row with status } ∧ (status = .pending ↔ row.status = .pending)
  created : ∀ c row, db.conditions c = none → db'.conditions c = some row → row.status = .pending
  committees : ∀ id k, db.committee? id = some k → db'.committee? id = some k
  placed : db'.placed = db.placed ∨ ∃ wire c row, db'.placed = db.placed ++ [(ctHash wire, c, none)] ∧
    (∀ x ∈ db.placed, x.1 ≠ ctHash wire) ∧ db.conditions c = some row ∧ row.status = .pending
  batches : db'.batches.map (fun x => (x.id, x.conditionId, x.batchIndex)) =
    db.batches.map fun x => (x.id, x.conditionId, x.batchIndex)
  commitments : db'.batchCommitments = db.batchCommitments

variable {db db' : Database}

lemma Quiet.mem (hq : Quiet db db') {x : Text × Text × Option Nat} (hx : x ∈ db.placed) : x ∈ db'.placed := by
  rcases hq.placed with heq | ⟨hash, c, row, heq, -⟩
  · rwa [heq]
  · rw [heq]
    exact List.mem_append_left _ hx

lemma Quiet.numbered (hq : Quiet db db') (c : Text) : db'.numbered c = db.numbered c := by
  have hview : ∀ d : Database, d.numbered c =
      ((d.batches.map fun x => (x.id, x.conditionId, x.batchIndex)).filter fun y => y.2.1 = c).map
        fun y => (y.1, y.2.2) := by
    intro d
    unfold Database.numbered
    rw [List.filter_map, List.map_map]
    rfl
  rw [hview, hview, hq.batches]

lemma Quiet.joined (hq : Quiet db db') {hash c : Text} {pos : Option Nat} (hx : (hash, c, pos) ∈ db'.placed) :
    (hash, c, pos) ∈ db.placed ∨ pos = none ∧ ∃ row, db.conditions c = some row ∧ row.status = .pending := by
  rcases hq.placed with heq | ⟨hash', c', row, heq, -, hrow, hpending⟩
  · exact .inl (heq ▸ hx)
  · rw [heq, List.mem_append, List.mem_singleton, Prod.mk.injEq, Prod.mk.injEq] at hx
    rcases hx with hold | ⟨-, rfl, rfl⟩
    · exact .inl hold
    · exact .inr ⟨rfl, row, hrow, hpending⟩

lemma FrozenAs.quiet {c : Text} {f : Frozen} (h : FrozenAs db c f) (hq : Quiet db db') : FrozenAs db' c f := by
  obtain ⟨row, k, hrow, hstatus, hk, hb⟩ := h.condition
  obtain ⟨status, hrow', hsame⟩ := hq.conditions c row hrow
  refine ⟨h.size, h.full, h.nonempty, h.nodup, (hq.numbered c).trans h.numbered, hq.commitments ▸ h.commitments,
    fun hash pos hmem => ?_, fun hash hhash => ?_, _, k, hrow', fun hp => hstatus (hsame.mp hp), hq.committees _ _ hk, hb⟩
  · rcases hq.joined hmem with hold | ⟨-, row', hrow'', hpending⟩
    · exact h.positions hash pos hold
    · obtain rfl := Option.some.inj (hrow.symm.trans hrow'')
      exact absurd hpending hstatus
  · obtain ⟨pos, hpos⟩ := h.held hash hhash
    exact ⟨pos, hq.mem hpos⟩

lemma Unfrozen.quiet {c : Text} (h : Unfrozen db c) (hq : Quiet db db') : Unfrozen db' c := by
  refine ⟨(hq.numbered c).trans h.numbered, hq.commitments ▸ h.commitments, fun hash pos hmem => ?_, fun row hrow => ?_⟩
  · rcases hq.joined hmem with hold | ⟨hnone, -⟩
    · exact h.positions hash pos hold
    · exact hnone
  · cases hold : db.conditions c with
    | none => exact hq.created c row hold hrow
    | some row₀ =>
      obtain ⟨status, hrow', hsame⟩ := hq.conditions c row₀ hold
      obtain rfl := Option.some.inj (hrow.symm.trans hrow')
      exact hsame.mpr (h.pending row₀ hold)

lemma PlanOk.quiet {p : Plan} (h : PlanOk db p) (hq : Quiet db db') : PlanOk db' p := by
  obtain ⟨row, hrow, hpending, hk⟩ := h.condition
  obtain ⟨status, hrow', hsame⟩ := hq.conditions _ row hrow
  refine ⟨h.size, h.padded, fun x hx => ?_, h.dummies, h.nodup, _, hrow', hsame.mpr hpending, hq.committees _ _ hk⟩
  obtain ⟨pos, hpos⟩ := h.real x hx
  exact ⟨pos, hq.mem hpos⟩

lemma Inv.quiet (hs : Inv s) (hq : Quiet s.db s'.db) (hfrozen : s'.frozen = s.frozen)
    (hplan : ∀ p, s'.freezing = some p → PlanOk s.db p) : Inv s' := by
  have hlength : s'.db.batches.length = s.db.batches.length := by
    have := congrArg List.length hq.batches
    simpa using this
  refine ⟨?_, fun x hx => ?_, ?_, fun x hx => ?_, fun c hc => ?_, fun c f hf => ?_, fun p hp => (hplan p hp).quiet hq⟩
  · rcases hq.placed with heq | ⟨wire, c, row, heq, hfresh, -⟩
    · rw [heq]
      exact hs.hashes
    · rw [heq, List.map_append]
      refine List.nodup_append.mpr ⟨hs.hashes, List.nodup_singleton _, fun a ha b hb hab => ?_⟩
      obtain ⟨x, hx, rfl⟩ := List.mem_map.mp ha
      obtain rfl := List.mem_singleton.mp hb
      exact hfresh x hx hab
  · rcases hq.placed with heq | ⟨wire, c, row, heq, -⟩
    · exact hs.hashed x (heq ▸ hx)
    · rw [heq] at hx
      rcases List.mem_append.mp hx with hold | hnew
      · exact hs.hashed x hold
      · obtain rfl := List.mem_singleton.mp hnew
        exact ⟨wire, rfl⟩
  · have hids := congrArg (List.map Prod.fst) hq.batches
    simp only [List.map_map, Function.comp_def] at hids
    rw [hlength]
    exact hids.trans hs.ids
  · rw [hq.commitments] at hx
    rw [hlength]
    exact hs.committed x hx
  · exact (hs.unfrozen c (hfrozen ▸ hc)).quiet hq
  · exact (hs.frozen c f (hfrozen ▸ hf)).quiet hq

/-! ### Every event -/

lemma quiet_same (hconditions : db'.conditions = db.conditions) (hcommittees : db'.committees = db.committees)
    (hciphertexts : db'.ciphertexts = db.ciphertexts) (hbatches : db'.batches = db.batches)
    (hcommitments : db'.batchCommitments = db.batchCommitments) : Quiet db db' where
  conditions c row hrow := ⟨row.status, by rw [hconditions, hrow], Iff.rfl⟩
  created c row hnone hrow := by
    rw [hconditions, hnone] at hrow
    cases hrow
  committees id k hk := by
    unfold Database.committee? at hk ⊢
    rw [hcommittees]
    exact hk
  placed := .inl (by unfold Database.placed; rw [hciphertexts])
  batches := by rw [hbatches]
  commitments := hcommitments

lemma quiet_committee (row : Committee) : Quiet db { db with committees := db.committees ++ [row] } :=
  { @quiet_same db db rfl rfl rfl rfl rfl with
    committees := fun id k hk => by
      unfold Database.committee? at hk ⊢
      rw [List.find?_append, hk]
      rfl }

lemma quiet_insertCondition {id : Text} {row : Condition} (hfresh : db.conditions id = none)
    (hpending : row.status = .pending) : Quiet db (db.insertCondition id row) :=
  { @quiet_same db db rfl rfl rfl rfl rfl with
    conditions := fun c row' hrow => by
      have hne : c ≠ id := by
        rintro rfl
        rw [hfresh] at hrow
        cases hrow
      exact ⟨row'.status, by rw [Database.insertCondition_conditions, Function.update_of_ne hne, hrow], Iff.rfl⟩
    created := fun c row' hnone hrow => by
      rw [Database.insertCondition_conditions] at hrow
      by_cases hc : c = id
      · subst hc
        rw [Function.update_self] at hrow
        obtain rfl := Option.some.inj hrow
        exact hpending
      · rw [Function.update_of_ne hc, hnone] at hrow
        cases hrow }

lemma quiet_setStatus {id : Text} {status : Status}
    (hsame : ∀ row, db.conditions id = some row → (status = .pending ↔ row.status = .pending)) :
    Quiet db (db.setStatus id status) :=
  { @quiet_same db db rfl rfl rfl rfl rfl with
    conditions := fun c row hrow => by
      rw [Database.setStatus_conditions]
      by_cases hc : c = id
      · subst hc
        exact ⟨status, by rw [Function.update_self, hrow]; rfl, hsame row hrow⟩
      · exact ⟨row.status, by rw [Function.update_of_ne hc, hrow], Iff.rfl⟩
    created := fun c row hnone hrow => by
      rw [Database.setStatus_conditions] at hrow
      by_cases hc : c = id
      · subst hc
        rw [Function.update_self, hnone] at hrow
        cases hrow
      · rw [Function.update_of_ne hc, hnone] at hrow
        cases hrow }

lemma quiet_insertSeal {c : Text} {row : Condition} (hrow : db.conditions c = some row) (hpending : row.status = .pending)
    (wire blob : Bytes) (now : Int) (code : Text) : Quiet db (insertSeal db (ctHash wire) c blob now code) := by
  rcases @insertSeal_cases db (ctHash wire) c blob now code with ⟨-, heq⟩ | ⟨hfresh, heq⟩
  · rw [heq]
    exact quiet_same rfl rfl rfl rfl rfl
  · rw [heq]
    exact { @quiet_same db db rfl rfl rfl rfl rfl with
      placed := .inr ⟨wire, c, row, by simp [Database.placed], unplaced hfresh, hrow, hpending⟩ }

lemma insertShare_same (x : Submission) (now : Int) : ∃ shares, insertShare db x now = { db with shares } := by
  unfold insertShare
  split_ifs
  · exact ⟨_, rfl⟩
  · exact ⟨_, rfl⟩

lemma quiet_coded {rows : List Ciphertext} (hq : Quiet db db')
    (h : rows.map Ciphertext.uncoded = db'.ciphertexts.map Ciphertext.uncoded) :
    Quiet db { db' with ciphertexts := rows } := by
  have hplaced : Database.placed { db' with ciphertexts := rows } = db'.placed := by
    have hview := congrArg (List.map fun x : Ciphertext => (x.ctHash, x.conditionId, x.position)) h
    rwa [List.map_map, List.map_map] at hview
  exact ⟨hq.conditions, hq.created, hq.committees, hplaced ▸ hq.placed, hq.batches, hq.commitments⟩

lemma quiet_markFinalized (db : Database) (batchId : Nat) (now : Int) : Quiet db (markFinalized db batchId now) := by
  refine { @quiet_same db db rfl rfl rfl rfl rfl with batches := ?_ }
  unfold markFinalized
  rw [List.map_map]
  apply List.map_congr_left
  intro x _
  simp only [Function.comp_apply]
  split_ifs
  · rfl
  · rfl

lemma quiet_storeReveal {c : Text} {now : Int} {reveal : Reveal} (h : assembleReveal db c now = .ok reveal) :
    Quiet db ((storeReveal db c reveal).setStatus c .revealed) := by
  obtain ⟨row, slots, hrow, hstatus, -⟩ := assembleReveal_ok h
  have hq : Quiet db (db.setStatus c .revealed) := by
    refine quiet_setStatus fun row' hrow' => ?_
    obtain rfl := Option.some.inj (hrow.symm.trans hrow')
    rcases hstatus with hs | hs
    · simp [hs]
    · simp [hs]
  exact ⟨hq.conditions, hq.created, hq.committees, hq.placed, hq.batches, hq.commitments⟩

lemma quiet_markStalled (now : Int) : Quiet db (markStalled cfg db now) :=
  { @quiet_same db db rfl rfl rfl rfl rfl with
    conditions := fun c row hrow => by
      unfold markStalled
      dsimp only
      rw [hrow, Option.map_some]
      split_ifs with hstall
      · exact ⟨.stalled, rfl, by simp [hstall.1]⟩
      · exact ⟨row.status, rfl, Iff.rfl⟩
    created := fun c row hnone hrow => by
      unfold markStalled at hrow
      dsimp only at hrow
      rw [hnone] at hrow
      cases hrow }

lemma freezeRead_ok (hnodup : (db.placed.map Prod.fst).Nodup) {c : Text} {drawn : List Bytes} {p : Plan}
    (h : freezeRead db c drawn = .ok p) : PlanOk db p ∧ p.conditionId = c ∧
      (p.real.map Prod.fst).Perm ((db.rowsOf c).map Ciphertext.ctHash) := by
  simp only [freezeRead, bind_eq_ok, expect_eq_ok, require_eq_ok, pure_eq_ok] at h
  obtain ⟨row, hrow, ⟨⟩, hpending, k, hk, ⟨⟩, ⟨hb, hpad⟩, rfl⟩ := h
  have hreal : (byHash ((db.rowsOf c).map fun x => (x.ctHash, x.sealedBlob))).Perm
      ((db.rowsOf c).map fun x => (x.ctHash, x.sealedBlob)) := List.perm_insertionSort _ _
  have hdummies : (byHash (drawn.map fun wire => (ctHash wire, wire))).length = drawn.length := by
    rw [byHash, List.length_insertionSort, List.length_map]
  have hlength := hreal.length_eq
  rw [List.length_map] at hlength
  have hhashes : ((byHash ((db.rowsOf c).map fun x => (x.ctHash, x.sealedBlob))).map Prod.fst).Perm
      ((db.rowsOf c).map Ciphertext.ctHash) := by
    have := hreal.map Prod.fst
    rwa [List.map_map] at this
  refine ⟨⟨hb, ?_, fun x hx => ?_, fun d hd => ?_, ?_, row, hrow, hpending, hk⟩, rfl, hhashes⟩
  · unfold Plan.ordered
    dsimp only
    rw [List.length_map, List.length_append, hdummies, hlength]
    exact hpad
  · obtain ⟨y, hy, rfl⟩ := List.mem_map.mp (hreal.mem_iff.mp hx)
    obtain ⟨hmem, hc⟩ := List.mem_filter.mp hy
    refine ⟨y.position, ?_⟩
    have hslot := List.mem_map_of_mem (f := fun c : Ciphertext => (c.ctHash, c.conditionId, c.position)) hmem
    rwa [of_decide_eq_true hc] at hslot
  · obtain ⟨wire, -, rfl⟩ := List.mem_map.mp ((List.mem_insertionSort _).mp hd)
    exact ⟨wire, rfl⟩
  · refine hhashes.nodup_iff.mpr ?_
    have hsub : ((db.rowsOf c).map Ciphertext.ctHash).Sublist (db.placed.map Prod.fst) := by
      unfold Database.placed Database.rowsOf
      rw [List.map_map]
      exact List.filter_sublist.map _
    exact hnodup.sublist hsub

lemma complete_same (x : Submission) : ∃ completed, s.complete x = { s with completed } := by
  unfold Engine.complete
  split_ifs
  · exact ⟨_, rfl⟩
  · exact ⟨_, rfl⟩

lemma step_cases_freeze {e : Engine.Event} (hs : Inv s) (h : Engine.step cfg s e = .ok s') :
    (Quiet s.db s'.db ∧ s'.frozen = s.frozen ∧ ∀ p, s'.freezing = some p → PlanOk s.db p) ∨
      ∃ frozenAt committedAt p db f, e = .freezeWrite frozenAt committedAt ∧ s.freezing = some p ∧
        freezeWrite cfg s.db p frozenAt committedAt = .ok (db, f) ∧
        s' = { s with db, freezing := none, frozen := Function.update s.frozen p.conditionId (some f) } := by
  cases step_effect h with
  | registerCommittee row _ => exact .inl ⟨quiet_committee row, rfl, hs.plan⟩
  | createCondition id row hfresh hpending => exact .inl ⟨quiet_insertCondition hfresh hpending, rfl, hs.plan⟩
  | submitCiphertext c _ now code _ wire blob row rows _ hrow hpending hcoded _ =>
    exact .inl ⟨quiet_coded (quiet_insertSeal hrow hpending wire blob now code) hcoded, rfl, hs.plan⟩
  | createSeal c _ now code wire blob row _ hrow hpending =>
    exact .inl ⟨quiet_insertSeal hrow hpending wire blob now code, rfl, hs.plan⟩
  | freezeRead c _ _ drawn p _ hplanned =>
    refine .inl ⟨quiet_same rfl rfl rfl rfl rfl, rfl, fun q hq => ?_⟩
    obtain rfl := Option.some.inj hq
    exact (freezeRead_ok hs.hashes hplanned).1
  | freezeWrite frozenAt committedAt p db f hp hok =>
    exact .inr ⟨frozenAt, committedAt, p, db, f, rfl, hp, hok, rfl⟩
  | freezeFailed => exact .inl ⟨quiet_same rfl rfl rfl rfl rfl, rfl, fun q hq => by cases hq⟩
  | shareKnown _ _ _ x =>
    obtain ⟨completed, heq⟩ := complete_same (s := s) x
    rw [heq]
    exact .inl ⟨quiet_same rfl rfl rfl rfl rfl, rfl, hs.plan⟩
  | shareWrite i now x _ =>
    obtain ⟨completed, heq⟩ :=
      complete_same (s := { s with db := insertShare s.db x now, submissions := s.submissions.eraseIdx i }) x
    obtain ⟨shares, hdb⟩ := @insertShare_same s.db x now
    rw [heq, hdb]
    exact .inl ⟨quiet_same rfl rfl rfl rfl rfl, rfl, hs.plan⟩
  | finalizeBatch batchId _ now db _ hok =>
    obtain ⟨batch, k, -, -, -, -, -, rfl⟩ := finalizeBatch_ok hok
    have hq := quiet_markFinalized s.db batchId now
    exact .inl ⟨⟨hq.conditions, hq.created, hq.committees, hq.placed, hq.batches, hq.commitments⟩, rfl, hs.plan⟩
  | buildReveal c now reveal _ hok => exact .inl ⟨quiet_storeReveal hok, rfl, hs.plan⟩
  | markStalled now => exact .inl ⟨quiet_markStalled now, rfl, hs.plan⟩
  | crash => exact .inl ⟨quiet_same rfl rfl rfl rfl rfl, rfl, fun q hq => by cases hq⟩
  | finalizeTorn batchId now => exact .inl ⟨quiet_markFinalized s.db batchId now, rfl, fun q hq => by cases hq⟩
  | revealTorn => exact .inl ⟨quiet_same rfl rfl rfl rfl rfl, rfl, fun q hq => by cases hq⟩
  | _ => exact .inl ⟨quiet_same rfl rfl rfl rfl rfl, rfl, hs.plan⟩

theorem Inv.step {e : Engine.Event} (hs : Inv s) (h : Engine.step cfg s e = .ok s') : Inv s' := by
  rcases step_cases_freeze hs h with ⟨hquiet, hfrozen, hplan⟩ | ⟨_, _, p, db, f, -, hp, hok, rfl⟩
  · exact hs.quiet hquiet hfrozen hplan
  · exact hs.freezeWrite hp hok

lemma inv_start : Inv Engine.start where
  hashes := List.nodup_nil
  hashed x hx := absurd hx List.not_mem_nil
  ids := rfl
  committed x hx := absurd hx List.not_mem_nil
  unfrozen c _ := ⟨rfl, rfl, fun h pos hmem => absurd hmem List.not_mem_nil, fun row hrow => by cases hrow⟩
  frozen c f hf := by cases hf
  plan p hp := by cases hp

theorem inv_run (cfg : EngineConfig) (es : List Engine.Event) : Inv (exec (Engine.step cfg) Engine.start es) :=
  exec_invariant (Engine.step cfg) (fun _ _ _ hs h => hs.step h) inv_start es

end Quiet

/-! ### Rows and positions -/

section Rows

variable {s : Engine} {c : Text} {f : Frozen}

lemma Inv.rows_nodup (hs : Inv s) : s.db.ciphertexts.Nodup := by
  have hnodup := hs.hashes
  unfold Database.placed at hnodup
  rw [List.map_map] at hnodup
  exact hnodup.of_map

lemma Inv.row_unique (hs : Inv s) {x y : Ciphertext} (hx : x ∈ s.db.ciphertexts) (hy : y ∈ s.db.ciphertexts)
    (h : x.ctHash = y.ctHash) : x = y := by
  have hnodup := hs.hashes
  unfold Database.placed at hnodup
  rw [List.map_map] at hnodup
  exact List.inj_on_of_nodup_map hnodup hx hy h

lemma FrozenAs.position_iff {db : Database} (h : FrozenAs db c f) {x : Ciphertext} (hx : x ∈ db.ciphertexts)
    (hc : x.conditionId = c) {p : Nat} : x.position = some p ↔ f.hashes[p]? = some x.ctHash := by
  have hplaced : (x.ctHash, x.conditionId, x.position) ∈ db.placed := List.mem_map_of_mem hx
  rw [hc] at hplaced
  exact h.positions _ _ hplaced p

lemma FrozenAs.row_at {db : Database} (h : FrozenAs db c f) {p : Nat} {hash : Text} (hp : f.hashes[p]? = some hash) :
    ∃ x ∈ db.ciphertexts, x.conditionId = c ∧ x.ctHash = hash ∧ x.position = some p := by
  obtain ⟨pos, hpos⟩ := h.held hash (List.mem_of_getElem? hp)
  obtain ⟨x, hx, heq⟩ := List.mem_map.mp hpos
  obtain ⟨rfl, hrest⟩ := Prod.mk.inj heq
  obtain ⟨rfl, -⟩ := Prod.mk.inj hrest
  exact ⟨x, hx, rfl, rfl, (h.position_iff hx rfl).mpr hp⟩

lemma hashes_length (f : Frozen) : f.hashes.length = f.entries.length := List.length_map _

lemma FrozenAs.position_lt {db : Database} (h : FrozenAs db c f) (p : Nat) :
    p < f.entries.length ↔ ∃ x ∈ db.ciphertexts, x.conditionId = c ∧ x.position = some p := by
  rw [← hashes_length]
  constructor
  · intro hp
    obtain ⟨x, hx, hc, -, hpos⟩ := h.row_at (List.getElem?_eq_getElem hp)
    exact ⟨x, hx, hc, hpos⟩
  · rintro ⟨x, hx, hc, hpos⟩
    exact (List.getElem?_eq_some_iff.mp ((h.position_iff hx hc).mp hpos)).1

lemma Inv.batch_unique (hs : Inv s) {x y : Batch} (hx : x ∈ s.db.batches) (hy : y ∈ s.db.batches) (h : x.id = y.id) :
    x = y := by
  have hnodup : (s.db.batches.map Batch.id).Nodup := by
    rw [hs.ids]
    exact List.nodup_range.map fun a b hab => Nat.succ.inj hab
  exact List.inj_on_of_nodup_map hnodup hx hy h

end Rows

end Peal.Coordinator
