import Peal.Coordinator.Freeze

namespace Peal.Coordinator
open Peal.Fallible Peal.Runs

/-! # Whether valid shares open a batch

A row of `shares` is kept under its batch and operator whatever its verdict, and the first row stays. -/

namespace Engine

/-- The operators whose valid shares of a batch have been brought to an answer. -/
def heardOf (s : Engine) (batchId : Nat) : Finset Nat :=
  ((s.completed.filter fun x => x.1 = batchId).map Prod.snd).toFinset

/-- Every valid share is stored as one, and enough operators can open a batch. -/
structure Heard (s : Engine) : Prop where
  stored : ∀ x ∈ s.completed, ∃ y ∈ s.db.shares, y.batchId = x.1 ∧ y.operatorId = x.2 ∧ y.verified = true
  finalizable : ∀ batch ∈ s.db.batches, batch.finalizedAt = none → ∀ k, batchCommittee s.db batch = some k →
    k.t ≤ (s.heardOf batch.id).card → batch.id ∈ ready s.db ∧
      (combinedShares s.db batch.id k.t).length = k.t ∧
      ∀ recovered now, recovered.length = (batchCts s.db batch k.b).length →
        ∃ db, finalizeBatch s.db batch.id recovered now = .ok db

/-- A valid share finds no invalid row under its batch and operator. -/
def Unspoiled (cfg : EngineConfig) (s : Engine) : Event → Prop
  | .shareRead batchId operatorId shareB64 => ∀ x y, readShare cfg s.db batchId operatorId shareB64 = .ok (x, some y) →
      x.verified = true → y.verified = true
  | .shareWrite i _ => ∀ x, s.submissions[i]? = some x → x.verified = true →
      ∀ y ∈ s.db.shares, y.batchId = x.batchId → y.operatorId = x.operatorId → y.verified = true
  | _ => True

end Engine

/-- The primary key of `shares`. -/
def OnePerOperator (s : Engine) : Prop := (s.db.shares.map fun y => (y.batchId, y.operatorId)).Nodup

section Step

variable {cfg : EngineConfig} {s s' : Engine} {db db' : Database}

lemma insertSeal_shares (hash c : Text) (blob : Bytes) (now : Int) (code : Text) :
    (insertSeal db hash c blob now code).shares = db.shares := by
  rcases @insertSeal_cases db hash c blob now code with ⟨-, heq⟩ | ⟨-, heq⟩
  · rw [heq]
  · rw [heq]

lemma step_cases_shares {e : Engine.Event} (h : Engine.step cfg s e = .ok s') :
    (s'.db.shares = s.db.shares ∧ s'.completed = s.completed ∧ Engine.Unspoiled cfg s e) ∨
      (∃ batchId operatorId b64 x y, e = .shareRead batchId operatorId b64 ∧
        readShare cfg s.db batchId operatorId b64 = .ok (x, some y) ∧ s' = s.complete x) ∨
      ∃ i now x, e = .shareWrite i now ∧ s.submissions[i]? = some x ∧
        s' = { s with db := insertShare s.db x now, submissions := s.submissions.eraseIdx i }.complete x := by
  cases step_effect h with
  | submitCiphertext c _ now code _ wire blob => exact .inl ⟨insertSeal_shares (ctHash wire) c blob now code, rfl, trivial⟩
  | createSeal c _ now code wire blob => exact .inl ⟨insertSeal_shares (ctHash wire) c blob now code, rfl, trivial⟩
  | freezeWrite frozenAt committedAt p db f _ hok =>
    obtain ⟨-, -, -, -, -, -, -, -, -, hshares, -⟩ := freezeWrite_eq_ok hok
    exact .inl ⟨hshares, rfl, trivial⟩
  | shareKnown batchId operatorId b64 x y hread => exact .inr (.inl ⟨batchId, operatorId, b64, x, y, rfl, hread, rfl⟩)
  | shareRead batchId operatorId b64 x hread =>
    refine .inl ⟨rfl, rfl, fun x' y hread' => ?_⟩
    cases hread'.symm.trans hread
  | shareWrite i now x hx => exact .inr (.inr ⟨i, now, x, rfl, hx, rfl⟩)
  | finalizeBatch batchId _ now db _ hok =>
    obtain ⟨batch, k, -, -, -, -, -, rfl⟩ := finalizeBatch_ok hok
    exact .inl ⟨rfl, rfl, trivial⟩
  | _ => exact .inl ⟨rfl, rfl, trivial⟩

lemma unspoiled_of_refused {e : Engine.Event} {u : Unit} (h : Engine.step cfg s e = .error u) :
    Engine.Unspoiled cfg s e := by
  cases e with
  | shareRead batchId operatorId b64 =>
    intro x y hread
    simp only [Engine.step, hread] at h
    cases h
  | shareWrite i now =>
    intro x hx
    simp only [Engine.step, hx, expect, bind, Except.bind, pure, Except.pure] at h
    cases h
  | _ => trivial

lemma insertShare_cases (db : Database) (x : Submission) (now : Int) :
    (∃ y ∈ db.shares, y.batchId = x.batchId ∧ y.operatorId = x.operatorId) ∧ insertShare db x now = db ∨
      (∀ y ∈ db.shares, ¬(y.batchId = x.batchId ∧ y.operatorId = x.operatorId)) ∧ insertShare db x now =
        { db with shares := db.shares ++ [⟨x.batchId, x.operatorId, x.shareBlob, x.verified, now⟩] } := by
  unfold insertShare
  split_ifs with h
  · obtain ⟨y, hy, htest⟩ := List.any_eq_true.mp h
    simp only [Bool.and_eq_true, decide_eq_true_eq] at htest
    exact .inl ⟨⟨y, hy, htest⟩, rfl⟩
  · refine .inr ⟨fun y hy hkey => h (List.any_eq_true.mpr ⟨y, hy, ?_⟩), rfl⟩
    simpa using hkey

lemma complete_db (x : Submission) : (s.complete x).db = s.db := by
  unfold Engine.complete
  split_ifs
  · rfl
  · rfl

lemma complete_completed (x : Submission) :
    (s.complete x).completed = s.completed ++ if x.verified then [(x.batchId, x.operatorId)] else [] := by
  unfold Engine.complete
  split_ifs
  · rfl
  · exact (List.append_nil _).symm

lemma OnePerOperator.step {e : Engine.Event} (hs : OnePerOperator s) (h : Engine.step cfg s e = .ok s') :
    OnePerOperator s' := by
  unfold OnePerOperator at hs ⊢
  rcases step_cases_shares h with ⟨hshares, -⟩ | ⟨_, _, _, x, _, -, -, rfl⟩ | ⟨i, now, x, -, -, rfl⟩
  · rwa [hshares]
  · rwa [complete_db]
  · rw [complete_db]
    dsimp only
    rcases insertShare_cases s.db x now with ⟨-, heq⟩ | ⟨hfresh, heq⟩
    · rwa [heq]
    · rw [heq, List.map_append]
      refine List.nodup_append.mpr ⟨hs, List.nodup_singleton _, fun a ha b hb hab => ?_⟩
      obtain ⟨y, hy, rfl⟩ := List.mem_map.mp ha
      obtain rfl := List.mem_singleton.mp hb
      exact hfresh y hy (Prod.mk.inj hab)

/-! ### Enough stored shares open a batch -/

lemma card_le_verifiedShares {batchId : Nat} {operators : Finset Nat}
    (h : ∀ o ∈ operators, ∃ y ∈ db.shares, y.batchId = batchId ∧ y.operatorId = o ∧ y.verified = true) :
    operators.card ≤ (verifiedShares db batchId).length := by
  have hsub : operators ⊆ ((verifiedShares db batchId).map Share.operatorId).toFinset := by
    intro o ho
    obtain ⟨y, hy, hbatch, rfl, hverified⟩ := h o ho
    refine List.mem_toFinset.mpr (List.mem_map_of_mem (List.mem_filter.mpr ⟨hy, ?_⟩))
    simp [hbatch, hverified]
  calc operators.card ≤ ((verifiedShares db batchId).map Share.operatorId).toFinset.card := Finset.card_le_card hsub
    _ ≤ ((verifiedShares db batchId).map Share.operatorId).length := List.toFinset_card_le _
    _ = (verifiedShares db batchId).length := List.length_map _

lemma Inv.finalizable (hs : Inv s) {batch : Batch} (hbatch : batch ∈ s.db.batches) (hopen : batch.finalizedAt = none)
    {k : Committee} (hk : batchCommittee s.db batch = some k) (h : k.t ≤ (verifiedShares s.db batch.id).length) :
    batch.id ∈ ready s.db ∧ (combinedShares s.db batch.id k.t).length = k.t ∧
      ∀ recovered now, recovered.length = (batchCts s.db batch k.b).length →
        ∃ db, finalizeBatch s.db batch.id recovered now = .ok db := by
  have hready : batch.id ∈ ready s.db := by
    refine List.mem_map_of_mem (List.mem_filter.mpr ⟨hbatch, ?_⟩)
    simp [hopen, hk, h]
  refine ⟨hready, ?_, fun recovered now hlength => ?_⟩
  · rw [combinedShares, List.length_take, List.length_insertionSort, min_eq_left h]
  · have hfind : s.db.batches.find? (fun x => x.id = batch.id) = some batch := by
      cases hf : s.db.batches.find? (fun x => x.id = batch.id) with
      | none =>
        have := List.find?_eq_none.mp hf batch hbatch
        simp at this
      | some y =>
        have hid := List.find?_some hf
        rw [hs.batch_unique (List.mem_of_find?_eq_some hf) hbatch (of_decide_eq_true hid)]
    unfold finalizeBatch
    rw [hfind]
    simp only [require, expect, bind, Except.bind, hready, hk, hlength, if_true, pure, Except.pure]
    exact ⟨_, rfl⟩

lemma Inv.heard (hs : Inv s)
    (h : ∀ x ∈ s.completed, ∃ y ∈ s.db.shares, y.batchId = x.1 ∧ y.operatorId = x.2 ∧ y.verified = true) : s.Heard := by
  refine ⟨h, fun batch hbatch hopen k hk hcard => hs.finalizable hbatch hopen hk (hcard.trans ?_)⟩
  apply card_le_verifiedShares
  intro o ho
  obtain ⟨x, hx, rfl⟩ := List.mem_map.mp (List.mem_toFinset.mp ho)
  obtain ⟨hmem, hid⟩ := List.mem_filter.mp hx
  obtain ⟨y, hy, hbatch', hop, hverified⟩ := h x hmem
  exact ⟨y, hy, hbatch'.trans (of_decide_eq_true hid), hop, hverified⟩

/-! ### Every event -/

lemma OnePerOperator.unique (hs : OnePerOperator s) {y z : Share} (hy : y ∈ s.db.shares) (hz : z ∈ s.db.shares)
    (hbatch : y.batchId = z.batchId) (hoperator : y.operatorId = z.operatorId) : y = z :=
  List.inj_on_of_nodup_map hs hy hz (Prod.ext hbatch hoperator)

lemma readShare_found {batchId operatorId : Nat} {b64 : Text} {x : Submission} {y : Share}
    (h : readShare cfg db batchId operatorId b64 = .ok (x, some y)) :
    y ∈ db.shares ∧ y.batchId = x.batchId ∧ y.operatorId = x.operatorId := by
  simp only [readShare, bind_eq_ok, expect_eq_ok, require_eq_ok, pure_eq_ok, Prod.mk.injEq] at h
  obtain ⟨blob, -, index, -, ⟨⟩, -, batch, -, row, -, k, -, rfl, hfound⟩ := h
  have hkey := List.find?_some hfound
  exact ⟨List.mem_of_find?_eq_some hfound, of_decide_eq_true hkey⟩

lemma Inv.complete_heard_iff {x : Submission} (hs : Inv (s.complete x))
    (hstored : ∀ z ∈ s.completed, ∃ y ∈ s.db.shares, y.batchId = z.1 ∧ y.operatorId = z.2 ∧ y.verified = true) :
    (s.complete x).Heard ↔ (x.verified = true →
      ∃ y ∈ s.db.shares, y.batchId = x.batchId ∧ y.operatorId = x.operatorId ∧ y.verified = true) := by
  constructor
  · intro h hverified
    have hmem : (x.batchId, x.operatorId) ∈ (s.complete x).completed := by
      rw [complete_completed, if_pos hverified]
      exact List.mem_append_right _ List.mem_cons_self
    have hrow := h.stored _ hmem
    rwa [complete_db] at hrow
  · intro h
    refine hs.heard fun z hz => ?_
    rw [complete_db]
    rw [complete_completed] at hz
    rcases List.mem_append.mp hz with hold | hnew
    · exact hstored z hold
    · split_ifs at hnew with hverified
      · obtain rfl := List.mem_singleton.mp hnew
        exact h hverified
      · exact absurd hnew List.not_mem_nil

lemma OnePerOperator.insertShare_iff (hs : OnePerOperator s) {x : Submission} {now : Int} (hverified : x.verified = true) :
    (∃ y ∈ (insertShare s.db x now).shares, y.batchId = x.batchId ∧ y.operatorId = x.operatorId ∧ y.verified = true) ↔
      ∀ y ∈ s.db.shares, y.batchId = x.batchId → y.operatorId = x.operatorId → y.verified = true := by
  rcases insertShare_cases s.db x now with ⟨⟨y, hy, hbatch, hoperator⟩, heq⟩ | ⟨hfresh, heq⟩
  · rw [heq]
    constructor
    · rintro ⟨z, hz, hzbatch, hzoperator, hz'⟩ w hw hwbatch hwoperator
      rw [hs.unique hw hz (hwbatch.trans hzbatch.symm) (hwoperator.trans hzoperator.symm)]
      exact hz'
    · intro h
      exact ⟨y, hy, hbatch, hoperator, h y hy hbatch hoperator⟩
  · rw [heq]
    constructor
    · intro _ w hw hwbatch hwoperator
      exact absurd ⟨hwbatch, hwoperator⟩ (hfresh w hw)
    · intro _
      exact ⟨_, List.mem_append_right _ List.mem_cons_self, rfl, rfl, hverified⟩

/-- An event keeps the valid shares stored exactly when its own, if valid, finds no invalid row in its place. -/
theorem heard_step_iff (hs : Inv s ∧ OnePerOperator s) (hheard : s.Heard) {e : Engine.Event} :
    (advance (Engine.step cfg) s e).Heard ↔ Engine.Unspoiled cfg s e := by
  have hinv : Inv (advance (Engine.step cfg) s e) := advance_induct (Engine.step cfg) hs.1 fun s' h => hs.1.step h
  unfold advance at hinv ⊢
  cases h : Engine.step cfg s e with
  | error u => exact iff_of_true hheard (unspoiled_of_refused h)
  | ok s' =>
    rw [h] at hinv
    dsimp only at hinv ⊢
    rcases step_cases_shares h with ⟨hshares, hcompleted, hok⟩ | ⟨b, o, b64, x, y, rfl, hread, rfl⟩ | ⟨i, now, x, rfl, hx, rfl⟩
    · refine iff_of_true (hinv.heard ?_) hok
      rw [hcompleted, hshares]
      exact hheard.stored
    · obtain ⟨hy, hbatch, hoperator⟩ := readShare_found hread
      rw [hinv.complete_heard_iff hheard.stored]
      constructor
      · intro hrow x' y' hread' hverified
        obtain ⟨rfl, hyy⟩ := Prod.mk.inj (Except.ok.inj (hread.symm.trans hread'))
        obtain rfl := Option.some.inj hyy
        obtain ⟨z, hz, hzbatch, hzoperator, hzverified⟩ := hrow hverified
        rw [hs.2.unique hy hz (hbatch.trans hzbatch.symm) (hoperator.trans hzoperator.symm)]
        exact hzverified
      · intro hok hverified
        exact ⟨y, hy, hbatch, hoperator, hok x y hread hverified⟩
    · have hkept : ∀ z ∈ s.completed, ∃ y ∈ (insertShare s.db x now).shares,
          y.batchId = z.1 ∧ y.operatorId = z.2 ∧ y.verified = true := by
        intro z hz
        obtain ⟨y, hy, hrow⟩ := hheard.stored z hz
        rcases insertShare_cases s.db x now with ⟨-, heq⟩ | ⟨-, heq⟩
        · exact ⟨y, heq.symm ▸ hy, hrow⟩
        · exact ⟨y, heq.symm ▸ List.mem_append_left _ hy, hrow⟩
      rw [hinv.complete_heard_iff hkept]
      constructor
      · intro hrow x' hx' hverified
        obtain rfl := Option.some.inj (hx.symm.trans hx')
        exact (hs.2.insertShare_iff hverified).mp (hrow hverified)
      · intro hok hverified
        exact (hs.2.insertShare_iff hverified).mpr (hok x hx hverified)

end Step

/-- Through a run every valid share is stored and opens its batch exactly when no valid share finds an invalid row
under its batch and operator. -/
theorem heard_iff (cfg : EngineConfig) (es : List Engine.Event) :
    Throughout (Engine.step cfg) Engine.Heard Engine.start es ↔
      Along (Engine.step cfg) (Engine.Unspoiled cfg) Engine.start es := by
  have hstart : Engine.start.Heard := inv_start.heard fun x hx => absurd hx List.not_mem_nil
  have hstep : ∀ s e s', Inv s ∧ OnePerOperator s → Engine.step cfg s e = .ok s' → Inv s' ∧ OnePerOperator s' :=
    fun _ _ _ hs h => ⟨hs.1.step h, hs.2.step h⟩
  exact throughout_iff_along (Engine.step cfg) hstep (fun _ _ hs hheard => heard_step_iff hs hheard)
    ⟨inv_start, List.nodup_nil⟩ hstart es

/-- A frozen batch, then an invalid share under operator 1, then the operator's own. -/
def badShareFirst : List Engine.Event :=
  opened 1 1 ++ [.createSeal ['r'] "AQ==".toList 10 ['a'], .freezeRead ['r'] 100 0 [], .freezeWrite 101 fun _ => 101,
    .shareRead 1 1 "AQA=".toList, .shareWrite 0 102, .shareRead 1 1 "AQE=".toList]

lemma badShareFirst_end :
    (exec (Engine.step sampleEngine) Engine.start badShareFirst).completed = [(1, 1)] ∧
      (exec (Engine.step sampleEngine) Engine.start badShareFirst).db.shares = [⟨1, 1, [1, 0], false, 102⟩] ∧
      getWork (exec (Engine.step sampleEngine) Engine.start badShareFirst).db 1 = [] ∧
      ready (exec (Engine.step sampleEngine) Engine.start badShareFirst).db = [] := by
  decide +kernel

/-- The valid share is not stored, the operator is given no more work and the batch is never taken up. -/
theorem operator_silenced :
    ¬Throughout (Engine.step sampleEngine) Engine.Heard Engine.start badShareFirst ∧
      getWork (exec (Engine.step sampleEngine) Engine.start badShareFirst).db 1 = [] ∧
      ready (exec (Engine.step sampleEngine) Engine.start badShareFirst).db = [] := by
  obtain ⟨hcompleted, hshares, hwork, hready⟩ := badShareFirst_end
  refine ⟨fun h => ?_, hwork, hready⟩
  have hend := (h badShareFirst.length).stored
  rw [List.take_length, hcompleted, hshares] at hend
  obtain ⟨y, hy, -, -, hverified⟩ := hend (1, 1) List.mem_cons_self
  obtain rfl := List.mem_singleton.mp hy
  cases hverified

end Peal.Coordinator
