import Peal.Coordinator.Reveal

namespace Peal.Coordinator
open Peal.Fallible Peal.Runs
open Peal.Links (hexEncode hexDecode)

/-! # Which intents an ordering root commits to

A freeze looks up one intent for each ciphertext and then advances every intent of the condition. -/

/-- The states from `ORDER_COMMITTED` on. -/
def IntentState.committed : IntentState → Bool
  | .orderCommitted | .collectingShares | .thresholdReached | .revealed | .quoting | .quoteValidated
  | .authorizationRequired | .authorized | .submittedForExecution | .confirmed | .settled => true
  | .draft | .sealed | .submitted | .validated | .batched | .failed | .expired | .cancelled => false

/-- The root over the leaves of intents and ciphertexts in order. -/
def rootOver (entries : List (Text × Text)) : Text :=
  hexEncode (merkleRoot (entries.map fun e => orderingLeaf e.1 ((hexDecode e.2).getD [])))

/-- The intent's leaf is once under the root recorded for the batch that holds its ciphertext. -/
def Covered (db : Database) (it : Intent) : Prop :=
  ∃ batch ∈ db.batches, ∃ k y entries, batch.conditionId = it.conditionId ∧ batchCommittee db batch = some k ∧
    it.ciphertextHash ∈ (batchCts db batch k.b).map Ciphertext.ctHash ∧
    y ∈ db.batchCommitments ∧ y.batchId = batch.id ∧ y.orderingRoot = rootOver entries ∧
    entries.map Prod.snd = (batchCts db batch k.b).map Ciphertext.ctHash ∧
    entries.count (it.id, it.ciphertextHash) = 1

namespace Engine

def IntentsCovered (s : Engine) : Prop := ∀ it ∈ s.db.intents, it.state.committed = true → Covered s.db it

/-- At a freeze transaction every intent of the condition is bound to a ciphertext that was read, and no other intent
is bound to it. -/
def EachBound (s : Engine) : Event → Prop
  | .freezeWrite _ _ => ∀ p ∈ s.freezing, ∀ it ∈ s.db.intents, it.conditionId = p.conditionId →
      it.ciphertextHash ∈ p.real.map Prod.fst ∧
        ∀ other ∈ s.db.intents, other.ciphertextHash = it.ciphertextHash → other.id = it.id
  | _ => True

end Engine

/-- The intents whose ordering is committed are entries of their condition's freeze. -/
structure Bound (s : Engine) : Prop where
  ids : (s.db.intents.map Intent.id).Nodup
  entry : ∀ it ∈ s.db.intents, it.state.committed = true →
    ∃ f, s.frozen it.conditionId = some f ∧ (it.id, it.ciphertextHash) ∈ f.entries

section Step

variable {cfg : EngineConfig} {s s' : Engine}

lemma advance_intents (intents : List Intent) (c : Text) (tos : List IntentState) :
    ∃ state : Intent → IntentState, tos.foldl (fun intents to_ => advanceConditionIntents intents c to_) intents =
      intents.map fun it => if it.conditionId = c then { it with state := state it } else it := by
  induction tos generalizing intents with
  | nil =>
    refine ⟨Intent.state, ?_⟩
    have hid : (fun it : Intent => if it.conditionId = c then { it with state := it.state } else it) = id := by
      funext it
      split_ifs
      · rfl
      · rfl
    rw [hid, List.map_id, List.foldl_nil]
  | cons to_ tos ih =>
    obtain ⟨state, hstate⟩ := ih (advanceConditionIntents intents c to_)
    let moved : Intent → Intent := fun it =>
      if it.conditionId = c ∧ canTransition it.state to_ then { it with state := to_ } else it
    refine ⟨fun it => state (moved it), ?_⟩
    rw [List.foldl_cons, hstate, advanceConditionIntents, List.map_map]
    apply List.map_congr_left
    intro it _
    simp only [Function.comp_apply, moved]
    by_cases hc : it.conditionId = c
    · by_cases hcan : canTransition it.state to_ = true
      · simp [hc, hcan]
      · simp [hc, hcan]
    · simp [hc]

lemma intentOf_eq {intents : List Intent} {it : Intent} (hit : it ∈ intents)
    (h : ∀ other ∈ intents, other.ciphertextHash = it.ciphertextHash → other.id = it.id) :
    intentOf intents it.ciphertextHash = it.id := by
  unfold intentOf
  cases hf : intents.find? (fun other => other.ciphertextHash = it.ciphertextHash) with
  | none =>
    have := List.find?_eq_none.mp hf it hit
    simp at this
  | some other =>
    have hhash := List.find?_some hf
    exact h other (List.mem_of_find?_eq_some hf) (of_decide_eq_true hhash)

lemma step_intents {e : Engine.Event} (h : Engine.step cfg s e = .ok s') :
    s'.db.intents = s.db.intents ∨
      (∃ (it : Intent) (req : SubmitIntent) (now : Int), e = .submitIntent req now ∧
        s'.db.intents = s.db.intents ++ [it] ∧ it.state = .submitted ∧ ∀ x ∈ s.db.intents, x.id ≠ it.id) ∨
      (∃ it hash signature now, e = .postAuthorization it.id hash signature now ∧ it ∈ s.db.intents ∧
        it.state.committed = true ∧ s'.db.intents = s.db.intents.map fun x =>
          if x.id = it.id then { x with state := .authorized, authorizationHash := some hash } else x) ∨
      ∃ frozenAt committedAt p db f, e = .freezeWrite frozenAt committedAt ∧ s.freezing = some p ∧
        freezeWrite cfg s.db p frozenAt committedAt = .ok (db, f) ∧
        s' = { s with db, freezing := none, frozen := Function.update s.frozen p.conditionId (some f) } := by
  have hsealed : ∀ hash c blob now code, (insertSeal s.db hash c blob now code).intents = s.db.intents := by
    intro hash c blob now code
    rcases @insertSeal_cases s.db hash c blob now code with ⟨-, heq⟩ | ⟨-, heq⟩
    · rw [heq]
    · rw [heq]
  cases step_effect h with
  | submitCiphertext c _ now code _ wire blob => exact .inl (hsealed (ctHash wire) c blob now code)
  | createSeal c _ now code wire blob => exact .inl (hsealed (ctHash wire) c blob now code)
  | submitIntent req now it _ hstate hfresh => exact .inr (.inl ⟨it, req, now, rfl, rfl, hstate, hfresh⟩)
  | postAuthorization id hash signature now it hit hcan hid =>
    subst hid
    refine .inr (.inr (.inl ⟨it, hash, signature, now, rfl, hit, ?_, rfl⟩))
    -- only an intent that waits for its authorization can be authorized
    cases hstate : it.state with
    | authorizationRequired => rfl
    | _ =>
      rw [hstate] at hcan
      exact absurd hcan (by decide)
  | freezeWrite frozenAt committedAt p db f hp hok =>
    exact .inr (.inr (.inr ⟨frozenAt, committedAt, p, db, f, rfl, hp, hok, rfl⟩))
  | shareKnown _ _ _ x =>
    obtain ⟨completed, heq⟩ := complete_same (s := s) x
    exact .inl (heq ▸ rfl)
  | shareWrite i now x _ =>
    obtain ⟨completed, heq⟩ :=
      complete_same (s := { s with db := insertShare s.db x now, submissions := s.submissions.eraseIdx i }) x
    obtain ⟨shares, hdb⟩ := @insertShare_same s.db x now
    rw [heq, hdb]
    exact .inl rfl
  | finalizeBatch batchId _ now db _ hok =>
    obtain ⟨batch, k, -, -, -, -, -, rfl⟩ := finalizeBatch_ok hok
    exact .inl rfl
  | _ => exact .inl rfl

lemma Bound.freezeWrite (hb : Bound s) {p : Plan} (hp : s.freezing = some p) {frozenAt : Int}
    {committedAt : Nat → Int} (hbound : s.EachBound (.freezeWrite frozenAt committedAt)) {db : Database} {f : Frozen}
    (h : freezeWrite cfg s.db p frozenAt committedAt = .ok (db, f)) :
    Bound { s with db, freezing := none, frozen := Function.update s.frozen p.conditionId (some f) } := by
  obtain ⟨rfl, -, -, -, -, -, -, -, hintents, -⟩ := freezeWrite_eq_ok h
  obtain ⟨state, hstate⟩ := advance_intents s.db.intents p.conditionId [.validated, .batched, .orderCommitted]
  rw [hstate] at hintents
  have hids : db.intents.map Intent.id = s.db.intents.map Intent.id := by
    rw [hintents, List.map_map]
    apply List.map_congr_left
    intro it _
    simp only [Function.comp_apply]
    split_ifs
    · rfl
    · rfl
  refine ⟨hids ▸ hb.ids, fun it hit hcommitted => ?_⟩
  dsimp only at hit ⊢
  rw [hintents] at hit
  obtain ⟨x, hx, rfl⟩ := List.mem_map.mp hit
  by_cases hc : x.conditionId = p.conditionId
  · rw [if_pos hc]
    dsimp only
    rw [hc, Function.update_self]
    obtain ⟨hreal, hfirst⟩ := hbound p hp x hx hc
    refine ⟨_, rfl, List.mem_map.mpr ⟨x.ciphertextHash, ?_, ?_⟩⟩
    · rw [Plan.ordered, List.map_append]
      exact List.mem_append_left _ hreal
    · rw [intentOf_eq hx hfirst]
  · rw [if_neg hc] at hcommitted ⊢
    rw [Function.update_of_ne hc]
    exact hb.entry x hx hcommitted

theorem Bound.step (hb : Bound s) (hs : Inv s) {e : Engine.Event} (hbound : s.EachBound e)
    (h : Engine.step cfg s e = .ok s') : Bound s' := by
  rcases step_intents h with heq | ⟨it, -, -, -, heq, hstate, hfresh⟩ | ⟨it, hash, -, -, -, hit, hcommitted, heq⟩ |
    ⟨frozenAt, committedAt, p, db, f, rfl, hp, hok, rfl⟩
  · refine ⟨heq ▸ hb.ids, fun x hx hx' => ?_⟩
    obtain ⟨f, hf, hentry⟩ := hb.entry x (heq ▸ hx) hx'
    exact ⟨f, (hs.frozen_step h _).1 f hf, hentry⟩
  · refine ⟨?_, fun x hx hx' => ?_⟩
    · rw [heq, List.map_append]
      refine List.nodup_append.mpr ⟨hb.ids, List.nodup_singleton _, fun a ha b hb hab => ?_⟩
      obtain ⟨x, hx, rfl⟩ := List.mem_map.mp ha
      obtain rfl := List.mem_singleton.mp hb
      exact hfresh x hx hab
    · rw [heq] at hx
      rcases List.mem_append.mp hx with hold | hnew
      · obtain ⟨f, hf, hentry⟩ := hb.entry x hold hx'
        exact ⟨f, (hs.frozen_step h _).1 f hf, hentry⟩
      · obtain rfl := List.mem_singleton.mp hnew
        rw [hstate] at hx'
        cases hx'
  · have hids : s'.db.intents.map Intent.id = s.db.intents.map Intent.id := by
      rw [heq, List.map_map]
      apply List.map_congr_left
      intro x _
      simp only [Function.comp_apply]
      split_ifs
      · rfl
      · rfl
    refine ⟨hids ▸ hb.ids, fun x hx hx' => ?_⟩
    rw [heq] at hx
    obtain ⟨y, hy, rfl⟩ := List.mem_map.mp hx
    by_cases hid : y.id = it.id
    · obtain rfl := List.inj_on_of_nodup_map hb.ids hy hit hid
      obtain ⟨f, hf, hentry⟩ := hb.entry y hit hcommitted
      rw [if_pos rfl]
      exact ⟨f, (hs.frozen_step h _).1 f hf, hentry⟩
    · rw [if_neg hid] at hx' ⊢
      obtain ⟨f, hf, hentry⟩ := hb.entry y hy hx'
      exact ⟨f, (hs.frozen_step h _).1 f hf, hentry⟩
  · exact hb.freezeWrite hp hbound hok

lemma Inv.covered (hs : Inv s) {it : Intent} {f : Frozen} (hf : s.frozen it.conditionId = some f)
    (hentry : (it.id, it.ciphertextHash) ∈ f.entries) : Covered s.db it := by
  have h := hs.frozen _ f hf
  rw [← flatMap_batchEntries h] at hentry
  obtain ⟨i, hi, hentry⟩ := List.mem_flatMap.mp hentry
  obtain ⟨batch, hbatch, hc, hindex, hid⟩ := h.batch_at (List.mem_range.mp hi)
  obtain ⟨row, k, hrow, -, hk, hb⟩ := h.condition
  have hcommittee : batchCommittee s.db batch = some k := by
    unfold batchCommittee
    rw [hc, hrow, Option.bind_some, hk]
  have hhashes : (batchCts s.db batch k.b).map Ciphertext.ctHash = (f.batchEntries i).map Prod.snd := by
    rw [hb, hs.batchCts_hashes h hc (hindex.symm ▸ List.mem_range.mp hi), hindex]
  have hcommitment : f.commitment it.conditionId i ∈ s.db.batchCommitments := by
    have hmem : f.commitment it.conditionId i ∈ (List.range f.batches).map (f.commitment it.conditionId) :=
      List.mem_map_of_mem hi
    rw [← h.commitments] at hmem
    exact List.mem_of_mem_filter hmem
  have hnodup : (f.batchEntries i).Nodup := by
    have hall : f.entries.Nodup := h.nodup.of_map
    exact hall.sublist ((List.take_sublist _ _).trans (List.drop_sublist _ _))
  refine ⟨batch, hbatch, k, f.commitment it.conditionId i, f.batchEntries i, hc, hcommittee, ?_, hcommitment, hid.symm,
    rfl, hhashes.symm, List.count_eq_one_of_mem hnodup hentry⟩
  rw [hhashes]
  exact List.mem_map.mpr ⟨_, hentry, rfl⟩

end Step

/-- In every run whose freezes find each intent of their condition bound to a ciphertext of its own, every intent that
is past the commitment has its leaf. -/
theorem intents_covered (cfg : EngineConfig) (es : List Engine.Event)
    (h : Along (Engine.step cfg) Engine.EachBound Engine.start es) :
    Throughout (Engine.step cfg) Engine.IntentsCovered Engine.start es := by
  have hstep : ∀ s e s', Inv s ∧ Bound s → s.EachBound e → Engine.step cfg s e = .ok s' → Inv s' ∧ Bound s' :=
    fun _ _ _ hs hbound hok => ⟨hs.1.step hok, hs.2.step hs.1 hbound hok⟩
  have hstart : Bound Engine.start := ⟨List.nodup_nil, fun it hit => absurd hit List.not_mem_nil⟩
  have hrun := throughout_along (Engine.step cfg) hstep ⟨inv_start, hstart⟩ h
  intro n it hit hcommitted
  obtain ⟨hs, hb⟩ := hrun n
  obtain ⟨f, hf, hentry⟩ := hb.entry it hit hcommitted
  exact hs.covered hf hentry

instance (s : Engine) : (e : Engine.Event) → Decidable (s.EachBound e)
  | .freezeWrite _ _ => inferInstanceAs (Decidable (∀ p ∈ s.freezing, ∀ it ∈ s.db.intents,
      it.conditionId = p.conditionId → it.ciphertextHash ∈ p.real.map Prod.fst ∧
        ∀ other ∈ s.db.intents, other.ciphertextHash = it.ciphertextHash → other.id = it.id))
  | .registerCommittee .. => isTrue trivial
  | .createCondition .. => isTrue trivial
  | .submitCiphertext .. => isTrue trivial
  | .createSeal .. => isTrue trivial
  | .submitIntent .. => isTrue trivial
  | .postAuthorization .. => isTrue trivial
  | .freezeRead .. => isTrue trivial
  | .shareRead .. => isTrue trivial
  | .shareWrite .. => isTrue trivial
  | .finalizeBatch .. => isTrue trivial
  | .buildReveal .. => isTrue trivial
  | .markStalled .. => isTrue trivial
  | .crash => isTrue trivial
  | .finalizeTorn .. => isTrue trivial
  | .revealTorn .. => isTrue trivial

/-- An intent bound to the ciphertext whose wire bytes are `[1]`. -/
def sampleIntent (name : String) : SubmitIntent where
  protocolVersion := 1
  intentId := "intent-".toList ++ name.toList
  encryptionKeyId := List.replicate 64 'a'
  ciphertextHash := ctHash [1]
  nonce := "nonce--".toList ++ name.toList
  createdAt := 15
  expiresAt := 1000
  pseudonymousSigner := "0x".toList ++ List.replicate 40 'b'
  executionDomain := 1
  signature := []
  conditionId := ['r']
  idempotencyKey := none

/-- A round with one seal and the given intents, frozen. -/
def withIntents (names : List String) : List Engine.Event :=
  opened 1 1 ++ .createSeal ['r'] "AQ==".toList 10 ['a'] :: names.map (fun name => .submitIntent (sampleIntent name) 20) ++
    [.freezeRead ['r'] 100 0 [], .freezeWrite 101 fun _ => 101]

lemma withIntents_end :
    ((exec (Engine.step sampleEngine) Engine.start (withIntents ["1", "2"])).db.intents.map fun it =>
        (it.id, it.ciphertextHash, it.state)) =
        [("intent-1".toList, ctHash [1], .orderCommitted), ("intent-2".toList, ctHash [1], .orderCommitted)] ∧
      (∀ batch ∈ (exec (Engine.step sampleEngine) Engine.start (withIntents ["1", "2"])).db.batches,
        ∀ k ∈ batchCommittee (exec (Engine.step sampleEngine) Engine.start (withIntents ["1", "2"])).db batch,
          (batchCts (exec (Engine.step sampleEngine) Engine.start (withIntents ["1", "2"])).db batch k.b).map
            Ciphertext.ctHash = [ctHash [1]]) ∧
      (∀ y ∈ (exec (Engine.step sampleEngine) Engine.start (withIntents ["1", "2"])).db.batchCommitments,
        y.orderingRoot ≠ rootOver [("intent-2".toList, ctHash [1])]) := by
  decide +kernel

/-- The second intent bound to a ciphertext is advanced with the first and has no leaf. -/
theorem intent_uncovered :
    ¬Throughout (Engine.step sampleEngine) Engine.IntentsCovered Engine.start (withIntents ["1", "2"]) := by
  intro h
  obtain ⟨hintents, hrows, hroots⟩ := withIntents_end
  have hend := h (withIntents ["1", "2"]).length
  rw [List.take_length] at hend
  have hmem : ("intent-2".toList, ctHash [1], IntentState.orderCommitted) ∈
      (exec (Engine.step sampleEngine) Engine.start (withIntents ["1", "2"])).db.intents.map fun it =>
        (it.id, it.ciphertextHash, it.state) := by
    rw [hintents]
    exact List.mem_cons_of_mem _ List.mem_cons_self
  obtain ⟨it, hit, heq⟩ := List.mem_map.mp hmem
  obtain ⟨hid, hrest⟩ := Prod.mk.inj heq
  obtain ⟨hhash, hstate⟩ := Prod.mk.inj hrest
  obtain ⟨batch, hbatch, k, y, entries, -, hk, -, hy, -, hroot, hentries, hcount⟩ := hend it hit (by rw [hstate]; rfl)
  -- the batch has one slot, so the intent's leaf would have to be the only one
  rw [hrows batch hbatch k hk] at hentries
  obtain ⟨e, rest, rfl, -, hnil⟩ := List.map_eq_cons_iff.mp hentries
  obtain rfl := List.map_eq_nil_iff.mp hnil
  have hentry : e = (it.id, it.ciphertextHash) := by
    have hmem := List.count_pos_iff.mp (hcount ▸ Nat.one_pos)
    exact (List.mem_singleton.mp hmem).symm
  rw [hentry, hid, hhash] at hroot
  exact hroots y hy hroot

theorem intents_covered_sample :
    Throughout (Engine.step sampleEngine) Engine.IntentsCovered Engine.start (withIntents ["1"]) :=
  intents_covered sampleEngine (withIntents ["1"]) (by decide +kernel)

end Peal.Coordinator
