import Peal.Coordinator.Reads
import Peal.Coordinator.Layout
import Peal.Coordinator.Shares
import Peal.Library.Rows

namespace Peal.Coordinator
open Peal.Fallible Peal.Runs Peal.Rows

/-! # What the read endpoints tell of a pending round -/

/-- The keys of `ciphertexts`, and what a round has not got before it is frozen. -/
structure Database.Sound (db : Database) : Prop where
  hashes : (db.ciphertexts.map Ciphertext.ctHash).Nodup
  codes : ∀ x ∈ db.ciphertexts, ∀ y ∈ db.ciphertexts, ∀ code, x.code = some code → y.code = some code → x = y
  unrevealed : ∀ c row, db.conditions c = some row → row.status = .pending → db.reveals c = none
  unplaced : ∀ c row, db.conditions c = some row → row.status = .pending → ∀ x ∈ db.rowsOf c, x.position = none

/-- A real ciphertext submitted to the round. -/
def Ciphertext.sealedTo (round : Text) (c : Ciphertext) : Bool := c.conditionId = round && !c.isDummy

/-- Two states that differ only in which real ciphertexts have been submitted to one round. -/
structure SealedApart (round : Text) (t t' : Tables) : Prop where
  tables : t'.withSeals [] = t.withSeals []
  rows : (t'.ciphertexts.filter fun c => !c.sealedTo round) = t.ciphertexts.filter fun c => !c.sealedTo round

/-- A request names a ciphertext by its hash or its share code. -/
def ReadRequest.Names : ReadRequest → Ciphertext → Prop
  | .getSeal id, c => c.ctHash = id
  | .getSealProof id, c => c.ctHash = id
  | .resolveSeal code, c => c.code = some code
  | _, _ => False

/-- How many real ciphertexts of the round were submitted at these times. -/
def Tables.sealedWhen (t : Tables) (round : Text) (when_ : Int → Bool) : Nat :=
  t.ciphertexts.countP fun c => c.sealedTo round && when_ c.createdAt

def Tables.sealedCount (t : Tables) (round : Text) : Nat := t.sealedWhen round fun _ => true

/-- The counts of the round that a request is answered with are the same. -/
def CountsAgree (round : Text) (t t' : Tables) (now : Int) : ReadRequest → Prop
  | .listConditions => round ∈ t.newest.map Prod.fst → t.sealedCount round = t'.sealedCount round
  | .getCondition id => id = round → t.sealedCount round = t'.sealedCount round
  | .getStats windowSecs => t.sealedCount round = t'.sealedCount round ∧
      t.sealedWhen round (fun at_ => now - statsWindow windowSecs ≤ at_) =
        t'.sealedWhen round fun at_ => now - statsWindow windowSecs ≤ at_
  | .getActivity days => t.sealedCount round = t'.sealedCount round ∧
      ∀ back < activityDays days, t.sealedWhen round (onDay now back) = t'.sealedWhen round (onDay now back)
  | _ => True

/-! ### Every state that is reached -/

section Reached

variable {cfg : EngineConfig} {s s' : Engine} {db db' : Database}

/-- A share code is of one hash. -/
def Database.Coded (db : Database) : Prop :=
  ∀ x ∈ db.ciphertexts, ∀ y ∈ db.ciphertexts, ∀ code, x.code = some code → y.code = some code → x.ctHash = y.ctHash

lemma coded_insertSeal (h : db.Coded) (hash c : Text) (blob : Bytes) (now : Int) (code : Text) :
    (insertSeal db hash c blob now code).Coded := by
  unfold insertSeal
  split_ifs with htaken
  · exact h
  · rw [not_or] at htaken
    have hfresh : ∀ x ∈ db.ciphertexts, x.code ≠ some code := fun x hx hcode =>
      htaken.2 (List.any_eq_true.mpr ⟨x, hx, decide_eq_true hcode⟩)
    intro x hx y hy other hxc hyc
    rcases List.mem_append.mp hx with hx | hx <;> rcases List.mem_append.mp hy with hy | hy
    · exact h x hx y hy other hxc hyc
    · obtain rfl := List.mem_singleton.mp hy
      exact absurd (hxc.trans hyc.symm) (hfresh x hx)
    · obtain rfl := List.mem_singleton.mp hx
      exact absurd (hyc.trans hxc.symm) (hfresh y hy)
    · rw [List.mem_singleton.mp hx, List.mem_singleton.mp hy]

lemma coded_backfill {hash code : Text} (h : db.Coded) (hok : backfillCode db hash code = .ok db') : db'.Coded := by
  unfold backfillCode at hok
  split_ifs at hok
  · simp only [bind_eq_ok, require_eq_ok, pure_eq_ok] at hok
    obtain ⟨⟨⟩, hfree, rfl⟩ := hok
    have hfresh : ∀ x ∈ db.ciphertexts, x.code ≠ some code := fun x hx hcode =>
      hfree (List.any_eq_true.mpr ⟨x, hx, decide_eq_true hcode⟩)
    intro x' hx' y' hy' other hxc hyc
    obtain ⟨x, hx, rfl⟩ := List.mem_map.mp hx'
    obtain ⟨y, hy, rfl⟩ := List.mem_map.mp hy'
    -- a row that was filled has the code just drawn, which no other row had
    split_ifs at hxc hyc ⊢ with hfx hfy hfy
    · exact hfx.1.trans hfy.1.symm
    · exact absurd (hyc.trans hxc.symm) (hfresh y hy)
    · exact absurd (hxc.trans hyc.symm) (hfresh x hx)
    · exact h x hx y hy other hxc hyc
  · obtain rfl := Except.ok.inj hok
    exact h

lemma coded_freezeWrite {p : Plan} {frozenAt : Int} {committedAt : Nat → Int} {f : Frozen} (hp : PlanOk db p)
    (h : db.Coded) (hok : freezeWrite cfg db p frozenAt committedAt = .ok (db', f)) : db'.Coded := by
  obtain ⟨-, hdummies, hfresh, hrows, -⟩ := freezeWrite_eq_ok hok
  rw [assignPositions_eq (ordered_nodup hp hdummies hfresh)] at hrows
  have hold : ∀ x' ∈ db'.ciphertexts, ∀ code, x'.code = some code →
      ∃ x ∈ db.ciphertexts, x.code = some code ∧ x.ctHash = x'.ctHash := by
    intro x' hx' code hcode
    rw [hrows] at hx'
    obtain ⟨x, hx, rfl⟩ := List.mem_map.mp hx'
    obtain ⟨position, heq⟩ := place_same p.ordered 0 x
    rw [heq] at hcode ⊢
    rcases List.mem_append.mp hx with hx | hx
    · exact ⟨x, hx, hcode, rfl⟩
    · obtain ⟨d, -, rfl⟩ := List.mem_map.mp hx
      cases hcode
  intro x' hx' y' hy' code hxc hyc
  obtain ⟨x, hx, hx', hxhash⟩ := hold x' hx' code hxc
  obtain ⟨y, hy, hy', hyhash⟩ := hold y' hy' code hyc
  rw [← hxhash, ← hyhash]
  exact h x hx y hy code hx' hy'

/-- What a run keeps of the share codes and of the reveals. -/
structure Told (s : Engine) : Prop where
  coded : s.db.Coded
  revealed : ∀ c r, s.db.reveals c = some r → ∃ f, s.frozen c = some f

lemma coded_submit (h : s.db.Coded) {c b64 : Text} {now : Int} {code backfill : Text}
    (hok : Engine.step cfg s (.submitCiphertext c b64 now code backfill) = .ok s') : s'.db.Coded := by
  simp only [Engine.step] at hok
  split at hok
  · rename_i db hash code' hsub
    obtain rfl := Except.ok.inj hok
    simp only [submitCiphertext, bind_eq_ok, expect_eq_ok, require_eq_ok, pure_eq_ok, Prod.mk.injEq] at hsub
    obtain ⟨-, -, blob, -, -, -, wire, -, row, -, -, -, db₁, hback, _, -, rfl, -⟩ := hsub
    exact coded_backfill (coded_insertSeal h _ _ _ _ _) hback
  · cases hok

lemma coded_step (hs : Inv s) (h : s.db.Coded) {e : Engine.Event} (hok : Engine.step cfg s e = .ok s') : s'.db.Coded := by
  cases step_effect hok with
  | submitCiphertext => exact coded_submit h hok
  | createSeal c _ now code wire blob => exact coded_insertSeal h _ _ _ _ _
  | freezeWrite frozenAt committedAt p db f hp hwritten => exact coded_freezeWrite (hs.plan p hp) h hwritten
  | shareKnown _ _ _ x =>
    rw [complete_db]
    exact h
  | shareWrite i now x _ =>
    rw [complete_db]
    obtain ⟨shares, heq⟩ := @insertShare_same s.db x now
    rw [heq]
    exact h
  | finalizeBatch batchId _ now db _ hdone =>
    obtain ⟨batch, k, -, -, -, -, -, rfl⟩ := finalizeBatch_ok hdone
    exact h
  | _ => exact h

theorem Told.step (ht : Told s) (hs : Inv s) {e : Engine.Event} (hok : Engine.step cfg s e = .ok s') : Told s' := by
  refine ⟨coded_step hs ht.coded hok, fun c r hr => ?_⟩
  have hkept : ∀ {c : Text} {r : Reveal}, s.db.reveals c = some r → ∃ f, s'.frozen c = some f := by
    intro c r hr
    obtain ⟨f, hf⟩ := ht.revealed c r hr
    exact ⟨f, (hs.frozen_step hok c).1 f hf⟩
  have hnew : ∀ {c : Text} {now : Int} {reveal : Reveal}, assembleReveal s.db c now = .ok reveal →
      ∃ f, s'.frozen c = some f := by
    intro c now reveal hass
    obtain ⟨row, slots, hrow, hstatus, -⟩ := assembleReveal_ok hass
    have hpending : row.status ≠ .pending := by
      rcases hstatus with h | h <;> rw [h] <;> decide
    obtain ⟨f, hf⟩ := hs.frozen_of_status hrow hpending
    exact ⟨f, (hs.frozen_step hok c).1 f hf⟩
  rcases step_revealsKept hok with ⟨hk, -⟩ | ⟨c', now, reveal, hass, hcase⟩
  · rw [hk.reveals] at hr
    exact hkept hr
  · have hreveals : s'.db.reveals = Function.update s.db.reveals c' (some reveal) := by
      rcases hcase with ⟨-, -, rfl⟩ | ⟨-, rfl⟩ <;> rfl
    rw [hreveals] at hr
    by_cases hc : c = c'
    · subst hc
      exact hnew hass
    · rw [Function.update_of_ne hc] at hr
      exact hkept hr

theorem told_run (cfg : EngineConfig) (es : List Engine.Event) : Told (Engine.reached cfg es) := by
  have hstep : ∀ s e s', Inv s ∧ Told s → Engine.step cfg s e = .ok s' → Inv s' ∧ Told s' :=
    fun _ _ _ hs hok => ⟨hs.1.step hok, hs.2.step hs.1 hok⟩
  have hstart : Told Engine.start := ⟨fun x hx => absurd hx List.not_mem_nil, fun c r hr => by cases hr⟩
  exact (exec_invariant (I := fun s => Inv s ∧ Told s) _ hstep ⟨inv_start, hstart⟩ es).2

/-- Every state the engine and the requests reach is sound. -/
theorem sound_reached (cfg : EngineConfig) (es : List Engine.Event) : (Engine.reached cfg es).db.Sound := by
  have hs : Inv (Engine.reached cfg es) := inv_run cfg es
  have ht := told_run cfg es
  have hhashes : ((Engine.reached cfg es).db.ciphertexts.map Ciphertext.ctHash).Nodup := by
    have := hs.hashes
    rwa [Database.placed, List.map_map] at this
  refine ⟨hhashes, fun x hx y hy code hxc hyc => ?_, fun c row hrow hpending => ?_, fun c row hrow hpending x hx => ?_⟩
  · exact hs.row_unique hx hy (ht.coded x hx y hy code hxc hyc)
  · cases hr : (Engine.reached cfg es).db.reveals c with
    | none => rfl
    | some r =>
      obtain ⟨f, hf⟩ := ht.revealed c r hr
      rw [hs.pending_unfrozen hrow hpending] at hf
      cases hf
  · obtain ⟨hmem, hc⟩ := mem_rowsOf.mp hx
    have hplaced : (x.ctHash, c, x.position) ∈ (Engine.reached cfg es).db.placed := by
      rw [← hc]
      exact List.mem_map_of_mem hmem
    exact (hs.unfrozen c (hs.pending_unfrozen hrow hpending)).positions _ _ hplaced

lemma sealedApart_step (t : Tables) {e : Engine.Event} {round b64 : Text} {now : Int} {code : Text}
    (he : e = .createSeal round b64 now code) (hs : s.db = t.toDatabase) :
    SealedApart round t { t with toDatabase := (advance (Engine.step cfg) s e).db } := by
  subst he
  unfold advance
  cases h : Engine.step cfg s (.createSeal round b64 now code) with
  | error => exact ⟨by rw [hs], by rw [hs]⟩
  | ok s' =>
    cases step_effect h with
    | createSeal _ _ _ _ wire blob =>
      dsimp only
      rw [hs]
      rcases @insertSeal_cases t.toDatabase (ctHash wire) round blob now code with ⟨-, heq⟩ | ⟨-, heq⟩
      · rw [heq]
        exact ⟨rfl, rfl⟩
      · rw [heq]
        refine ⟨rfl, ?_⟩
        dsimp only
        rw [List.filter_append, List.filter_singleton, Ciphertext.sealedTo, decide_eq_true rfl]
        exact List.append_nil _

end Reached

/-! ### What does not tell -/

lemma SealedApart.eq_withSeals {round : Text} {t t' : Tables} (h : SealedApart round t t') :
    t' = t.withSeals t'.ciphertexts :=
  congrArg (fun u => u.withSeals t'.ciphertexts) h.tables

section Endpoints

variable {cfg : ReadConfig} {round : Text} {t : Tables} {rows : List Ciphertext} {row : Condition}
  (h : (rows.filter fun c => !c.sealedTo round) = t.ciphertexts.filter fun c => !c.sealedTo round)
  (hrow : t.conditions round = some row) (hpending : row.status = .pending)

include h

lemma rowsOf_other {id : Text} (hid : id ≠ round) : (t.withSeals rows).rowsOf id = t.rowsOf id := by
  refine filter_same h fun c hc => ?_
  have hne : c.conditionId ≠ round := fun heq => hid ((of_decide_eq_true hc).symm.trans heq)
  rw [Ciphertext.sealedTo, decide_eq_false hne, Bool.false_and]

include hrow hpending

lemma roundOf_same {id : Text} {c : Condition} (hc : t.conditions id = some c) :
    roundOf (t.withSeals rows) id c = roundOf t id c := by
  by_cases hid : id = round
  · subst hid
    obtain rfl := Option.some.inj (hc.symm.trans hrow)
    unfold roundOf
    rw [hpending]
    rfl
  · unfold roundOf
    rw [rowsOf_other h hid]
    rfl

lemma loadRound_same (id : Text) : loadRound (t.withSeals rows).toDatabase id = loadRound t.toDatabase id := by
  unfold loadRound
  change (expect (t.conditions id) _ >>= fun c => pure (roundOf (t.withSeals rows) id c)) =
    expect (t.conditions id) _ >>= fun c => pure (roundOf t id c)
  cases hc : t.conditions id with
  | none => rfl
  | some c =>
    change Except.ok (roundOf (t.withSeals rows) id c) = .ok (roundOf t id c)
    rw [roundOf_same h hrow hpending hc]

variable (ht : t.Sound) (ht' : (t.withSeals rows).Sound)

include ht ht'

lemma batchCts_same (batch : Batch) (b : Nat) :
    batchCts (t.withSeals rows).toDatabase batch b = batchCts t.toDatabase batch b := by
  by_cases hid : batch.conditionId = round
  · have hnone : ∀ u : Database, u.Sound → u.conditions round = some row → batchCts u batch b = [] := by
      intro u hu hrow
      unfold batchCts
      rw [hid, List.filter_eq_nil_iff.mpr, List.insertionSort_nil]
      intro c hc
      rw [hu.unplaced round row hrow hpending c hc]
      exact Bool.false_ne_true
    rw [hnone _ ht' hrow, hnone _ ht hrow]
  · unfold batchCts
    rw [rowsOf_other h hid]

lemma batchHeaders_same (batch : Batch) (b : Nat) :
    batchHeaders cfg (t.withSeals rows) batch b = batchHeaders cfg t batch b := by
  unfold batchHeaders
  rw [batchCts_same h hrow hpending ht ht']

lemma workBatches_same (operator : Nat) : workBatches cfg (t.withSeals rows) operator = workBatches cfg t operator := by
  unfold workBatches
  simp only [batchHeaders_same h hrow hpending ht ht']
  rfl

lemma getReveal_same (id : Text) : getReveal cfg (t.withSeals rows) id = getReveal cfg t id := by
  by_cases hid : id = round
  · subst hid
    have hnone := ht.unrevealed id row hrow hpending
    have hnone' : (t.withSeals rows).reveals id = none := hnone
    rw [getReveal, getReveal, hnone, hnone']
    rfl
  · unfold getReveal
    simp only [rowsOf_other h hid, revealedBatch, batchHeaders_same h hrow hpending ht ht']
    rfl

omit ht ht'

lemma listRounds_same (q : ListRounds) : listRounds (t.withSeals rows) q = listRounds t q := by
  have hrounds : ∀ x ∈ t.rounds, roundOf (t.withSeals rows) x.1 x.2 = roundOf t x.1 x.2 := by
    intro x hx
    obtain ⟨id, -, hid⟩ := List.mem_filterMap.mp hx
    obtain ⟨c, hc, rfl⟩ := Option.map_eq_some_iff.mp hid
    exact roundOf_same h hrow hpending hc
  unfold listRounds
  refine bind_congr fun status => bind_congr fun after => ?_
  change pure _ = pure _
  congr 1
  have hpage : ∀ {limit : Nat} {p : Text × Condition → Bool} {r : Text × Condition → Text × Condition → Prop}
      [DecidableRel r], (((t.rounds.filter p).insertionSort r).take limit).map
          (fun x => roundOf (t.withSeals rows) x.1 x.2) =
        (((t.rounds.filter p).insertionSort r).take limit).map fun x => roundOf t x.1 x.2 := by
    intro limit p r _
    refine List.map_congr_left fun x hx => hrounds x ?_
    exact List.mem_of_mem_filter ((List.mem_insertionSort r).mp (List.mem_of_mem_take hx))
  have hsame : (t.withSeals rows).rounds = t.rounds := rfl
  rw [hsame, hpage]

lemma listSeals_same (id : Text) : listSeals (t.withSeals rows) id = listSeals t id := by
  unfold listSeals
  rw [loadRound_same h hrow hpending]
  by_cases hid : id = round
  · subst hid
    have hload : loadRound t.toDatabase id = .ok (roundOf t id row) := by
      unfold loadRound
      rw [hrow]
      rfl
    have hopen : (roundOf t id row).status ≠ .opened := by
      change publicStatus row.status ≠ .opened
      rw [hpending]
      decide
    rw [hload]
    change (if _ then _ else _) = if _ then _ else _
    rw [if_pos hopen, if_pos hopen]
  · rw [rowsOf_other h hid]
    rfl

lemma getSeal_same {id : Text}
    (hfind : (rows.find? fun c => c.ctHash = id ∧ ¬c.isDummy) = t.ciphertexts.find? fun c => c.ctHash = id ∧ ¬c.isDummy) :
    getSeal (t.withSeals rows) id = getSeal t id := by
  unfold getSeal
  simp only [loadRound_same h hrow hpending]
  change (expect (rows.find? _) _ >>= _) = expect (t.ciphertexts.find? _) _ >>= _
  rw [hfind]
  rfl

lemma getSealProof_same {id : Text}
    (hfind : (rows.find? fun c => c.ctHash = id ∧ ¬c.isDummy) = t.ciphertexts.find? fun c => c.ctHash = id ∧ ¬c.isDummy) :
    getSealProof (t.withSeals rows).toDatabase id = getSealProof t.toDatabase id := by
  unfold getSealProof
  simp only [loadRound_same h hrow hpending]
  change (expect (rows.find? _) _ >>= _) = expect (t.ciphertexts.find? _) _ >>= _
  rw [hfind]
  rfl

lemma auctionJson_same (id : Text) : auctionJson cfg.toConfig cfg.origin (t.withSeals rows).toDatabase id =
    auctionJson cfg.toConfig cfg.origin t.toDatabase id := by
  unfold auctionJson
  rw [loadRound_same h hrow hpending]
  rfl

lemma getResults_same (id : Text) : getResults cfg.toConfig cfg.origin (t.withSeals rows).toDatabase id =
    getResults cfg.toConfig cfg.origin t.toDatabase id := by
  unfold getResults
  rw [auctionJson_same h hrow hpending]
  rfl

lemma getRound_same (id : Text) (ifNoneMatch : Option Text) :
    getRound (t.withSeals rows) id ifNoneMatch = getRound t id ifNoneMatch := by
  unfold getRound
  rw [loadRound_same h hrow hpending]

omit hpending

/-! ### What tells a count -/

omit hrow in
lemma countReal_iff (when_ : Int → Bool) :
    ((t.withSeals rows).ciphertexts.countP fun c => !c.isDummy && when_ c.createdAt) =
        t.ciphertexts.countP (fun c => !c.isDummy && when_ c.createdAt) ↔
      t.sealedWhen round when_ = (t.withSeals rows).sealedWhen round when_ := by
  have hreal : ∀ c : Ciphertext, (c.sealedTo round && (!c.isDummy && when_ c.createdAt)) =
      (c.sealedTo round && when_ c.createdAt) := by
    intro c
    unfold Ciphertext.sealedTo
    cases c.isDummy
    · simp
    · simp
  rw [eq_comm]
  refine (countP_same_iff h fun c => !c.isDummy && when_ c.createdAt).trans ?_
  simp only [hreal]
  rfl

omit hrow in
lemma countReal_all_iff :
    ((t.withSeals rows).ciphertexts.countP fun c => !c.isDummy) = t.ciphertexts.countP (fun c => !c.isDummy) ↔
      t.sealedCount round = (t.withSeals rows).sealedCount round := by
  have hall := countReal_iff h fun _ => true
  simp only [Bool.and_true] at hall
  exact hall

omit hrow in
lemma countDummy_same :
    ((t.withSeals rows).ciphertexts.countP fun c => c.isDummy) = t.ciphertexts.countP fun c => c.isDummy := by
  have hnone : ∀ c : Ciphertext, (c.sealedTo round && c.isDummy) = false := by
    intro c
    unfold Ciphertext.sealedTo
    cases c.isDummy
    · simp
    · simp
  refine ((countP_same_iff h fun c => c.isDummy).mpr ?_).symm
  simp only [hnone, List.countP_false]
  rfl

omit h hrow in
lemma sealedCount_eq (u : Tables) : u.sealedCount round = (u.rowsOf round).countP fun c => !c.isDummy := by
  rw [Tables.sealedCount, Tables.sealedWhen, Database.rowsOf, List.countP_filter]
  refine List.countP_congr fun c _ => ?_
  rw [Ciphertext.sealedTo, Bool.and_true, Bool.and_comm]

lemma listCondition_same_iff {id : Text} (c : Condition) :
    listCondition (t.withSeals rows) id c = listCondition t id c ↔
      (id = round → t.sealedCount round = (t.withSeals rows).sealedCount round) := by
  constructor
  · rintro heq rfl
    rw [sealedCount_eq, sealedCount_eq]
    exact (congrArg ConditionListed.realCount heq).symm
  · intro hcount
    by_cases hid : id = round
    · subst hid
      have hreal := hcount rfl
      have hall : ((t.withSeals rows).rowsOf id).length = (t.rowsOf id).length := by
        rw [Database.rowsOf, Database.rowsOf, ← List.countP_eq_length_filter, ← List.countP_eq_length_filter]
        refine ((countP_same_iff h fun c => c.conditionId = id).mpr ?_).symm
        have hin : ∀ c : Ciphertext, (c.sealedTo id && decide (c.conditionId = id)) = (c.sealedTo id && true) := by
          intro c
          unfold Ciphertext.sealedTo
          cases decide (c.conditionId = id)
          · rfl
          · simp
        simp only [hin]
        exact hreal
      rw [sealedCount_eq, sealedCount_eq] at hreal
      unfold listCondition
      rw [hall, hreal]
    · unfold listCondition
      rw [rowsOf_other h hid]

lemma listConditions_same_iff : listConditions (t.withSeals rows) = listConditions t ↔
    (round ∈ t.newest.map Prod.fst → t.sealedCount round = (t.withSeals rows).sealedCount round) := by
  have hlist : listConditions (t.withSeals rows) = listConditions t ↔
      ∀ x ∈ t.newest, listCondition (t.withSeals rows) x.1 x.2 = listCondition t x.1 x.2 := by
    unfold listConditions
    have hnewest : (t.withSeals rows).newest = t.newest := rfl
    have hrounds : (t.withSeals rows).rounds = t.rounds := rfl
    rw [hnewest, hrounds, Answer.conditions.injEq, and_iff_left rfl, List.map_inj_left]
  rw [hlist]
  constructor
  · intro hall hmem
    obtain ⟨x, hx, hxid⟩ := List.mem_map.mp hmem
    exact (listCondition_same_iff h hrow x.2).mp (hall x hx) hxid
  · intro hcount x hx
    exact (listCondition_same_iff h hrow x.2).mpr fun hid => hcount (List.mem_map.mpr ⟨x, hx, hid⟩)

lemma getCondition_same_iff (id : Text) :
    getCondition (t.withSeals rows) id = getCondition t id ↔
      (id = round → t.sealedCount round = (t.withSeals rows).sealedCount round) := by
  unfold getCondition
  cases hc : t.conditions id with
  | none =>
    have hc' : (t.withSeals rows).conditions id = none := hc
    rw [hc']
    refine iff_of_true rfl ?_
    rintro rfl
    rw [hc] at hrow
    cases hrow
  | some c =>
    have hc' : (t.withSeals rows).conditions id = some c := hc
    rw [hc']
    change Except.ok _ = Except.ok _ ↔ _
    rw [Except.ok.injEq, ConditionDetail.mk.injEq, listCondition_same_iff h hrow]
    exact and_iff_left ⟨rfl, rfl⟩

lemma tagRow_same (hcount : t.sealedCount round = (t.withSeals rows).sealedCount round) (since : Int) (tag : Text) :
    tagRow (t.withSeals rows) since tag = tagRow t since tag := by
  have hcts : ((t.withSeals rows).ciphertexts.countP fun x =>
        !x.isDummy && (t.conditions x.conditionId).any fun c => c.tag = some tag) =
      t.ciphertexts.countP fun x => !x.isDummy && (t.conditions x.conditionId).any fun c => c.tag = some tag := by
    refine ((countP_same_iff h _).mpr ?_).symm
    have hin : ∀ x : Ciphertext, (x.sealedTo round &&
        (!x.isDummy && (t.conditions x.conditionId).any fun c => c.tag = some tag)) =
          (x.sealedTo round && decide (row.tag = some tag)) := by
      intro x
      unfold Ciphertext.sealedTo
      by_cases hx : x.conditionId = round
      · rw [hx, hrow]
        cases x.isDummy
        · rfl
        · rw [Bool.not_true, Bool.and_false, Bool.false_and, Bool.false_and]
      · rw [decide_eq_false hx]
        rfl
    simp only [hin]
    by_cases htag : row.tag = some tag
    · rw [decide_eq_true htag]
      exact hcount
    · rw [decide_eq_false htag]
      simp only [Bool.and_false, List.countP_false]
      rfl
  unfold tagRow
  exact congrArg (fun n => TagRow.mk _ _ n _ _ _ _) hcts

lemma getStats_same_iff (windowSecs : Option Int) (now : Int) :
    getStats (t.withSeals rows) windowSecs now = getStats t windowSecs now ↔
      t.sealedCount round = (t.withSeals rows).sealedCount round ∧
        t.sealedWhen round (fun at_ => now - statsWindow windowSecs ≤ at_) =
          (t.withSeals rows).sealedWhen round fun at_ => now - statsWindow windowSecs ≤ at_ := by
  rw [← countReal_all_iff h, ← countReal_iff h]
  constructor
  · intro heq
    exact ⟨congrArg Stats.sealed heq, congrArg Stats.recentSealed heq⟩
  · rintro ⟨hall, hrecent⟩
    have htags : (topTags (t.withSeals rows)).map (tagRow (t.withSeals rows) (now - statsWindow windowSecs)) =
        (topTags t).map (tagRow t (now - statsWindow windowSecs)) :=
      List.map_congr_left fun tag _ => tagRow_same h hrow ((countReal_all_iff h).mp hall) _ tag
    unfold getStats
    dsimp only
    rw [hall, hrecent, htags, countDummy_same h]
    rfl

omit hrow in
lemma getActivity_same_iff (days : Option Int) (now : Int) :
    getActivity cfg (t.withSeals rows) days now = getActivity cfg t days now ↔
      t.sealedCount round = (t.withSeals rows).sealedCount round ∧ ∀ back < activityDays days,
        t.sealedWhen round (onDay now back) = (t.withSeals rows).sealedWhen round (onDay now back) := by
  rw [← countReal_all_iff h]
  have hseries : (getActivity cfg (t.withSeals rows) days now).series = (getActivity cfg t days now).series ↔
      ∀ back < activityDays days,
        t.sealedWhen round (onDay now back) = (t.withSeals rows).sealedWhen round (onDay now back) := by
    unfold getActivity
    simp only [List.map_inj_left, List.mem_reverse, List.mem_range, countReal_iff h]
  rw [← hseries]
  constructor
  · intro heq
    exact ⟨congrArg Activity.sealed heq, congrArg Activity.series heq⟩
  · rintro ⟨hall, hdays⟩
    unfold getActivity at hdays ⊢
    rw [Activity.mk.injEq]
    exact ⟨rfl, rfl, hall, countDummy_same h, hdays, rfl⟩

end Endpoints

lemma condition_inj {x y : Except ApiError ConditionDetail} :
    Answer.ofApiError .condition x = Answer.ofApiError .condition y ↔ x = y := by
  refine ⟨fun heq => ?_, congrArg _⟩
  cases x with
  | ok a =>
    cases y with
    | ok b => exact congrArg Except.ok (Answer.condition.inj heq)
    | error e => cases heq
  | error e =>
    cases y with
    | ok b => cases heq
    | error e' => exact congrArg Except.error (Answer.apiError.inj heq)

/-- The answers to a request that names no ciphertext of only one of the states are the same exactly when the counts
they show are. -/
theorem quiet_round_iff (cfg : ReadConfig) {round : Text} {t t' : Tables} (ht : t.Sound) (ht' : t'.Sound)
    (hapart : SealedApart round t t') {row : Condition} (hrow : t.conditions round = some row)
    (hpending : row.status = .pending) (now : Int) (q : ReadRequest)
    (hnamed : ∀ c, q.Names c → (c ∈ t.ciphertexts ↔ c ∈ t'.ciphertexts)) :
    answer cfg t now q = answer cfg t' now q ↔ CountsAgree round t t' now q := by
  obtain ⟨rows, rfl⟩ : ∃ rows, t' = t.withSeals rows := ⟨_, hapart.eq_withSeals⟩
  have h : (rows.filter fun c => !c.sealedTo round) = t.ciphertexts.filter fun c => !c.sealedTo round := hapart.rows
  have hseal : ∀ id, (∀ c : Ciphertext, c.ctHash = id → (c ∈ t.ciphertexts ↔ c ∈ rows)) →
      (rows.find? fun c => c.ctHash = id ∧ ¬c.isDummy) = t.ciphertexts.find? fun c => c.ctHash = id ∧ ¬c.isDummy := by
    intro id hsame
    refine find?_same (fun x hx y hy hpx hpy => ?_) fun x hpx => hsame x (of_decide_eq_true hpx).1
    exact List.inj_on_of_nodup_map ht.hashes hx hy ((of_decide_eq_true hpx).1.trans (of_decide_eq_true hpy).1.symm)
  rw [eq_comm]
  cases q with
  | listConditions => exact listConditions_same_iff h hrow
  | getCondition id =>
    refine condition_inj.trans ?_
    exact getCondition_same_iff h hrow id
  | getStats windowSecs =>
    refine Iff.trans ⟨Answer.stats.inj, congrArg _⟩ ?_
    exact getStats_same_iff h hrow windowSecs now
  | getActivity days =>
    refine Iff.trans ⟨Answer.activity.inj, congrArg _⟩ ?_
    exact getActivity_same_iff h days now
  | getWork operator =>
    refine iff_of_true ?_ trivial
    simp only [answer, workBatches_same h hrow hpending ht ht']
  | getReveal id =>
    refine iff_of_true ?_ trivial
    simp only [answer, getReveal_same h hrow hpending ht ht']
  | resolveSeal code =>
    have hfind : (rows.find? fun c => c.code = some code) = t.ciphertexts.find? fun c => c.code = some code := by
      refine find?_same (fun x hx y hy hpx hpy => ?_) fun x hpx => hnamed x ?_
      · exact ht.codes x hx y hy code (of_decide_eq_true hpx) (of_decide_eq_true hpy)
      · have hcode := of_decide_eq_true hpx
        exact hcode
    have hsame : resolveSeal (t.withSeals rows) code = resolveSeal t code := by
      unfold resolveSeal
      change (_ >>= fun _ => expect (rows.find? _) _ >>= _) = _ >>= fun _ => expect (t.ciphertexts.find? _) _ >>= _
      rw [hfind]
    refine iff_of_true ?_ trivial
    simp only [answer, hsame]
  | listRounds query =>
    refine iff_of_true ?_ trivial
    simp only [answer, listRounds_same h hrow hpending]
  | getRound id ifNoneMatch =>
    refine iff_of_true ?_ trivial
    simp only [answer, getRound_same h hrow hpending]
  | listSeals id =>
    refine iff_of_true ?_ trivial
    simp only [answer, listSeals_same h hrow hpending]
  | getSeal id =>
    refine iff_of_true ?_ trivial
    simp only [answer, getSeal_same h hrow hpending (hseal id hnamed)]
  | getSealProof id =>
    refine iff_of_true ?_ trivial
    simp only [answer, getSealProof_same h hrow hpending (hseal id hnamed)]
  | getAuction id =>
    refine iff_of_true ?_ trivial
    simp only [answer, auctionJson_same h hrow hpending]
  | getResults id =>
    refine iff_of_true ?_ trivial
    simp only [answer, getResults_same h hrow hpending]
  | _ => exact iff_of_true rfl trivial

def sampleReads : ReadConfig :=
  { sampleEngine.toConfig with origin := [], ctHeader := fun blob => some blob, elsewhere := fun _ _ _ => .null }

def sampleTables (es : List Engine.Event) : Tables :=
  { (Engine.reached sampleEngine es).db with
    ids := [['r']]
    paramsBlob := fun _ => []
    timing := fun _ => ⟨none, none⟩
    submissionMode := fun _ => []
    intentEvents := fun _ => []
    commitmentSignature := fun _ => none
    counters := []
    payments := [] }

def noSeal : List Engine.Event := opened 1 1

def oneSeal : List Engine.Event := noSeal ++ [.createSeal ['r'] "AQ==".toList 50 ['a']]

lemma sampleTables_apart : SealedApart ['r'] (sampleTables noSeal) (sampleTables oneSeal) := by
  have h := @sealedApart_step sampleEngine (Engine.reached sampleEngine noSeal) (sampleTables noSeal)
    (.createSeal ['r'] "AQ==".toList 50 ['a']) _ _ _ _ rfl rfl
  have hlast : Engine.reached sampleEngine oneSeal =
      advance (Engine.step sampleEngine) (Engine.reached sampleEngine noSeal) (.createSeal ['r'] "AQ==".toList 50 ['a']) :=
    exec_concat _ _ _ _
  rw [← hlast] at h
  exact h

lemma sampleTables_round : (sampleTables noSeal).conditions ['r'] = some sampleCondition := by
  decide +kernel

lemma sampleTables_counts :
    (sampleTables noSeal).sealedCount ['r'] = 0 ∧ (sampleTables oneSeal).sealedCount ['r'] = 1 := by
  decide +kernel

/-- `/v0/conditions/r` is a request that names no ciphertext, and tells none from one. -/
theorem count_told : (sampleTables noSeal).Sound ∧ (sampleTables oneSeal).Sound ∧
    SealedApart ['r'] (sampleTables noSeal) (sampleTables oneSeal) ∧
    (sampleTables noSeal).conditions ['r'] = some sampleCondition ∧ sampleCondition.status = .pending ∧
    (∀ c, ¬(ReadRequest.getCondition ['r']).Names c) ∧
    answer sampleReads (sampleTables noSeal) 60 (.getCondition ['r']) ≠
      answer sampleReads (sampleTables oneSeal) 60 (.getCondition ['r']) := by
  refine ⟨sound_reached _ _, sound_reached _ _, sampleTables_apart, sampleTables_round, rfl, fun _ h => h, fun heq => ?_⟩
  have hsame : getCondition (sampleTables oneSeal) ['r'] = getCondition (sampleTables noSeal) ['r'] :=
    condition_inj.mp heq.symm
  rw [sampleTables_apart.eq_withSeals] at hsame
  have hcounts := (getCondition_same_iff sampleTables_apart.rows sampleTables_round ['r']).mp hsame rfl
  rw [← sampleTables_apart.eq_withSeals, sampleTables_counts.1, sampleTables_counts.2] at hcounts
  cases hcounts

theorem quiet_round_sample :
    answer sampleReads (sampleTables noSeal) 60 .listConditions =
        answer sampleReads (sampleTables oneSeal) 60 .listConditions ↔
      CountsAgree ['r'] (sampleTables noSeal) (sampleTables oneSeal) 60 .listConditions :=
  quiet_round_iff sampleReads (sound_reached _ _) (sound_reached _ _) sampleTables_apart sampleTables_round rfl 60
    .listConditions fun _ h => h.elim

end Peal.Coordinator
