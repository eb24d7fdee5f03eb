import Peal.Coordinator.Engine

namespace Peal.Coordinator
open Peal.Fallible Peal.Runs
open Peal.Links (hexEncode)

/-! # What each event of the engine does, once its checks have passed -/

variable {cfg : EngineConfig} {db db' : Database}

lemma seal?_none_iff {hash : Text} : db.seal? hash = none ↔ ∀ x ∈ db.ciphertexts, x.ctHash ≠ hash := by
  unfold Database.seal?
  rw [List.find?_eq_none]
  simp only [decide_eq_true_eq]

lemma insertSeal_cases (hash c : Text) (blob : Bytes) (now : Int) (code : Text) :
    ((∃ x ∈ db.ciphertexts, x.ctHash = hash ∨ x.code = some code) ∧ insertSeal db hash c blob now code = db) ∨
      (∀ x ∈ db.ciphertexts, x.ctHash ≠ hash) ∧
        insertSeal db hash c blob now code =
          { db with ciphertexts := db.ciphertexts ++ [⟨hash, c, blob, false, none, now, some code⟩] } := by
  unfold insertSeal
  split_ifs with h
  · refine .inl ⟨?_, rfl⟩
    rcases h with hhash | hcode
    · obtain ⟨x, hx⟩ := Option.isSome_iff_exists.mp hhash
      have htest := List.find?_some hx
      exact ⟨x, List.mem_of_find?_eq_some hx, .inl (of_decide_eq_true htest)⟩
    · obtain ⟨x, hx, htest⟩ := List.any_eq_true.mp hcode
      exact ⟨x, hx, .inr (of_decide_eq_true htest)⟩
  · rw [not_or, Option.not_isSome_iff_eq_none] at h
    exact .inr ⟨seal?_none_iff.mp h.1, rfl⟩

/-- A row without its share code. -/
def Ciphertext.uncoded (x : Ciphertext) : Ciphertext := { x with code := none }

lemma backfillCode_ok {hash code : Text} (h : backfillCode db hash code = .ok db') :
    ∃ rows, db' = { db with ciphertexts := rows } ∧
      rows.map Ciphertext.uncoded = db.ciphertexts.map Ciphertext.uncoded := by
  unfold backfillCode at h
  split_ifs at h
  · simp only [bind_eq_ok, require_eq_ok, pure_eq_ok] at h
    obtain ⟨⟨⟩, -, rfl⟩ := h
    refine ⟨_, rfl, ?_⟩
    rw [List.map_map]
    apply List.map_congr_left
    intro x _
    simp only [Function.comp_apply]
    split_ifs
    · rfl
    · rfl
  · obtain rfl := Except.ok.inj h
    exact ⟨db.ciphertexts, rfl, rfl⟩

lemma sealId_hash {b64 hash : Text} {blob : Bytes} (h : sealId cfg.toConfig b64 = .ok (hash, blob)) :
    ∃ wire, cfg.decode64 b64 = some blob ∧ cfg.ctWire blob = .ok wire ∧ hash = ctHash wire := by
  simp only [sealId, bind_eq_ok] at h
  obtain ⟨⟨⟩, -, bytes, hbytes, h⟩ := h
  cases hw : cfg.ctWire bytes with
  | ok wire =>
    rw [hw] at h
    obtain ⟨rfl, rfl⟩ := Prod.mk.inj (Except.ok.inj h)
    exact ⟨wire, expect_eq_ok.mp hbytes, hw, rfl⟩
  | error e =>
    rw [hw] at h
    cases h

lemma createSeal_ok {roundId b64 : Text} {now : Int} {code hash : Text} {n : Nat}
    (h : createSeal cfg.toConfig db roundId b64 now code = .ok (db', hash, n)) :
    ∃ blob row, sealId cfg.toConfig b64 = .ok (hash, blob) ∧ db.conditions roundId = some row ∧ row.status = .pending ∧
      db' = insertSeal db hash roundId blob now code := by
  simp only [createSeal, bind_eq_ok, expect_eq_ok, require_eq_ok, pure_eq_ok, Prod.mk.injEq] at h
  obtain ⟨⟨id, blob⟩, hid, row, hrow, ⟨⟩, hpending, rfl, rfl, -⟩ := h
  exact ⟨blob, row, hid, hrow, hpending, rfl⟩

lemma parseWire_ok {blob wire : Bytes} (h : parseWire cfg blob = .ok wire) : cfg.ctWire blob = .ok wire := by
  unfold parseWire at h
  cases hw : cfg.ctWire blob with
  | ok wire' =>
    rw [hw] at h
    exact congrArg Except.ok (Except.ok.inj h)
  | error e =>
    rw [hw] at h
    cases h

lemma submitCiphertext_ok {c b64 : Text} {now : Int} {code backfill hash code' : Text}
    (h : submitCiphertext cfg db c b64 now code backfill = .ok (db', hash, code')) :
    ∃ blob wire row rows, (cfg.decode64 b64 = some blob ∧ cfg.ctWire blob = .ok wire) ∧ hash = ctHash wire ∧
      db.conditions c = some row ∧ row.status = .pending ∧
      db' = { insertSeal db hash c blob now code with ciphertexts := rows } ∧
      rows.map Ciphertext.uncoded = (insertSeal db hash c blob now code).ciphertexts.map Ciphertext.uncoded ∧
      ∃ x ∈ rows, x.ctHash = hash := by
  simp only [submitCiphertext, bind_eq_ok, expect_eq_ok, require_eq_ok, pure_eq_ok, Prod.mk.injEq] at h
  obtain ⟨⟨⟩, -, blob, hblob, ⟨⟩, -, wire, hwire, row, hrow, ⟨⟩, hpending, db₁, hback, code₁, hcode, rfl, rfl, -⟩ := h
  obtain ⟨rows, rfl, hrows⟩ := backfillCode_ok hback
  refine ⟨blob, wire, row, rows, ⟨hblob, parseWire_ok hwire⟩, rfl, hrow, hpending, rfl, hrows, ?_⟩
  obtain ⟨x, hx, -⟩ := Option.bind_eq_some_iff.mp hcode
  have hhash := List.find?_some hx
  exact ⟨x, List.mem_of_find?_eq_some hx, of_decide_eq_true hhash⟩

lemma submitIntent_ok {req : SubmitIntent} {now : Int} {out : IntentAccepted}
    (h : submitIntent cfg db req now = .ok (db', out)) :
    db' = db ∨ ∃ it : Intent, it.state = .submitted ∧ db' = { db with intents := db.intents ++ [it] } ∧
      (∀ x ∈ db.intents, x.id ≠ it.id) ∧ 8 ≤ it.id.length ∧
      (∃ x ∈ db.ciphertexts, x.ctHash = it.ciphertextHash ∧ x.conditionId = it.conditionId) ∧
      ∃ row, db.conditions it.conditionId = some row ∧ row.status = .pending := by
  simp only [submitIntent, bind_eq_ok] at h
  obtain ⟨⟨⟩, hcheck, h⟩ := h
  split at h
  · rw [pure_eq_ok, Prod.mk.injEq] at h
    exact .inl h.1.symm
  · simp only [bind_eq_ok, require_eq_ok, expect_eq_ok, pure_eq_ok, Prod.mk.injEq] at h
    obtain ⟨⟨⟩, hheld, row, hrow, ⟨⟩, hpending, ⟨⟩, hreplay, rfl, -⟩ := h
    refine .inr ⟨_, rfl, rfl, fun x hx heq => hreplay ?_, ?_, ?_, row, hrow, hpending⟩
    · refine List.any_eq_true.mpr ⟨x, hx, ?_⟩
      rw [Bool.or_eq_true]
      exact .inl (decide_eq_true heq)
    · simp only [checkIntent, bind_eq_ok, require_eq_ok] at hcheck
      obtain ⟨⟨⟩, -, ⟨⟩, hid, -⟩ := hcheck
      simp only [isUrlSafe, Bool.and_eq_true, decide_eq_true_eq] at hid
      exact hid.1.1
    · obtain ⟨x, hx, heq⟩ := List.any_eq_true.mp hheld
      obtain ⟨hmem, hc⟩ := List.mem_filter.mp hx
      exact ⟨x, hmem, of_decide_eq_true heq, of_decide_eq_true hc⟩

lemma postAuthorization_ok {id authorizationHash signature : Text} {now : Int}
    (h : postAuthorization cfg db id authorizationHash signature now = .ok db') :
    ∃ it : Intent, it ∈ db.intents ∧ canTransition it.state .authorized = true ∧
      db' = { db with intents := db.intents.map fun x =>
        if x.id = id then { x with state := .authorized, authorizationHash := some authorizationHash } else x } ∧
      it.id = id := by
  simp only [postAuthorization, bind_eq_ok, expect_eq_ok, require_eq_ok, pure_eq_ok] at h
  obtain ⟨⟨⟩, -, it, hit, ⟨⟩, -, ⟨⟩, -, ⟨⟩, hcan, rfl⟩ := h
  have hid := List.find?_some hit
  exact ⟨it, List.mem_of_find?_eq_some hit, hcan, rfl, of_decide_eq_true hid⟩

lemma freezeWrite_eq_ok {p : Plan} {frozenAt : Int} {committedAt : Nat → Int} {f : Frozen}
    (h : freezeWrite cfg db p frozenAt committedAt = .ok (db', f)) :
    f = p.frozen cfg db frozenAt committedAt ∧ (p.dummies.map Prod.fst).Nodup ∧
      (∀ d ∈ p.dummies, ∀ x ∈ db.ciphertexts, x.ctHash ≠ d.1) ∧
      db'.ciphertexts = assignPositions (db.ciphertexts ++ p.dummies.map fun d =>
        ⟨d.1, p.conditionId, d.2, true, none, frozenAt, none⟩) p.ordered ∧
      db'.batches = db.batches ++ (List.range f.batches).map (f.batch p.conditionId) ∧
      db'.batchCommitments = (List.range f.batches).foldl
        (fun rows i => recordCommitment rows (f.commitment p.conditionId i)) db.batchCommitments ∧
      db'.conditions = (db.setStatus p.conditionId .frozen).conditions ∧ db'.committees = db.committees ∧
      db'.intents = [IntentState.validated, .batched, .orderCommitted].foldl
        (fun intents to_ => advanceConditionIntents intents p.conditionId to_) db.intents ∧
      db'.shares = db.shares ∧ db'.batchSlots = db.batchSlots ∧ db'.reveals = db.reveals := by
  simp only [freezeWrite, bind_eq_ok, require_eq_ok, pure_eq_ok, Prod.mk.injEq] at h
  obtain ⟨⟨⟩, ⟨hnodup, hfresh⟩, rfl, rfl⟩ := h
  exact ⟨rfl, hnodup, fun d hd => seal?_none_iff.mp (hfresh d hd), rfl, rfl, rfl, rfl, rfl, rfl, rfl, rfl, rfl⟩

lemma finalizeBatch_ok {batchId : Nat} {recovered : List (Bool × Bytes)} {now : Int}
    (h : finalizeBatch db batchId recovered now = .ok db') :
    ∃ batch k, batchId ∈ ready db ∧ batch ∈ db.batches ∧ batch.id = batchId ∧ batchCommittee db batch = some k ∧
      recovered.length = (batchCts db batch k.b).length ∧
      db' = { markFinalized db batchId now with
        batchSlots := Function.update db.batchSlots batchId (some (recoveredSlots (batchCts db batch k.b) recovered)) } := by
  simp only [finalizeBatch, bind_eq_ok, require_eq_ok, expect_eq_ok, pure_eq_ok] at h
  obtain ⟨⟨⟩, hready, batch, hbatch, k, hk, ⟨⟩, hlength, rfl⟩ := h
  have hid := List.find?_some hbatch
  exact ⟨batch, k, hready, List.mem_of_find?_eq_some hbatch, of_decide_eq_true hid, hk, hlength, rfl⟩

/-- A slot with the position of its ciphertext. -/
def Positioned (db : Database) (slot out : RevealSlot) : Prop :=
  ∃ position, (db.seal? slot.ctHash).bind Ciphertext.position = some position ∧ { slot with position } = out

lemma assembleReveal_ok {c : Text} {now : Int} {reveal : Reveal} (h : assembleReveal db c now = .ok reveal) :
    ∃ row slots, db.conditions c = some row ∧ (row.status = .frozen ∨ row.status = .stalled) ∧
      (∀ x ∈ db.batches, x.conditionId = c → x.finalizedAt ≠ none) ∧
      List.Forall₂ (Positioned db) (slotsOf db c) slots ∧
      reveal.payloadsBlob = slots.insertionSort (fun x y => x.position ≤ y.position) ∧
      reveal.merkleRoot =
        hexEncode (merkleRoot (reveal.payloadsBlob.map fun slot => revealLeaf slot.position slot.payload)) := by
  simp only [assembleReveal, bind_eq_ok, require_eq_ok, pure_eq_ok] at h
  obtain ⟨row, hrow, ⟨⟩, ⟨hstatus, -, hdone⟩, slots, hslots, rfl⟩ := h
  refine ⟨row, slots, expect_eq_ok.mp hrow, hstatus,
    fun x hx hc => hdone x (List.mem_filter.mpr ⟨hx, decide_eq_true hc⟩), ?_, rfl, rfl⟩
  refine (mapM_eq_ok.mp hslots).imp fun slot out hout => ?_
  simp only [bind_eq_ok, expect_eq_ok, pure_eq_ok] at hout
  exact hout

lemma assembleReveal_of {c : Text} {now : Int} {row : Condition} {slots : List RevealSlot}
    (hrow : db.conditions c = some row) (hstatus : row.status = .frozen ∨ row.status = .stalled)
    (hbatches : (db.batches.filter fun x => x.conditionId = c) ≠ [])
    (hdone : ∀ x ∈ db.batches.filter fun x => x.conditionId = c, x.finalizedAt ≠ none)
    (hslots : List.Forall₂ (Positioned db) (slotsOf db c) slots) : ∃ r, assembleReveal db c now = .ok r := by
  let sorted := slots.insertionSort fun x y => x.position ≤ y.position
  refine ⟨⟨now, sorted, hexEncode (merkleRoot (sorted.map fun slot => revealLeaf slot.position slot.payload))⟩, ?_⟩
  simp only [assembleReveal, bind_eq_ok, require_eq_ok, pure_eq_ok]
  refine ⟨row, expect_eq_ok.mpr hrow, (), ⟨hstatus, hbatches, hdone⟩, slots, mapM_eq_ok.mpr (hslots.imp ?_), rfl⟩
  intro slot out hout
  simp only [bind_eq_ok, expect_eq_ok, pure_eq_ok]
  exact hout

lemma positioned_hashes {slots outs : List RevealSlot} (h : List.Forall₂ (Positioned db) slots outs) :
    outs.map RevealSlot.ctHash = slots.map RevealSlot.ctHash := by
  induction h with
  | nil => rfl
  | cons hpos _ ih =>
    obtain ⟨position, -, rfl⟩ := hpos
    rw [List.map_cons, List.map_cons, ih]

/-- The effect of each event, with what has been checked for it. -/
inductive Effect (cfg : EngineConfig) (s : Engine) : Engine.Event → Engine → Prop where
  | registerCommittee (row : Committee) (fresh : s.db.committee? row.id = none) :
    Effect cfg s (.registerCommittee row) { s with db := { s.db with committees := s.db.committees ++ [row] } }
  | createCondition (id : Text) (row : Condition) (fresh : s.db.conditions id = none) (pending : row.status = .pending) :
    Effect cfg s (.createCondition id row) { s with db := s.db.insertCondition id row }
  | submitCiphertext (c b64 : Text) (now : Int) (code backfill : Text) (wire blob : Bytes) (row : Condition)
      (rows : List Ciphertext) (parsed : cfg.decode64 b64 = some blob ∧ cfg.ctWire blob = .ok wire)
      (known : s.db.conditions c = some row) (pending : row.status = .pending)
      (coded : rows.map Ciphertext.uncoded =
        (insertSeal s.db (ctHash wire) c blob now code).ciphertexts.map Ciphertext.uncoded)
      (held : ∃ x ∈ rows, x.ctHash = ctHash wire) :
    Effect cfg s (.submitCiphertext c b64 now code backfill) { s with
      db := { insertSeal s.db (ctHash wire) c blob now code with ciphertexts := rows }
      accepted := s.accepted ++ [(c, ctHash wire)] }
  | createSeal (c b64 : Text) (now : Int) (code : Text) (wire blob : Bytes) (row : Condition)
      (parsed : cfg.decode64 b64 = some blob ∧ cfg.ctWire blob = .ok wire) (known : s.db.conditions c = some row)
      (pending : row.status = .pending) :
    Effect cfg s (.createSeal c b64 now code) { s with
      db := insertSeal s.db (ctHash wire) c blob now code
      accepted := s.accepted ++ [(c, ctHash wire)] }
  | intentKnown (req : SubmitIntent) (now : Int) : Effect cfg s (.submitIntent req now) s
  | submitIntent (req : SubmitIntent) (now : Int) (it : Intent) (row : Condition) (submitted : it.state = .submitted)
      (fresh : ∀ x ∈ s.db.intents, x.id ≠ it.id) (named : 8 ≤ it.id.length)
      (held : ∃ x ∈ s.db.ciphertexts, x.ctHash = it.ciphertextHash ∧ x.conditionId = it.conditionId)
      (known : s.db.conditions it.conditionId = some row) (pending : row.status = .pending) :
    Effect cfg s (.submitIntent req now) { s with db := { s.db with intents := s.db.intents ++ [it] } }
  | postAuthorization (id authorizationHash signature : Text) (now : Int) (it : Intent) (known : it ∈ s.db.intents)
      (can : canTransition it.state .authorized = true) (named : it.id = id) :
    Effect cfg s (.postAuthorization id authorizationHash signature now) { s with
      db := { s.db with intents := s.db.intents.map fun x =>
        if x.id = id then { x with state := .authorized, authorizationHash := some authorizationHash } else x } }
  | freezeRead (c : Text) (now head : Int) (drawn : List Bytes) (p : Plan) (idle : s.freezing = none)
      (planned : freezeRead s.db c drawn = .ok p) :
    Effect cfg s (.freezeRead c now head drawn) { s with freezing := some p }
  | freezeWrite (frozenAt : Int) (committedAt : Nat → Int) (p : Plan) (db : Database) (f : Frozen)
      (planned : s.freezing = some p) (written : freezeWrite cfg s.db p frozenAt committedAt = .ok (db, f)) :
    Effect cfg s (.freezeWrite frozenAt committedAt)
      { s with db, freezing := none, frozen := Function.update s.frozen p.conditionId (some f) }
  | freezeFailed (frozenAt : Int) (committedAt : Nat → Int) (p : Plan) (planned : s.freezing = some p) :
    Effect cfg s (.freezeWrite frozenAt committedAt) { s with freezing := none }
  | shareKnown (batchId operatorId : Nat) (b64 : Text) (x : Submission) (y : Share)
      (read : readShare cfg s.db batchId operatorId b64 = .ok (x, some y)) :
    Effect cfg s (.shareRead batchId operatorId b64) (s.complete x)
  | shareRead (batchId operatorId : Nat) (b64 : Text) (x : Submission)
      (read : readShare cfg s.db batchId operatorId b64 = .ok (x, none)) :
    Effect cfg s (.shareRead batchId operatorId b64) { s with submissions := s.submissions ++ [x] }
  | shareWrite (i : Nat) (now : Int) (x : Submission) (pending : s.submissions[i]? = some x) :
    Effect cfg s (.shareWrite i now)
      ({ s with db := insertShare s.db x now, submissions := s.submissions.eraseIdx i }.complete x)
  | finalizeBatch (batchId : Nat) (recovered : List (Bool × Bytes)) (now : Int) (db : Database)
      (idle : s.freezing = none) (done : finalizeBatch s.db batchId recovered now = .ok db) :
    Effect cfg s (.finalizeBatch batchId recovered now) { s with db }
  | buildReveal (c : Text) (now : Int) (reveal : Reveal) (idle : s.freezing = none)
      (assembled : assembleReveal s.db c now = .ok reveal) :
    Effect cfg s (.buildReveal c now) { s with db := (storeReveal s.db c reveal).setStatus c .revealed }
  | markStalled (now : Int) : Effect cfg s (.markStalled now) { s with db := markStalled cfg s.db now }
  | crash : Effect cfg s .crash (s.restart s.db)
  | finalizeTorn (batchId : Nat) (now : Int) (isReady : batchId ∈ ready s.db) :
    Effect cfg s (.finalizeTorn batchId now) (s.restart (markFinalized s.db batchId now))
  | revealTorn (c : Text) (now : Int) (reveal : Reveal) (assembled : assembleReveal s.db c now = .ok reveal) :
    Effect cfg s (.revealTorn c now) (s.restart (storeReveal s.db c reveal))

theorem step_effect {s s' : Engine} {e : Engine.Event} (h : Engine.step cfg s e = .ok s') : Effect cfg s e s' := by
  cases e with
  | registerCommittee row =>
    simp only [Engine.step, bind_eq_ok, require_eq_ok, pure_eq_ok] at h
    obtain ⟨⟨⟩, hfresh, rfl⟩ := h
    exact .registerCommittee row hfresh
  | createCondition id row =>
    simp only [Engine.step, bind_eq_ok, require_eq_ok, pure_eq_ok] at h
    obtain ⟨⟨⟩, ⟨hfresh, hpending⟩, rfl⟩ := h
    exact .createCondition id row hfresh hpending
  | submitCiphertext c b64 now code backfill =>
    simp only [Engine.step] at h
    split at h
    · rename_i db hash code' hok
      obtain rfl := Except.ok.inj h
      obtain ⟨blob, wire, row, rows, hparsed, rfl, hrow, hpending, rfl, hrows, hheld⟩ := submitCiphertext_ok hok
      exact .submitCiphertext c b64 now code backfill wire blob row rows hparsed hrow hpending hrows hheld
    · cases h
  | createSeal c b64 now code =>
    simp only [Engine.step] at h
    split at h
    · rename_i db hash n hok
      obtain rfl := Except.ok.inj h
      obtain ⟨blob, row, hid, hrow, hpending, rfl⟩ := createSeal_ok hok
      obtain ⟨wire, hblob, hwire, rfl⟩ := sealId_hash hid
      exact .createSeal c b64 now code wire blob row ⟨hblob, hwire⟩ hrow hpending
    · cases h
  | submitIntent req now =>
    simp only [Engine.step] at h
    split at h
    · rename_i db out hok
      obtain rfl := Except.ok.inj h
      rcases submitIntent_ok hok with rfl | ⟨it, hstate, rfl, hfresh, hname, hheld, row, hrow, hpending⟩
      · exact .intentKnown req now
      · exact .submitIntent req now it row hstate hfresh hname hheld hrow hpending
    · cases h
  | postAuthorization id hash signature now =>
    simp only [Engine.step] at h
    split at h
    · rename_i db hok
      obtain rfl := Except.ok.inj h
      obtain ⟨it, hit, hcan, rfl, hid⟩ := postAuthorization_ok hok
      exact .postAuthorization id hash signature now it hit hcan hid
    · cases h
  | freezeRead c now head drawn =>
    simp only [Engine.step, bind_eq_ok, require_eq_ok, expect_eq_ok, pure_eq_ok, Option.isNone_iff_eq_none] at h
    obtain ⟨⟨⟩, hidle, row, -, ⟨⟩, -, p, hok, rfl⟩ := h
    exact .freezeRead c now head drawn p hidle hok
  | freezeWrite frozenAt committedAt =>
    simp only [Engine.step, bind_eq_ok, expect_eq_ok] at h
    obtain ⟨p, hp, h⟩ := h
    split at h
    · rename_i db f hok
      obtain rfl := pure_eq_ok.mp h
      exact .freezeWrite frozenAt committedAt p db f hp hok
    · obtain rfl := pure_eq_ok.mp h
      exact .freezeFailed frozenAt committedAt p hp
  | shareRead batchId operatorId b64 =>
    simp only [Engine.step] at h
    split at h
    · rename_i x y hok
      obtain rfl := Except.ok.inj h
      exact .shareKnown batchId operatorId b64 x y hok
    · rename_i x hok
      obtain rfl := Except.ok.inj h
      exact .shareRead batchId operatorId b64 x hok
    · cases h
  | shareWrite i now =>
    simp only [Engine.step, bind_eq_ok, expect_eq_ok, pure_eq_ok] at h
    obtain ⟨x, hx, rfl⟩ := h
    exact .shareWrite i now x hx
  | finalizeBatch batchId recovered now =>
    simp only [Engine.step, bind_eq_ok, require_eq_ok, pure_eq_ok, Option.isNone_iff_eq_none] at h
    obtain ⟨⟨⟩, hidle, db, hok, rfl⟩ := h
    exact .finalizeBatch batchId recovered now db hidle hok
  | buildReveal c now =>
    simp only [Engine.step, bind_eq_ok, require_eq_ok, pure_eq_ok, Option.isNone_iff_eq_none, buildReveal] at h
    obtain ⟨⟨⟩, hidle, db, ⟨reveal, hok, rfl⟩, rfl⟩ := h
    exact .buildReveal c now reveal hidle hok
  | markStalled now =>
    simp only [Engine.step, bind_eq_ok, require_eq_ok, pure_eq_ok] at h
    obtain ⟨⟨⟩, -, rfl⟩ := h
    exact .markStalled now
  | crash =>
    obtain rfl := Except.ok.inj h
    exact .crash
  | finalizeTorn batchId now =>
    simp only [Engine.step, bind_eq_ok, require_eq_ok, pure_eq_ok] at h
    obtain ⟨⟨⟩, ⟨-, hready⟩, rfl⟩ := h
    exact .finalizeTorn batchId now hready
  | revealTorn c now =>
    simp only [Engine.step, bind_eq_ok, require_eq_ok, pure_eq_ok] at h
    obtain ⟨⟨⟩, -, reveal, hok, rfl⟩ := h
    exact .revealTorn c now reveal hok

end Peal.Coordinator
