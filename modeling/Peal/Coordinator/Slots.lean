import Peal.Coordinator.Reveal

namespace Peal.Coordinator
open Peal.Fallible Peal.Runs

/-! # Where an accepted ciphertext ends up

A freeze reads the ciphertexts of its condition under one lock and writes their positions under another; a ciphertext is
accepted whenever its hash is known, under whatever condition. -/

namespace Database

/-- The hashes of the ciphertexts in the batches of a condition, slot by slot. -/
def slotHashes (db : Database) (c : Text) : List Text :=
  (db.batches.filter fun x => x.conditionId = c).flatMap fun x =>
    (batchCommittee db x).elim [] fun k => (batchCts db x k.b).map Ciphertext.ctHash

end Database

/-- Every hash accepted for a condition is in exactly one of its slots once it is frozen, and in its reveal once it is
revealed. -/
def Engine.NotLost (s : Engine) : Prop :=
  ∀ x ∈ s.accepted, ∀ row, s.db.conditions x.1 = some row →
    (row.status ≠ .pending → (s.db.slotHashes x.1).count x.2 = 1) ∧
    (row.status = .revealed → ∃ r, s.db.reveals x.1 = some r ∧ x.2 ∈ r.payloadsBlob.map RevealSlot.ctHash)

/-- A hash that is stored is stored under the condition. -/
def Mine (db : Database) (c hash : Text) : Prop := ∀ x ∈ db.ciphertexts, x.ctHash = hash → x.conditionId = c

/-- The wire bytes of the ciphertext in a request. -/
def EngineConfig.wireOf (cfg : EngineConfig) (b64 : Text) : Option Bytes :=
  (cfg.decode64 b64).bind fun blob => (cfg.ctWire blob).toOption

/-- What keeps an event from losing a ciphertext: a request brings no hash stored under another condition and draws no
share code in use, a freeze writes what the tables hold of its condition, and a reveal is built from stored slots. -/
def Engine.Keeps (cfg : EngineConfig) (s : Engine) : Engine.Event → Prop
  | .submitCiphertext c b64 _ _ _ => ∀ wire ∈ cfg.wireOf b64, Mine s.db c (ctHash wire)
  | .createSeal c b64 _ code => ∀ wire ∈ cfg.wireOf b64, Mine s.db c (ctHash wire) ∧
      ∀ x ∈ s.db.ciphertexts, x.code = some code → x.ctHash = ctHash wire
  | .freezeWrite _ _ => ∀ p ∈ s.freezing, ∀ x ∈ s.db.rowsOf p.conditionId, x.ctHash ∈ p.real.map Prod.fst
  | .buildReveal c now => s.SlotsStored (.buildReveal c now)
  | _ => True

section Step

variable {cfg : EngineConfig} {s s' : Engine} {c : Text} {f : Frozen}

lemma wireOf_eq {b64 : Text} {blob wire : Bytes} (h : cfg.decode64 b64 = some blob ∧ cfg.ctWire blob = .ok wire) :
    wire ∈ cfg.wireOf b64 := by
  unfold EngineConfig.wireOf
  rw [h.1, Option.bind_some, h.2]
  rfl

lemma FrozenAs.committee_of {db : Database} (h : FrozenAs db c f) {x : Batch} (hc : x.conditionId = c) :
    ∃ k, batchCommittee db x = some k ∧ k.b = f.size := by
  obtain ⟨row, k, hrow, -, hk, hb⟩ := h.condition
  refine ⟨k, ?_, hb⟩
  unfold batchCommittee
  rw [hc, hrow, Option.bind_some, hk]

lemma Inv.slotHashes_eq (hs : Inv s) (hf : s.frozen c = some f) : s.db.slotHashes c = f.hashes := by
  have h := hs.frozen c f hf
  have hindex := congrArg (List.map Prod.snd) h.numbered
  unfold Database.numbered at hindex
  rw [List.map_map, List.map_map] at hindex
  change List.map Batch.batchIndex _ = List.map id _ at hindex
  rw [List.map_id] at hindex
  have hbatch : ∀ x ∈ s.db.batches.filter fun x => x.conditionId = c,
      ((batchCommittee s.db x).elim [] fun k => (batchCts s.db x k.b).map Ciphertext.ctHash) =
        (f.batchEntries x.batchIndex).map Prod.snd := by
    intro x hx
    obtain ⟨hmem, hxc⟩ := List.mem_filter.mp hx
    have hc : x.conditionId = c := of_decide_eq_true hxc
    obtain ⟨g, hg, hi, -⟩ := hs.batch_frozen hmem
    rw [hc, hf] at hg
    obtain rfl := Option.some.inj hg
    obtain ⟨k, hk, hb⟩ := h.committee_of hc
    rw [hk, Option.elim_some, hb, hs.batchCts_hashes h hc hi]
  have hflat : ∀ l : List Batch, (l.flatMap fun x => (f.batchEntries x.batchIndex).map Prod.snd) =
      (l.map Batch.batchIndex).flatMap fun i => (f.batchEntries i).map Prod.snd := by
    intro l
    rw [List.flatMap_map]
  rw [Database.slotHashes, List.flatMap_congr hbatch, hflat, hindex, Frozen.hashes, ← flatMap_batchEntries h,
    List.map_flatMap]

/-- What is known of the accepted ciphertexts: each is a row of its condition, and an entry of its freeze. -/
structure Located (s : Engine) : Prop where
  held : ∀ x ∈ s.accepted, ∃ y ∈ s.db.ciphertexts, y.ctHash = x.2 ∧ y.conditionId = x.1
  located : ∀ x ∈ s.accepted, ∀ f, s.frozen x.1 = some f → x.2 ∈ f.hashes

lemma step_accepted {e : Engine.Event} (h : Engine.step cfg s e = .ok s') (hk : s.Keeps cfg e) :
    s'.accepted = s.accepted ∨ ∃ c hash row, s'.accepted = s.accepted ++ [(c, hash)] ∧ s'.frozen = s.frozen ∧
      s.db.conditions c = some row ∧ row.status = .pending ∧
      ∃ y ∈ s'.db.ciphertexts, y.ctHash = hash ∧ y.conditionId = c := by
  cases step_effect h with
  | submitCiphertext c b64 now code _ wire blob row rows hparsed hrow hpending hcoded hheld =>
    refine .inr ⟨c, ctHash wire, row, rfl, rfl, hrow, hpending, ?_⟩
    have hmine := hk wire (wireOf_eq hparsed)
    obtain ⟨y, hy, hyhash⟩ := hheld
    refine ⟨y, hy, hyhash, ?_⟩
    have hmem : y.uncoded ∈ (insertSeal s.db (ctHash wire) c blob now code).ciphertexts.map Ciphertext.uncoded :=
      hcoded ▸ List.mem_map_of_mem hy
    obtain ⟨z, hz, hzy⟩ := List.mem_map.mp hmem
    have hzc : z.uncoded.conditionId = y.uncoded.conditionId := congrArg Ciphertext.conditionId hzy
    have hzhash : z.uncoded.ctHash = y.uncoded.ctHash := congrArg Ciphertext.ctHash hzy
    change z.conditionId = y.conditionId at hzc
    change z.ctHash = y.ctHash at hzhash
    rw [← hzc]
    rcases @insertSeal_cases s.db (ctHash wire) c blob now code with ⟨-, heq⟩ | ⟨hfresh, heq⟩
    · rw [heq] at hz
      exact hmine z hz (hzhash.trans hyhash)
    · rw [heq] at hz
      rcases List.mem_append.mp hz with hold | hnew
      · exact absurd (hzhash.trans hyhash) (hfresh z hold)
      · obtain rfl := List.mem_singleton.mp hnew
        rfl
  | createSeal c b64 now code wire blob row hparsed hrow hpending =>
    refine .inr ⟨c, ctHash wire, row, rfl, rfl, hrow, hpending, ?_⟩
    obtain ⟨hmine, hcode⟩ := hk wire (wireOf_eq hparsed)
    dsimp only
    rcases @insertSeal_cases s.db (ctHash wire) c blob now code with ⟨⟨y, hy, hyin⟩, heq⟩ | ⟨-, heq⟩
    · rw [heq]
      have hhash : y.ctHash = ctHash wire := hyin.elim id fun hycode => hcode y hy hycode
      exact ⟨y, hy, hhash, hmine y hy hhash⟩
    · rw [heq]
      exact ⟨_, List.mem_append_right _ List.mem_cons_self, rfl, rfl⟩
  | shareKnown _ _ _ x =>
    obtain ⟨completed, heq⟩ := complete_same (s := s) x
    exact .inl (heq ▸ rfl)
  | shareWrite i now x _ =>
    obtain ⟨completed, heq⟩ :=
      complete_same (s := { s with db := insertShare s.db x now, submissions := s.submissions.eraseIdx i }) x
    exact .inl (heq ▸ rfl)
  | _ => exact .inl rfl

lemma Inv.pending_unfrozen (hs : Inv s) {row : Condition} (hrow : s.db.conditions c = some row)
    (hpending : row.status = .pending) : s.frozen c = none := by
  cases hf : s.frozen c with
  | none => rfl
  | some f =>
    obtain ⟨row', k, hrow', hstatus, -⟩ := (hs.frozen c f hf).condition
    obtain rfl := Option.some.inj (hrow.symm.trans hrow')
    exact absurd hpending hstatus

lemma rows_kept {e : Engine.Event} (hs : Inv s) (h : Engine.step cfg s e = .ok s') {x : Ciphertext}
    (hx : x ∈ s.db.ciphertexts) : ∃ y ∈ s'.db.ciphertexts, y.ctHash = x.ctHash ∧ y.conditionId = x.conditionId := by
  rcases step_slotsKept hs h with hk | ⟨batchId, recovered, now, db, -, hok, rfl⟩
  · obtain ⟨y, hy, hhash, hc, -⟩ := hk.rows x hx
    exact ⟨y, hy, hhash, hc⟩
  · obtain ⟨batch, k, -, -, -, -, -, rfl⟩ := finalizeBatch_ok hok
    exact ⟨x, hx, rfl, rfl⟩

theorem Located.step (hl : Located s) (hs : Inv s) {e : Engine.Event} (hk : s.Keeps cfg e)
    (h : Engine.step cfg s e = .ok s') : Located s' := by
  have hheld : ∀ x ∈ s.accepted, ∃ y ∈ s'.db.ciphertexts, y.ctHash = x.2 ∧ y.conditionId = x.1 := by
    intro x hx
    obtain ⟨y, hy, hhash, hc⟩ := hl.held x hx
    obtain ⟨z, hz, hzhash, hzc⟩ := rows_kept hs h hy
    exact ⟨z, hz, hzhash.trans hhash, hzc.trans hc⟩
  -- a freeze writes the rows of its condition, so those that were accepted
  have hlocated : ∀ x ∈ s.accepted, ∀ f, s'.frozen x.1 = some f → x.2 ∈ f.hashes := by
    intro x hx f hf
    rcases step_cases_freeze hs h with ⟨-, hfrozen, -⟩ | ⟨frozenAt, committedAt, p, db, g, rfl, hp, hok, rfl⟩
    · exact hl.located x hx f (hfrozen ▸ hf)
    · dsimp only at hf
      by_cases hc : x.1 = p.conditionId
      · rw [hc, Function.update_self] at hf
        obtain rfl := Option.some.inj hf
        obtain ⟨y, hy, hhash, hyc⟩ := hl.held x hx
        have hreal := hk p hp y (List.mem_filter.mpr ⟨hy, decide_eq_true (hyc.trans hc)⟩)
        obtain ⟨rfl, -⟩ := freezeWrite_eq_ok hok
        rw [Plan.frozen_hashes, Plan.ordered, List.map_append]
        exact List.mem_append_left _ (hhash ▸ hreal)
      · rw [Function.update_of_ne hc] at hf
        exact hl.located x hx f hf
  rcases step_accepted h hk with heq | ⟨c, hash, row, heq, hfrozen, hrow, hpending, hrow'⟩
  · exact ⟨heq ▸ hheld, heq ▸ hlocated⟩
  · refine ⟨fun x hx => ?_, fun x hx f hf => ?_⟩
    · rw [heq] at hx
      rcases List.mem_append.mp hx with hold | hnew
      · exact hheld x hold
      · obtain rfl := List.mem_singleton.mp hnew
        exact hrow'
    · rw [heq] at hx
      rcases List.mem_append.mp hx with hold | hnew
      · exact hlocated x hold f hf
      · obtain rfl := List.mem_singleton.mp hnew
        rw [hfrozen, hs.pending_unfrozen hrow hpending] at hf
        cases hf

/-! ### Every run -/

lemma slotsStored_of_keeps {e : Engine.Event} (h : s.Keeps cfg e) : s.SlotsStored e := by
  cases e with
  | buildReveal c now => exact h
  | _ => trivial

/-- Where every row's result will do. -/
def anyResult (_ : Bytes) (_ : Bool × Bytes) : Prop := True

lemma Located.kept_all (hl : Located s) (hs : Inv s) (hrev : s.Revealed anyResult) : s.NotLost := by
  intro x hx row hrow
  refine ⟨fun hstatus => ?_, fun hstatus => ?_⟩
  · obtain ⟨f, hf⟩ := hs.frozen_of_status hrow hstatus
    rw [hs.slotHashes_eq hf]
    exact List.count_eq_one_of_mem (hs.frozen _ f hf).nodup (hl.located x hx f hf)
  · obtain ⟨f, hf⟩ := hs.frozen_of_status hrow (by simp [hstatus])
    obtain ⟨r, hr, hcomplete⟩ := hrev x.1 row hrow hstatus
    refine ⟨r, hr, ?_⟩
    have has := (hs.revealComplete_iff (hs.frozen _ f hf)).mp hcomplete
    obtain ⟨p, hp⟩ := List.mem_iff_getElem?.mp (hl.located x hx f hf)
    have hlt : p < f.entries.length := by
      rw [← hashes_length]
      exact (List.getElem?_eq_some_iff.mp hp).1
    have hmem : p ∈ r.payloadsBlob.map RevealSlot.position := has.positions ▸ List.mem_range.mpr hlt
    obtain ⟨slot, hslot, rfl⟩ := List.mem_map.mp hmem
    have hhash := (has.payloads slot hslot).1
    rw [hp] at hhash
    exact List.mem_map.mpr ⟨slot, hslot, (Option.some.inj hhash).symm⟩

end Step

/-- In every run whose events all keep what they find, no accepted ciphertext is lost. -/
theorem not_lost (cfg : EngineConfig) (es : List Engine.Event)
    (h : Along (Engine.step cfg) (Engine.Keeps cfg) Engine.start es) :
    Throughout (Engine.step cfg) Engine.NotLost Engine.start es := by
  have hstep : ∀ s e s', Inv s ∧ Stored anyResult s ∧ Located s ∧ s.Revealed anyResult → s.Keeps cfg e →
      Engine.step cfg s e = .ok s' → Inv s' ∧ Stored anyResult s' ∧ Located s' ∧ s'.Revealed anyResult := by
    rintro s e s' ⟨hs, hst, hl, hrev⟩ hk hok
    have hnext : (advance (Engine.step cfg) s e).Revealed anyResult :=
      (revealed_step_iff ⟨hs, hst⟩ hrev).mpr (slotsStored_of_keeps hk)
    rw [advance_of_ok (Engine.step cfg) hok] at hnext
    exact ⟨hs.step hok, hst.step hs (.any e) hok, hl.step hs hk hok, hnext⟩
  have hst : Stored anyResult Engine.start := ⟨fun c f hf => (Option.some_ne_none f hf.symm).elim, fun _ _ => rfl⟩
  have hl : Located Engine.start := ⟨fun x hx => absurd hx List.not_mem_nil, fun x hx => absurd hx List.not_mem_nil⟩
  have hrev : Engine.start.Revealed anyResult := fun c row hrow => by cases hrow
  have hrun := throughout_along (Engine.step cfg) hstep ⟨inv_start, hst, hl, hrev⟩ h
  intro n
  obtain ⟨hs, -, hl, hrev⟩ := hrun n
  exact hl.kept_all hs hrev

instance (db : Database) (c hash : Text) : Decidable (Mine db c hash) :=
  inferInstanceAs (Decidable (∀ x ∈ db.ciphertexts, x.ctHash = hash → x.conditionId = c))

instance (cfg : EngineConfig) (s : Engine) : (e : Engine.Event) → Decidable (s.Keeps cfg e)
  | .submitCiphertext c b64 _ _ _ =>
    inferInstanceAs (Decidable (∀ wire ∈ cfg.wireOf b64, Mine s.db c (ctHash wire)))
  | .createSeal c b64 _ code => inferInstanceAs (Decidable (∀ wire ∈ cfg.wireOf b64,
      Mine s.db c (ctHash wire) ∧ ∀ x ∈ s.db.ciphertexts, x.code = some code → x.ctHash = ctHash wire))
  | .freezeWrite _ _ => inferInstanceAs (Decidable (∀ p ∈ s.freezing, ∀ x ∈ s.db.rowsOf p.conditionId,
      x.ctHash ∈ p.real.map Prod.fst))
  | .buildReveal c now => inferInstanceAs (Decidable (s.SlotsStored (.buildReveal c now)))
  | .registerCommittee .. => isTrue trivial
  | .createCondition .. => isTrue trivial
  | .submitIntent .. => isTrue trivial
  | .postAuthorization .. => isTrue trivial
  | .freezeRead .. => isTrue trivial
  | .shareRead .. => isTrue trivial
  | .shareWrite .. => isTrue trivial
  | .finalizeBatch .. => isTrue trivial
  | .markStalled .. => isTrue trivial
  | .crash => isTrue trivial
  | .finalizeTorn .. => isTrue trivial
  | .revealTorn .. => isTrue trivial

/-- A seal that is accepted after the freeze has read the round and before it writes. -/
def lateSeal : List Engine.Event :=
  opened 1 1 ++ [.createSeal ['r'] "AQ==".toList 10 ['a'], .freezeRead ['r'] 100 0 [],
    .createSeal ['r'] "Ag==".toList 101 ['b'], .freezeWrite 102 fun _ => 102]

lemma lateSeal_end :
    (exec (Engine.step sampleEngine) Engine.start lateSeal).accepted = [(['r'], ctHash [1]), (['r'], ctHash [2])] ∧
      (exec (Engine.step sampleEngine) Engine.start lateSeal).db.conditions ['r'] =
        some { sampleCondition with status := .frozen } ∧
      (exec (Engine.step sampleEngine) Engine.start lateSeal).db.slotHashes ['r'] = [ctHash [1]] := by
  decide +kernel

/-- The late seal has been answered with success and is in no slot of the frozen round. -/
theorem seal_lost : ¬Throughout (Engine.step sampleEngine) Engine.NotLost Engine.start lateSeal := by
  intro h
  obtain ⟨haccepted, hrow, hslots⟩ := lateSeal_end
  have hend := h lateSeal.length
  rw [List.take_length] at hend
  have hmem : (['r'], ctHash [2]) ∈ (exec (Engine.step sampleEngine) Engine.start lateSeal).accepted := by
    rw [haccepted]
    exact List.mem_cons_of_mem _ List.mem_cons_self
  obtain ⟨hcount, -⟩ := hend _ hmem _ hrow
  have hone := hcount (by decide)
  rw [hslots] at hone
  revert hone
  decide +kernel

/-- Two seals of a round that is frozen, opened and revealed. -/
def twoSeals : List Engine.Event :=
  opened 1 1 ++ [.createSeal ['r'] "AQ==".toList 10 ['a'], .createSeal ['r'] "Ag==".toList 11 ['b'],
    .freezeRead ['r'] 100 0 [], .freezeWrite 101 fun _ => 101,
    .shareRead 1 1 "AQE=".toList, .shareWrite 0 102, .shareRead 2 1 "AQE=".toList, .shareWrite 0 102,
    .finalizeBatch 1 [(true, [1])] 103, .finalizeBatch 2 [(true, [2])] 104, .buildReveal ['r'] 105]

lemma twoSeals_kept : Along (Engine.step sampleEngine) (Engine.Keeps sampleEngine) Engine.start twoSeals := by
  decide +kernel

theorem not_lost_sample : Throughout (Engine.step sampleEngine) Engine.NotLost Engine.start twoSeals :=
  not_lost sampleEngine twoSeals twoSeals_kept

end Peal.Coordinator
