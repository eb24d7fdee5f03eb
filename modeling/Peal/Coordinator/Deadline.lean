import Peal.Coordinator.Layout

namespace Peal.Coordinator
open Peal.Fallible Peal.Runs

/-! # When the ciphertexts of a timed round were accepted

The deadline is acted on by the engine's passes alone: both ways of sealing look at the status of the round, not at its
time. -/

namespace Engine

/-- What a request has brought to a success: its round, its ciphertext's hash and the clock then. -/
def acceptedBy (cfg : EngineConfig) (s : Engine) : Event → Option (Text × Text × Int)
  | .submitCiphertext c b64 now code backfill =>
    (submitCiphertext cfg s.db c b64 now code backfill).toOption.map fun r => (c, r.2.1, now)
  | .createSeal c b64 now code => (createSeal cfg.toConfig s.db c b64 now code).toOption.map fun r => (c, r.2.1, now)
  | _ => none

/-- A ciphertext brought to a pending timed round, not known yet, comes before the round's time. -/
def Early (cfg : EngineConfig) (s : Engine) (c b64 : Text) (now : Int) : Prop :=
  ∀ row ∈ s.db.conditions c, row.status = .pending → ∀ wire ∈ cfg.wireOf b64, s.db.seal? (ctHash wire) = none →
    match row.kind with
    | .atTime firesAt => now < firesAt
    | .atBlock _ _ => True

def InTime (cfg : EngineConfig) (s : Engine) : Event → Prop
  | .submitCiphertext c b64 now _ _ => s.Early cfg c b64 now
  | .createSeal c b64 now _ => s.Early cfg c b64 now
  | _ => True

end Engine

section Run

variable (cfg : EngineConfig) (es : List Engine.Event)

/-- A request of the run was answered with success, for this round and this hash, at this time. -/
def AcceptedAt (c hash : Text) (now : Int) : Prop :=
  ∃ n e, es[n]? = some e ∧ (Engine.reached cfg (es.take n)).acceptedBy cfg e = some (c, hash, now)

/-- Every real ciphertext that the reveal of a timed round counts was accepted for it before its time. -/
def Punctual : Prop :=
  ∀ c row firesAt r, (Engine.reached cfg es).db.conditions c = some row → row.kind = .atTime firesAt →
    (Engine.reached cfg es).db.reveals c = some r →
      ∀ slot ∈ r.payloadsBlob, slot.isDummy = false → ∃ now < firesAt, AcceptedAt cfg es c slot.ctHash now

/-- The round is known, and if it is timed the ciphertext was accepted for it before its time. -/
def Timely (db : Database) (c hash : Text) : Prop :=
  ∃ row, db.conditions c = some row ∧ ∀ firesAt, row.kind = .atTime firesAt → ∃ now < firesAt, AcceptedAt cfg es c hash now

/-- The real ciphertexts, stored and revealed, were accepted in time. -/
structure Timed (s : Engine) : Prop where
  rows : ∀ x ∈ s.db.ciphertexts, x.isDummy = false → Timely cfg es s.db x.conditionId x.ctHash
  reveals : ∀ c r, s.db.reveals c = some r → ∀ slot ∈ r.payloadsBlob, slot.isDummy = false →
    Timely cfg es s.db c slot.ctHash

end Run

section Step

variable {cfg : EngineConfig} {es : List Engine.Event} {s s' : Engine} {e : Engine.Event} {c hash : Text} {now : Int}

lemma AcceptedAt.append (h : AcceptedAt cfg es c hash now) (more : List Engine.Event) :
    AcceptedAt cfg (es ++ more) c hash now := by
  obtain ⟨n, e, hn, he⟩ := h
  obtain ⟨hlt, -⟩ := List.getElem?_eq_some_iff.mp hn
  refine ⟨n, e, by rw [List.getElem?_append_left hlt, hn], ?_⟩
  rwa [List.take_append_of_le_length hlt.le]

lemma acceptedAt_last (h : (Engine.reached cfg es).acceptedBy cfg e = some (c, hash, now)) :
    AcceptedAt cfg (es ++ [e]) c hash now := by
  refine ⟨es.length, e, List.getElem?_concat_length, ?_⟩
  rwa [List.take_left]

lemma kind_kept (hs : Inv s) (h : Engine.step cfg s e = .ok s') {row : Condition}
    (hrow : s.db.conditions c = some row) : ∃ row', s'.db.conditions c = some row' ∧ row'.kind = row.kind := by
  rcases step_cases_freeze hs h with ⟨hq, -⟩ | ⟨_, _, p, db, f, -, -, hok, rfl⟩
  · obtain ⟨status, heq, -⟩ := hq.conditions c row hrow
    exact ⟨_, heq, rfl⟩
  · by_cases hc : c = p.conditionId
    · obtain ⟨-, -, -, -, -, -, hconditions, -⟩ := freezeWrite_eq_ok hok
      refine ⟨{ row with status := .frozen }, ?_, rfl⟩
      dsimp only
      rw [hconditions, Database.setStatus_conditions, hc, Function.update_self, ← hc, hrow]
      rfl
    · exact ⟨row, (freezeWrite_conditions hok hc).trans hrow, rfl⟩

lemma Timely.append {db : Database} (ht : Timely cfg es db c hash) (more : List Engine.Event) :
    Timely cfg (es ++ more) db c hash := by
  obtain ⟨row, hrow, htimes⟩ := ht
  refine ⟨row, hrow, fun firesAt hat => ?_⟩
  obtain ⟨now, hlt, hacc⟩ := htimes firesAt hat
  exact ⟨now, hlt, hacc.append more⟩

lemma Timely.kept (hs : Inv s) (h : Engine.step cfg s e = .ok s') (ht : Timely cfg es s.db c hash) :
    Timely cfg (es ++ [e]) s'.db c hash := by
  obtain ⟨row, hrow, htimes⟩ := ht.append [e]
  obtain ⟨row', hrow', hkind⟩ := kind_kept hs h hrow
  exact ⟨row', hrow', fun firesAt hat => htimes firesAt (hkind ▸ hat)⟩

lemma Engine.Early.before (h : s.Early cfg c b64 now) {row : Condition} (hrow : s.db.conditions c = some row)
    (hpending : row.status = .pending) {wire : Bytes} (hwire : wire ∈ cfg.wireOf b64)
    (hnew : ∀ x ∈ s.db.ciphertexts, x.ctHash ≠ ctHash wire) : ∀ firesAt, row.kind = .atTime firesAt → now < firesAt := by
  intro firesAt hkind
  have hbefore := h row hrow hpending wire hwire (seal?_none_iff.mpr hnew)
  rw [hkind] at hbefore
  exact hbefore

lemma acceptedBy_submit {b64 code backfill : Text}
    (h : Engine.step cfg s (.submitCiphertext c b64 now code backfill) = .ok s')
    (hacc : s'.accepted = s.accepted ++ [(c, hash)]) :
    s.acceptedBy cfg (.submitCiphertext c b64 now code backfill) = some (c, hash, now) := by
  simp only [Engine.step] at h
  split at h
  · rename_i db hash' code' hok
    obtain rfl := Except.ok.inj h
    have hpair := List.append_cancel_left hacc
    obtain ⟨-, rfl⟩ := Prod.mk.inj (List.cons.inj hpair).1
    simp only [Engine.acceptedBy, hok]
    rfl
  · cases h

lemma acceptedBy_seal {b64 code : Text} (h : Engine.step cfg s (.createSeal c b64 now code) = .ok s')
    (hacc : s'.accepted = s.accepted ++ [(c, hash)]) :
    s.acceptedBy cfg (.createSeal c b64 now code) = some (c, hash, now) := by
  simp only [Engine.step] at h
  split at h
  · rename_i db hash' n hok
    obtain rfl := Except.ok.inj h
    have hpair := List.append_cancel_left hacc
    obtain ⟨-, rfl⟩ := Prod.mk.inj (List.cons.inj hpair).1
    simp only [Engine.acceptedBy, hok]
    rfl
  · cases h

lemma row_origin (hs : Inv s) (hnow : s.InTime cfg e) (h : Engine.step cfg s e = .ok s') {y : Ciphertext}
    (hy : y ∈ s'.db.ciphertexts) (hreal : y.isDummy = false) :
    (∃ x ∈ s.db.ciphertexts, x.ctHash = y.ctHash ∧ x.conditionId = y.conditionId ∧ x.isDummy = false) ∨
      ∃ now row, s.acceptedBy cfg e = some (y.conditionId, y.ctHash, now) ∧ s.db.conditions y.conditionId = some row ∧
        ∀ firesAt, row.kind = .atTime firesAt → now < firesAt := by
  cases step_effect h with
  | submitCiphertext c b64 now code backfill wire blob row rows hparsed hrow hpending hcoded _ =>
    have hacc := acceptedBy_submit h rfl
    have hmem : y.uncoded ∈ (insertSeal s.db (ctHash wire) c blob now code).ciphertexts.map Ciphertext.uncoded :=
      hcoded ▸ List.mem_map_of_mem hy
    obtain ⟨z, hz, hzy⟩ := List.mem_map.mp hmem
    have hhash : z.uncoded.ctHash = y.uncoded.ctHash := congrArg Ciphertext.ctHash hzy
    have hc : z.uncoded.conditionId = y.uncoded.conditionId := congrArg Ciphertext.conditionId hzy
    have hdummy : z.uncoded.isDummy = y.uncoded.isDummy := congrArg Ciphertext.isDummy hzy
    rcases @insertSeal_cases s.db (ctHash wire) c blob now code with ⟨-, heq⟩ | ⟨hnew, heq⟩
    · rw [heq] at hz
      exact .inl ⟨z, hz, hhash, hc, hdummy.trans hreal⟩
    · rw [heq] at hz
      rcases List.mem_append.mp hz with hold | hadded
      · exact .inl ⟨z, hold, hhash, hc, hdummy.trans hreal⟩
      · obtain rfl := List.mem_singleton.mp hadded
        change ctHash wire = y.ctHash at hhash
        change c = y.conditionId at hc
        subst hc
        exact .inr ⟨now, row, hhash ▸ hacc, hrow, Engine.Early.before hnow hrow hpending (wireOf_eq hparsed) hnew⟩
  | createSeal c b64 now code wire blob row hparsed hrow hpending =>
    have hacc := acceptedBy_seal h rfl
    dsimp only at hy
    rcases @insertSeal_cases s.db (ctHash wire) c blob now code with ⟨-, heq⟩ | ⟨hnew, heq⟩
    · rw [heq] at hy
      exact .inl ⟨y, hy, rfl, rfl, hreal⟩
    · rw [heq] at hy
      rcases List.mem_append.mp hy with hold | hadded
      · exact .inl ⟨y, hold, rfl, rfl, hreal⟩
      · obtain rfl := List.mem_singleton.mp hadded
        exact .inr ⟨now, row, hacc, hrow, Engine.Early.before hnow hrow hpending (wireOf_eq hparsed) hnew⟩
  | freezeWrite frozenAt committedAt p db f hp hok =>
    rcases freezeWrite_row (hs.plan p hp) hok hy with ⟨x, hx, hhash, hc, hdummy⟩ | ⟨-, hdummy, -⟩
    · exact .inl ⟨x, hx, hhash, hc, hdummy.trans hreal⟩
    · rw [hreal] at hdummy
      cases hdummy
  | shareKnown _ _ _ x =>
    obtain ⟨completed, heq⟩ := complete_same (s := s) x
    rw [heq] at hy
    exact .inl ⟨y, hy, rfl, rfl, hreal⟩
  | shareWrite i now x _ =>
    obtain ⟨completed, heq⟩ :=
      complete_same (s := { s with db := insertShare s.db x now, submissions := s.submissions.eraseIdx i }) x
    obtain ⟨shares, hdb⟩ := @insertShare_same s.db x now
    rw [heq, hdb] at hy
    exact .inl ⟨y, hy, rfl, rfl, hreal⟩
  | finalizeBatch batchId _ now db _ hok =>
    obtain ⟨batch, k, -, -, -, -, -, rfl⟩ := finalizeBatch_ok hok
    exact .inl ⟨y, hy, rfl, rfl, hreal⟩
  | _ => exact .inl ⟨y, hy, rfl, rfl, hreal⟩

lemma revealed_row (hs : Inv s) (hst : Stored anyResult s) {r : Reveal} (hr : assembleReveal s.db c now = .ok r)
    {slot : RevealSlot} (hslot : slot ∈ r.payloadsBlob) :
    ∃ x ∈ s.db.ciphertexts, x.conditionId = c ∧ x.ctHash = slot.ctHash ∧ x.isDummy = slot.isDummy := by
  obtain ⟨row, slots, hrow, hstatus, -, hslots, hblob, -⟩ := assembleReveal_ok hr
  have hne : row.status ≠ .pending := by
    rcases hstatus with heq | heq
    · simp [heq]
    · simp [heq]
  obtain ⟨f, hf⟩ := hs.frozen_of_status hrow hne
  rw [hblob, List.mem_insertionSort] at hslot
  obtain ⟨stored, hstored, hpos⟩ := forall₂_right hslots hslot
  obtain ⟨hat, ⟨x, hx, hhash, hdummy, -⟩, -⟩ := hst.positioned hs hf hstored hpos
  obtain ⟨y, hy, hyc, hyhash, -⟩ := (hs.frozen c f hf).row_at hat
  obtain rfl := hs.row_unique hx hy (hhash.trans hyhash.symm)
  exact ⟨x, hx, hyc, hhash, hdummy⟩

theorem Timed.step (ht : Timed cfg es (Engine.reached cfg es)) (hs : Inv (Engine.reached cfg es))
    (hst : Stored anyResult (Engine.reached cfg es)) (hnow : (Engine.reached cfg es).InTime cfg e)
    (h : Engine.step cfg (Engine.reached cfg es) e = .ok s') : Timed cfg (es ++ [e]) s' := by
  refine ⟨fun y hy hreal => ?_, fun c r hr slot hslot hreal => ?_⟩
  · rcases row_origin hs hnow h hy hreal with ⟨x, hx, hhash, hc, hdummy⟩ | ⟨now, row, hacc, hrow, hbefore⟩
    · rw [← hhash, ← hc]
      exact (ht.rows x hx hdummy).kept hs h
    · obtain ⟨row', hrow', hkind⟩ := kind_kept hs h hrow
      exact ⟨row', hrow', fun firesAt hat => ⟨now, hbefore firesAt (hkind ▸ hat), acceptedAt_last hacc⟩⟩
  · have hknown : ∀ {r₀ : Reveal}, (Engine.reached cfg es).db.reveals c = some r₀ → slot ∈ r₀.payloadsBlob →
        Timely cfg (es ++ [e]) s'.db c slot.ctHash := fun hr₀ hmem => (ht.reveals c _ hr₀ slot hmem hreal).kept hs h
    have hfresh : ∀ {now : Int} {r₀ : Reveal}, assembleReveal (Engine.reached cfg es).db c now = .ok r₀ →
        slot ∈ r₀.payloadsBlob → Timely cfg (es ++ [e]) s'.db c slot.ctHash := by
      intro now r₀ hr₀ hmem
      obtain ⟨x, hx, rfl, hhash, hdummy⟩ := revealed_row hs hst hr₀ hmem
      rw [← hhash]
      exact (ht.rows x hx (hdummy.trans hreal)).kept hs h
    rcases step_revealsKept h with ⟨hk, -⟩ | ⟨c', now, r', hr', hcases⟩
    · exact hknown (hk.reveals ▸ hr) hslot
    · have hreveals : s'.db.reveals = Function.update (Engine.reached cfg es).db.reveals c' (some r') := by
        rcases hcases with ⟨-, -, rfl⟩ | ⟨-, rfl⟩
        · rfl
        · rfl
      rw [hreveals] at hr
      by_cases hc : c = c'
      · subst hc
        rw [Function.update_self] at hr
        obtain rfl := Option.some.inj hr
        exact hfresh hr' hslot
      · rw [Function.update_of_ne hc] at hr
        exact hknown hr hslot

end Step

theorem timed_run (cfg : EngineConfig) (es : List Engine.Event)
    (h : Along (Engine.step cfg) (Engine.InTime cfg) Engine.start es) :
    Timed cfg es (Engine.reached cfg es) ∧ Stored anyResult (Engine.reached cfg es) := by
  induction es using List.reverseRecOn with
  | nil =>
    refine ⟨⟨fun x hx => absurd hx List.not_mem_nil, fun c r hr => ?_⟩, ⟨fun c f hf => ?_, fun _ _ => rfl⟩⟩
    · cases hr
    · cases hf
  | append_singleton es e ih =>
    have hbefore : Along (Engine.step cfg) (Engine.InTime cfg) Engine.start es := by
      have htake := along_take (Engine.step cfg) h es.length
      rwa [List.take_left] at htake
    obtain ⟨ht, hst⟩ := ih hbefore
    have hnow : (Engine.reached cfg es).InTime cfg e := along_last (Engine.step cfg) h
    have hnext : Engine.reached cfg (es ++ [e]) = advance (Engine.step cfg) (Engine.reached cfg es) e := exec_concat _ _ _ _
    have hs : Inv (Engine.reached cfg es) := inv_run cfg es
    rw [hnext]
    unfold advance
    cases hok : Engine.step cfg (Engine.reached cfg es) e with
    | ok s' => exact ⟨ht.step hs hst hnow hok, hst.step hs (.any e) hok⟩
    | error u =>
      refine ⟨⟨fun x hx hreal => ?_, fun c r hr slot hslot hreal => ?_⟩, hst⟩
      · exact (ht.rows x hx hreal).append [e]
      · exact (ht.reveals c r hr slot hslot hreal).append [e]

/-- In every run whose requests all come in time, or not to a pending round, or bring nothing new, whatever is counted as
real in the reveal of a timed round was accepted before the round's time. -/
theorem deadline_kept (cfg : EngineConfig) (es : List Engine.Event)
    (h : Along (Engine.step cfg) (Engine.InTime cfg) Engine.start es) : ∀ n, Punctual cfg (es.take n) := by
  intro n c row firesAt r hrow hkind hr slot hslot hreal
  obtain ⟨ht, -⟩ := timed_run cfg (es.take n) (along_take (Engine.step cfg) h n)
  obtain ⟨row', hrow', htimes⟩ := ht.reveals c r hr slot hslot hreal
  obtain rfl := Option.some.inj (hrow.symm.trans hrow')
  exact htimes firesAt hkind

instance : (kind : Kind) → (now : Int) →
    Decidable (match kind with | .atTime firesAt => now < firesAt | .atBlock _ _ => True)
  | .atTime firesAt, now => inferInstanceAs (Decidable (now < firesAt))
  | .atBlock _ _, _ => isTrue trivial

instance (cfg : EngineConfig) (s : Engine) (c b64 : Text) (now : Int) : Decidable (s.Early cfg c b64 now) := by
  unfold Engine.Early
  infer_instance

instance (cfg : EngineConfig) (s : Engine) : (e : Engine.Event) → Decidable (s.InTime cfg e)
  | .submitCiphertext c b64 now _ _ => inferInstanceAs (Decidable (s.Early cfg c b64 now))
  | .createSeal c b64 now _ => inferInstanceAs (Decidable (s.Early cfg c b64 now))
  | .registerCommittee .. => isTrue trivial
  | .createCondition .. => isTrue trivial
  | .submitIntent .. => isTrue trivial
  | .postAuthorization .. => isTrue trivial
  | .freezeRead .. => isTrue trivial
  | .freezeWrite .. => isTrue trivial
  | .shareRead .. => isTrue trivial
  | .shareWrite .. => isTrue trivial
  | .finalizeBatch .. => isTrue trivial
  | .buildReveal .. => isTrue trivial
  | .markStalled .. => isTrue trivial
  | .crash => isTrue trivial
  | .finalizeTorn .. => isTrue trivial
  | .revealTorn .. => isTrue trivial

lemma twoSeals_inTime : Along (Engine.step sampleEngine) (Engine.InTime sampleEngine) Engine.start twoSeals := by
  decide +kernel

theorem deadline_kept_sample : Punctual sampleEngine (twoSeals.take twoSeals.length) :=
  deadline_kept sampleEngine twoSeals twoSeals_inTime twoSeals.length

/-- The round's time is 100; the engine's first pass after it comes at 160, and a seal before that. -/
def lateTick : List Engine.Event :=
  opened 1 1 ++ [.createSeal ['r'] "AQ==".toList 150 ['a'], .freezeRead ['r'] 160 0 [], .freezeWrite 161 fun _ => 161,
    .shareRead 1 1 "AQE=".toList, .shareWrite 0 162, .finalizeBatch 1 [(true, [1])] 163, .buildReveal ['r'] 164]

lemma lateTick_end : (Engine.reached sampleEngine lateTick).db.conditions ['r'] =
      some { sampleCondition with status := .revealed } ∧
    ((Engine.reached sampleEngine lateTick).db.reveals ['r']).map Reveal.payloadsBlob =
      some [⟨0, ctHash [1], false, true, [1]⟩] := by
  decide +kernel

lemma lateTick_accepts : ∀ n < lateTick.length,
    (lateTick[n]?.bind fun e => (Engine.reached sampleEngine (lateTick.take n)).acceptedBy sampleEngine e).all
      (fun x => 100 ≤ x.2.2) := by
  decide +kernel

/-- The seal is revealed as real, and was accepted only after the deadline. -/
theorem sealed_late : ¬Punctual sampleEngine lateTick := by
  intro h
  obtain ⟨hrow, hreveal⟩ := lateTick_end
  obtain ⟨r, hr, hblob⟩ := Option.map_eq_some_iff.mp hreveal
  obtain ⟨now, hlt, n, e, hn, hacc⟩ := h ['r'] _ 100 r hrow rfl hr _ (hblob ▸ List.mem_cons_self) rfl
  obtain ⟨hlength, -⟩ := List.getElem?_eq_some_iff.mp hn
  have hlate := lateTick_accepts n hlength
  rw [hn, Option.bind_some, hacc, Option.all_some, decide_eq_true_eq] at hlate
  exact absurd hlt (not_lt.mpr hlate)

end Peal.Coordinator
