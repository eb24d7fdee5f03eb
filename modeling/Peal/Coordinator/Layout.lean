import Peal.Coordinator.Slots
import Mathlib.Data.Finset.Sort

namespace Peal.Coordinator
open Peal.Fallible Peal.Runs

/-! # The layout of a frozen condition -/

/-- The state a run of the engine ends in. -/
def Engine.reached (cfg : EngineConfig) (es : List Engine.Event) : Engine := exec (Engine.step cfg) Engine.start es

/-- The hashes of a condition's real ciphertexts. -/
def Database.realHashes (db : Database) (c : Text) : List Text :=
  ((db.rowsOf c).filter fun x => !x.isDummy).map Ciphertext.ctHash

/-- A freeze of the run has read the condition while its real ciphertexts were these, and no other. -/
def ReadAt (cfg : EngineConfig) (es : List Engine.Event) (c : Text) (real : Finset Text) : Prop :=
  ∃ n now head drawn, es[n]? = some (.freezeRead c now head drawn) ∧
    (∀ x ∈ (Engine.reached cfg (es.take n)).db.rowsOf c, x.isDummy = false) ∧
    ((Engine.reached cfg (es.take n)).db.realHashes c).Nodup ∧
    real = ((Engine.reached cfg (es.take n)).db.realHashes c).toFinset

/-- The positions of a condition's ciphertexts, given the set of its real hashes, its batch size and the hashes in
position order. -/
structure Layout (db : Database) (c : Text) (real : Finset Text) (size : Nat) (hashes : List Text) : Prop where
  sized : ∃ row k, db.conditions c = some row ∧ db.committee? row.committeeId = some k ∧ k.b = size
  total : IsLeast {total | 0 < total ∧ size ∣ total ∧ real.card ≤ total} hashes.length
  bijection : ∀ p < hashes.length, ∃! x, x ∈ db.rowsOf c ∧ x.position = some p
  assigned : ∀ x ∈ db.rowsOf c, ∀ p, x.position = some p ↔ hashes[p]? = some x.ctHash
  realFirst : hashes.take real.card = real.sort
  dummiesLast : ∀ x ∈ db.rowsOf c, ∀ p, x.position = some p → (x.isDummy = true ↔ real.card ≤ p)
  batches : (db.batches.filter fun x => x.conditionId = c).map Batch.batchIndex = List.range (hashes.length / size)
  full : hashes.length / size * size = hashes.length
  blocks : ∀ x ∈ db.batches, x.conditionId = c →
    (batchCts db x size).map Ciphertext.position = (List.range' (x.batchIndex * size) size).map some

/-! ### The least admissible number of slots -/

lemma le_paddedSize {b rows : Nat} (hb : 0 < b) : rows ≤ paddedSize b rows := by
  have hceil : rows ≤ (rows + b - 1) / b * b := by
    have := Nat.div_add_mod (rows + b - 1) b
    have := Nat.mod_lt (rows + b - 1) hb
    rw [Nat.mul_comm]
    omega
  exact hceil.trans (Nat.mul_le_mul_right b (le_max_left _ _))

lemma paddedSize_least {b : Nat} (hb : 0 < b) (rows : Nat) :
    IsLeast {total | 0 < total ∧ b ∣ total ∧ rows ≤ total} (paddedSize b rows) := by
  obtain ⟨m, hm, heq⟩ := paddedSize_eq (b := b) rows
  refine ⟨⟨heq ▸ Nat.mul_pos hm hb, heq ▸ Nat.dvd_mul_left b m, le_paddedSize hb⟩, ?_⟩
  rintro total ⟨hpos, ⟨k, rfl⟩, hrows⟩
  have hk : 1 ≤ k := Nat.pos_of_mul_pos_left hpos
  have hceil : (rows + b - 1) / b ≤ k := by
    rw [Nat.div_le_iff_le_mul_add_pred hb]
    omega
  rw [paddedSize, Nat.mul_comm b k]
  exact Nat.mul_le_mul_right b (max_le hceil hk)

/-! ### What the run has read -/

section Step

variable {cfg : EngineConfig} {es : List Engine.Event} {s s' : Engine} {e : Engine.Event} {c : Text} {f : Frozen}
  {real : Finset Text}

lemma ReadAt.append (h : ReadAt cfg es c real) (more : List Engine.Event) : ReadAt cfg (es ++ more) c real := by
  obtain ⟨n, now, head, drawn, hn, hreal⟩ := h
  obtain ⟨hlt, -⟩ := List.getElem?_eq_some_iff.mp hn
  refine ⟨n, now, head, drawn, by rw [List.getElem?_append_left hlt, hn], ?_⟩
  rwa [List.take_append_of_le_length hlt.le]

/-- What the tables hold of a freeze, its real hashes and its dummies apart. -/
structure LaidOut (db : Database) (c : Text) (real : Finset Text) (f : Frozen) : Prop where
  padded : f.hashes.length = paddedSize f.size real.card
  first : f.hashes.take real.card = real.sort
  dummies : ∀ x ∈ db.rowsOf c, x.isDummy = true ↔ x.ctHash ∈ f.hashes.drop real.card

/-- What a run has read and frozen so far. -/
structure Traced (cfg : EngineConfig) (es : List Engine.Event) (s : Engine) : Prop where
  sorted : ∀ p, s.freezing = some p → (p.real.map Prod.fst).Pairwise (· ≤ ·)
  planned : ∀ p, s.freezing = some p → ReadAt cfg es p.conditionId (p.real.map Prod.fst).toFinset
  genuine : ∀ c, s.frozen c = none → ∀ x ∈ s.db.rowsOf c, x.isDummy = false
  laid : ∀ c f, s.frozen c = some f → ∃ real, ReadAt cfg es c real ∧ LaidOut s.db c real f

lemma mem_rowsOf {db : Database} {x : Ciphertext} : x ∈ db.rowsOf c ↔ x ∈ db.ciphertexts ∧ x.conditionId = c := by
  rw [Database.rowsOf, List.mem_filter, decide_eq_true_eq]

lemma step_row (hs : Inv s) (h : Engine.step cfg s e = .ok s') (hfrozen : s'.frozen = s.frozen) {y : Ciphertext}
    (hy : y ∈ s'.db.ciphertexts) :
    (∃ x ∈ s.db.ciphertexts, x.ctHash = y.ctHash ∧ x.conditionId = y.conditionId ∧ x.isDummy = y.isDummy) ∨
      y.isDummy = false ∧ s.frozen y.conditionId = none := by
  have hsealed : ∀ {hash c : Text} {blob : Bytes} {now : Int} {code : Text} {row : Condition},
      s.db.conditions c = some row → row.status = .pending →
      ∀ y ∈ (insertSeal s.db hash c blob now code).ciphertexts,
        y ∈ s.db.ciphertexts ∨ y.isDummy = false ∧ s.frozen y.conditionId = none := by
    intro hash c blob now code row hrow hpending y hy
    rcases @insertSeal_cases s.db hash c blob now code with ⟨-, heq⟩ | ⟨-, heq⟩
    · exact .inl (heq ▸ hy)
    · rw [heq] at hy
      rcases List.mem_append.mp hy with hold | hnew
      · exact .inl hold
      · obtain rfl := List.mem_singleton.mp hnew
        exact .inr ⟨rfl, hs.pending_unfrozen hrow hpending⟩
  cases step_effect h with
  | submitCiphertext c _ now code _ wire blob row rows _ hrow hpending hcoded _ =>
    have hmem : y.uncoded ∈ (insertSeal s.db (ctHash wire) c blob now code).ciphertexts.map Ciphertext.uncoded :=
      hcoded ▸ List.mem_map_of_mem hy
    obtain ⟨z, hz, hzy⟩ := List.mem_map.mp hmem
    have hhash : z.uncoded.ctHash = y.uncoded.ctHash := congrArg Ciphertext.ctHash hzy
    have hc : z.uncoded.conditionId = y.uncoded.conditionId := congrArg Ciphertext.conditionId hzy
    have hdummy : z.uncoded.isDummy = y.uncoded.isDummy := congrArg Ciphertext.isDummy hzy
    rcases hsealed hrow hpending z hz with hold | hnew
    · exact .inl ⟨z, hold, hhash, hc, hdummy⟩
    · exact .inr ⟨hdummy.symm.trans hnew.1, (congrArg s.frozen hc.symm).trans hnew.2⟩
  | createSeal c _ now code wire blob row _ hrow hpending =>
    exact (hsealed hrow hpending y hy).imp_left fun hold => ⟨y, hold, rfl, rfl, rfl⟩
  | freezeWrite frozenAt committedAt p db f hp hok =>
    have hself := congrFun hfrozen p.conditionId
    dsimp only at hself
    rw [Function.update_self, hs.plan_unfrozen (hs.plan p hp)] at hself
    cases hself
  | shareKnown _ _ _ x =>
    obtain ⟨completed, heq⟩ := complete_same (s := s) x
    rw [heq] at hy
    exact .inl ⟨y, hy, rfl, rfl, rfl⟩
  | shareWrite i now x _ =>
    obtain ⟨completed, heq⟩ :=
      complete_same (s := { s with db := insertShare s.db x now, submissions := s.submissions.eraseIdx i }) x
    obtain ⟨shares, hdb⟩ := @insertShare_same s.db x now
    rw [heq, hdb] at hy
    exact .inl ⟨y, hy, rfl, rfl, rfl⟩
  | finalizeBatch batchId _ now db _ hok =>
    obtain ⟨batch, k, -, -, -, -, -, rfl⟩ := finalizeBatch_ok hok
    exact .inl ⟨y, hy, rfl, rfl, rfl⟩
  | _ => exact .inl ⟨y, hy, rfl, rfl, rfl⟩

lemma step_plan (h : Engine.step cfg s e = .ok s') {p : Plan} (hp : s'.freezing = some p) :
    s.freezing = some p ∨ ∃ c now head drawn, e = .freezeRead c now head drawn ∧ freezeRead s.db c drawn = .ok p := by
  cases step_effect h with
  | freezeRead c now head drawn q _ hplanned =>
    obtain rfl := Option.some.inj hp
    exact .inr ⟨c, now, head, drawn, rfl, hplanned⟩
  | freezeWrite => cases hp
  | freezeFailed => cases hp
  | shareKnown _ _ _ x =>
    obtain ⟨completed, heq⟩ := complete_same (s := s) x
    rw [heq] at hp
    exact .inl hp
  | shareWrite i now x _ =>
    obtain ⟨completed, heq⟩ :=
      complete_same (s := { s with db := insertShare s.db x now, submissions := s.submissions.eraseIdx i }) x
    rw [heq] at hp
    exact .inl hp
  | crash => cases hp
  | finalizeTorn => cases hp
  | revealTorn => cases hp
  | _ => exact .inl hp

lemma freezeRead_sorted {db : Database} {drawn : List Bytes} {p : Plan} (h : freezeRead db c drawn = .ok p) :
    (p.real.map Prod.fst).Pairwise (· ≤ ·) := by
  simp only [freezeRead, bind_eq_ok, expect_eq_ok, require_eq_ok, pure_eq_ok] at h
  obtain ⟨row, -, ⟨⟩, -, k, -, ⟨⟩, -, rfl⟩ := h
  dsimp only
  rw [byHash, List.map_insertionSort _ (· ≤ ·) Prod.fst _ fun a _ b _ => Iff.rfl]
  exact List.pairwise_insertionSort _ _

lemma realHashes_of_genuine {db : Database} (h : ∀ x ∈ db.rowsOf c, x.isDummy = false) :
    db.realHashes c = (db.rowsOf c).map Ciphertext.ctHash := by
  unfold Database.realHashes
  rw [List.filter_eq_self.mpr fun x hx => by rw [h x hx]; rfl]

lemma readAt_last {p : Plan} {now head : Int} {drawn : List Bytes} (hs : Inv (Engine.reached cfg es))
    (hgenuine : ∀ x ∈ (Engine.reached cfg es).db.rowsOf c, x.isDummy = false)
    (h : freezeRead (Engine.reached cfg es).db c drawn = .ok p) :
    ReadAt cfg (es ++ [.freezeRead c now head drawn]) p.conditionId (p.real.map Prod.fst).toFinset := by
  obtain ⟨hok, rfl, hperm⟩ := freezeRead_ok hs.hashes h
  refine ⟨es.length, now, head, drawn, List.getElem?_concat_length, ?_⟩
  rw [List.take_left', realHashes_of_genuine hgenuine]
  · exact ⟨hgenuine, hperm.nodup_iff.mp hok.nodup, List.toFinset_eq_of_perm _ _ hperm⟩
  · rfl

lemma freezeWrite_row {p : Plan} {frozenAt : Int} {committedAt : Nat → Int} {db db' : Database} (hp : PlanOk db p)
    (h : freezeWrite cfg db p frozenAt committedAt = .ok (db', f)) {y : Ciphertext} (hy : y ∈ db'.ciphertexts) :
    (∃ x ∈ db.ciphertexts, x.ctHash = y.ctHash ∧ x.conditionId = y.conditionId ∧ x.isDummy = y.isDummy) ∨
      y.conditionId = p.conditionId ∧ y.isDummy = true ∧ y.ctHash ∈ p.dummies.map Prod.fst := by
  obtain ⟨-, hdummies, hfresh, hrows, -⟩ := freezeWrite_eq_ok h
  rw [hrows, assignPositions_eq (ordered_nodup hp hdummies hfresh)] at hy
  obtain ⟨x, hx, rfl⟩ := List.mem_map.mp hy
  obtain ⟨position, heq⟩ := place_same p.ordered 0 x
  rw [heq]
  rcases List.mem_append.mp hx with hold | hnew
  · exact .inl ⟨x, hold, rfl, rfl, rfl⟩
  · obtain ⟨d, hd, rfl⟩ := List.mem_map.mp hnew
    exact .inr ⟨rfl, rfl, List.mem_map_of_mem hd⟩

lemma freezeWrite_laidOut {p : Plan} {frozenAt : Int} {committedAt : Nat → Int} {db db' : Database} (hp : PlanOk db p)
    (hsorted : (p.real.map Prod.fst).Pairwise (· ≤ ·))
    (hgenuine : ∀ x ∈ db.rowsOf p.conditionId, x.isDummy = false)
    (h : freezeWrite cfg db p frozenAt committedAt = .ok (db', f)) :
    LaidOut db' p.conditionId (p.real.map Prod.fst).toFinset f := by
  obtain ⟨hf, hdummies, hfresh, -⟩ := freezeWrite_eq_ok h
  have hhashes : f.hashes = p.real.map Prod.fst ++ p.dummies.map Prod.fst := by
    rw [hf, Plan.frozen_hashes, Plan.ordered, List.map_append]
  have hcard : (p.real.map Prod.fst).toFinset.card = (p.real.map Prod.fst).length := List.toFinset_card_of_nodup hp.nodup
  refine ⟨?_, ?_, fun y hy => ?_⟩
  · rw [hcard, List.length_map, hf, Plan.frozen_hashes]
    exact hp.padded
  · rw [hcard, hhashes, List.take_left']
    · exact ((List.toFinset_sort (· ≤ ·) hp.nodup).mpr hsorted).symm
    · rfl
  · rw [hcard, hhashes, List.drop_left']
    · obtain ⟨hmem, hc⟩ := mem_rowsOf.mp hy
      rcases freezeWrite_row hp h hmem with ⟨x, hx, hhash, hxc, hdummy⟩ | ⟨-, hdummy, hin⟩
      · have hfalse : y.isDummy = false := hdummy ▸ hgenuine x (mem_rowsOf.mpr ⟨hx, hxc.trans hc⟩)
        refine ⟨fun htrue => ?_, fun hin => ?_⟩
        · rw [hfalse] at htrue
          cases htrue
        · obtain ⟨d, hd, heq⟩ := List.mem_map.mp hin
          exact absurd (hhash.trans heq.symm) (hfresh d hd x hx)
      · exact ⟨fun _ => hin, fun _ => hdummy⟩
    · rfl

lemma LaidOut.same {db db' : Database} (h : LaidOut db c real f)
    (hrows : ∀ y ∈ db'.rowsOf c, ∃ x ∈ db.rowsOf c, x.ctHash = y.ctHash ∧ x.isDummy = y.isDummy) :
    LaidOut db' c real f := by
  refine ⟨h.padded, h.first, fun y hy => ?_⟩
  obtain ⟨x, hx, hhash, hdummy⟩ := hrows y hy
  rw [← hhash, ← hdummy]
  exact h.dummies x hx

lemma frozen_rows (hs : Inv s) (hf : s.frozen c = some f) (h : Engine.step cfg s e = .ok s') :
    ∀ y ∈ s'.db.rowsOf c, ∃ x ∈ s.db.rowsOf c, x.ctHash = y.ctHash ∧ x.isDummy = y.isDummy := by
  intro y hy
  obtain ⟨hmem, rfl⟩ := mem_rowsOf.mp hy
  rcases step_cases_freeze hs h with ⟨-, hfrozen, -⟩ | ⟨frozenAt, committedAt, p, db, g, -, hp, hok, rfl⟩
  · rcases step_row hs h hfrozen hmem with ⟨x, hx, hhash, hxc, hdummy⟩ | ⟨-, hnone⟩
    · exact ⟨x, mem_rowsOf.mpr ⟨hx, hxc⟩, hhash, hdummy⟩
    · rw [hnone] at hf
      cases hf
  · rcases freezeWrite_row (hs.plan p hp) hok hmem with ⟨x, hx, hhash, hxc, hdummy⟩ | ⟨heq, -⟩
    · exact ⟨x, mem_rowsOf.mpr ⟨hx, hxc⟩, hhash, hdummy⟩
    · rw [heq, hs.plan_unfrozen (hs.plan p hp)] at hf
      cases hf

theorem LaidOut.step (hl : LaidOut s.db c real f) (hs : Inv s) (hf : s.frozen c = some f)
    (h : Engine.step cfg s e = .ok s') : LaidOut s'.db c real f :=
  hl.same (frozen_rows hs hf h)

lemma genuine_step (hs : Inv s) (hg : ∀ c, s.frozen c = none → ∀ x ∈ s.db.rowsOf c, x.isDummy = false)
    (h : Engine.step cfg s e = .ok s') {c : Text} (hc : s'.frozen c = none) : ∀ y ∈ s'.db.rowsOf c, y.isDummy = false := by
  intro y hy
  obtain ⟨hmem, rfl⟩ := mem_rowsOf.mp hy
  have hbefore : s.frozen y.conditionId = none := by
    cases hf : s.frozen y.conditionId with
    | none => rfl
    | some f =>
      rw [(hs.frozen_step h _).1 f hf] at hc
      cases hc
  rcases step_cases_freeze hs h with ⟨-, hfrozen, -⟩ | ⟨frozenAt, committedAt, p, db, g, -, hp, hok, rfl⟩
  · rcases step_row hs h hfrozen hmem with ⟨x, hx, -, hxc, hdummy⟩ | ⟨hdummy, -⟩
    · exact hdummy ▸ hg _ hbefore x (mem_rowsOf.mpr ⟨hx, hxc⟩)
    · exact hdummy
  · rcases freezeWrite_row (hs.plan p hp) hok hmem with ⟨x, hx, -, hxc, hdummy⟩ | ⟨heq, -⟩
    · exact hdummy ▸ hg _ hbefore x (mem_rowsOf.mpr ⟨hx, hxc⟩)
    · dsimp only at hc
      rw [heq, Function.update_self] at hc
      cases hc

theorem Traced.step (ht : Traced cfg es (Engine.reached cfg es)) (hs : Inv (Engine.reached cfg es))
    (h : Engine.step cfg (Engine.reached cfg es) e = .ok s') : Traced cfg (es ++ [e]) s' := by
  have hplan : ∀ p, s'.freezing = some p → (p.real.map Prod.fst).Pairwise (· ≤ ·) ∧
      ReadAt cfg (es ++ [e]) p.conditionId (p.real.map Prod.fst).toFinset := by
    intro p hp
    rcases step_plan h hp with hold | ⟨c, now, head, drawn, rfl, hok⟩
    · exact ⟨ht.sorted p hold, (ht.planned p hold).append [e]⟩
    · obtain ⟨hplanOk, rfl, -⟩ := freezeRead_ok hs.hashes hok
      exact ⟨freezeRead_sorted hok, readAt_last hs (ht.genuine _ (hs.plan_unfrozen hplanOk)) hok⟩
  refine ⟨fun p hp => (hplan p hp).1, fun p hp => (hplan p hp).2, fun c hc => genuine_step hs ht.genuine h hc,
    fun c g hg => ?_⟩
  cases hf : (Engine.reached cfg es).frozen c with
  | some f =>
    obtain rfl := Option.some.inj (((hs.frozen_step h c).1 f hf).symm.trans hg)
    obtain ⟨real, hread, hlaid⟩ := ht.laid c f hf
    exact ⟨real, hread.append [e], hlaid.step hs hf h⟩
  | none =>
    rcases step_cases_freeze hs h with ⟨-, hfrozen, -⟩ | ⟨frozenAt, committedAt, p, db, f, -, hp, hok, rfl⟩
    · rw [hfrozen, hf] at hg
      cases hg
    · dsimp only at hg
      by_cases hcp : c = p.conditionId
      · subst hcp
        rw [Function.update_self] at hg
        obtain rfl := Option.some.inj hg
        exact ⟨_, (ht.planned p hp).append [e], freezeWrite_laidOut (hs.plan p hp) (ht.sorted p hp) (ht.genuine _ hf) hok⟩
      · rw [Function.update_of_ne hcp, hf] at hg
        cases hg

theorem traced_run (cfg : EngineConfig) (es : List Engine.Event) : Traced cfg es (Engine.reached cfg es) := by
  induction es using List.reverseRecOn with
  | nil =>
    refine ⟨fun p hp => ?_, fun p hp => ?_, fun c _ x hx => absurd hx List.not_mem_nil, fun c f hf => ?_⟩
    · cases hp
    · cases hp
    · cases hf
  | append_singleton es e ih =>
    have hnext : Engine.reached cfg (es ++ [e]) = advance (Engine.step cfg) (Engine.reached cfg es) e := exec_concat _ _ _ _
    rw [hnext]
    refine advance_induct _ ⟨ih.sorted, fun p hp => (ih.planned p hp).append [e], ih.genuine, fun c f hf => ?_⟩
      fun s' hok => ih.step (inv_run cfg es) hok
    obtain ⟨real, hread, hlaid⟩ := ih.laid c f hf
    exact ⟨real, hread.append [e], hlaid⟩

/-! ### Every run -/

lemma Frozen.batches_of (hf : FrozenAs s.db c f) : f.hashes.length / f.size = f.batches := by
  rw [hashes_length, hf.full]
  exact Nat.mul_div_cancel _ hf.size

lemma Inv.layout (hs : Inv s) (hf : FrozenAs s.db c f) (hl : LaidOut s.db c real f) :
    Layout s.db c real f.size f.hashes := by
  obtain ⟨row, k, hrow, -, hk, hb⟩ := hf.condition
  have hassigned : ∀ x ∈ s.db.rowsOf c, ∀ p, x.position = some p ↔ f.hashes[p]? = some x.ctHash := by
    intro x hx p
    obtain ⟨hmem, hc⟩ := mem_rowsOf.mp hx
    exact hf.position_iff hmem hc
  have hindex : (s.db.batches.filter fun x => x.conditionId = c).map Batch.batchIndex = List.range f.batches := by
    have hnumbered := congrArg (List.map Prod.snd) hf.numbered
    simpa [Database.numbered, Function.comp_def] using hnumbered
  refine ⟨⟨row, k, hrow, hk, hb⟩, hl.padded ▸ paddedSize_least hf.size real.card, fun p hp => ?_, hassigned, hl.first,
    fun x hx p hpos => ?_, ?_, ?_, fun x hx hc => ?_⟩
  · obtain ⟨x, hx, hc, hhash, hpos⟩ := hf.row_at (List.getElem?_eq_getElem hp)
    refine ⟨x, ⟨mem_rowsOf.mpr ⟨hx, hc⟩, hpos⟩, fun y ⟨hy, hypos⟩ => ?_⟩
    have hyhash := (hassigned y hy p).mp hypos
    rw [(hassigned x (mem_rowsOf.mpr ⟨hx, hc⟩) p).mp hpos] at hyhash
    exact hs.row_unique (mem_rowsOf.mp hy).1 hx (Option.some.inj hyhash).symm
  · have hp := (hassigned x hx p).mp hpos
    obtain ⟨hlt, heq⟩ := List.getElem?_eq_some_iff.mp hp
    rw [hl.dummies x hx]
    constructor
    · intro hin
      obtain ⟨j, hj⟩ := List.mem_iff_getElem?.mp hin
      rw [List.getElem?_drop] at hj
      obtain ⟨hjlt, hjeq⟩ := List.getElem?_eq_some_iff.mp hj
      have hpj : real.card + j = p := (List.Nodup.getElem_inj_iff hf.nodup).mp (hjeq.trans heq.symm)
      omega
    · intro hle
      refine List.mem_iff_getElem?.mpr ⟨p - real.card, ?_⟩
      rw [List.getElem?_drop, Nat.add_sub_cancel' hle, hp]
  · rw [hindex, Frozen.batches_of hf]
  · rw [Frozen.batches_of hf, hashes_length, hf.full]
  · refine hs.batchCts_positions hf hc ?_
    have hmem : x.batchIndex ∈ List.range f.batches := by
      rw [← hindex]
      exact List.mem_map_of_mem (List.mem_filter.mpr ⟨hx, decide_eq_true hc⟩)
    exact List.mem_range.mp hmem

end Step

/-- Once a condition is no longer pending, its ciphertexts have their positions: those of the real ones are their ranks
among the real hashes that the freeze read, dummies fill up the last batch, and nothing that comes later moves any. -/
theorem freeze_layout (cfg : EngineConfig) (es : List Engine.Event) (c : Text) (row : Condition)
    (hrow : (Engine.reached cfg es).db.conditions c = some row) (hstatus : row.status ≠ .pending) :
    ∃ real size hashes, ReadAt cfg es c real ∧
      ∀ later, Layout (Engine.reached cfg (es ++ later)).db c real size hashes := by
  obtain ⟨f, hf⟩ := (inv_run cfg es).frozen_of_status hrow hstatus
  obtain ⟨real, hread, hlaid⟩ := (traced_run cfg es).laid c f hf
  refine ⟨real, f.size, f.hashes, hread, fun later => ?_⟩
  -- what later events keep: the condition is frozen as it was, with the same real ciphertexts
  have hkept : ∀ s e s', (Inv s ∧ s.frozen c = some f ∧ LaidOut s.db c real f) → Engine.step cfg s e = .ok s' →
      Inv s' ∧ s'.frozen c = some f ∧ LaidOut s'.db c real f := by
    rintro s e s' ⟨hs, hsf, hl⟩ hok
    exact ⟨hs.step hok, (hs.frozen_step hok c).1 f hsf, hl.step hs hsf hok⟩
  have hlater := exec_invariant (Engine.step cfg) hkept ⟨inv_run cfg es, hf, hlaid⟩ later
  rw [Engine.reached, exec_append]
  obtain ⟨hs, hsf, hl⟩ := hlater
  exact hs.layout (hs.frozen c f hsf) hl

lemma twoSeals_end : (Engine.reached sampleEngine twoSeals).db.conditions ['r'] =
    some { sampleCondition with status := .revealed } := by
  decide +kernel

theorem freeze_layout_sample : ∃ real size hashes, ReadAt sampleEngine twoSeals ['r'] real ∧
    ∀ later, Layout (Engine.reached sampleEngine (twoSeals ++ later)).db ['r'] real size hashes :=
  freeze_layout sampleEngine twoSeals ['r'] _ twoSeals_end (by decide)

end Peal.Coordinator
