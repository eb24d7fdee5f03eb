import Peal.Bte.Codec
import Peal.Library.Firsts

namespace Peal.Bte
open Peal.Fallible Peal.Firsts Peal.Sha256

/-! # Recovery of a batch from the shares of its committee -/

inductive RecoverError where
  | batchSize (expected got : Nat)
  | invalidParams (what : String)
  | notEnoughShares (need have_ : Nat)
  deriving DecidableEq, Repr

/-- What recovery takes from the threshold scheme. -/
structure Scheme (c : Curve) where
  CrossTerms : Type
  /-- Whether e(value, g_2) is the product of the pairings of the headers with the verification values. -/
  paired : c.G1 → List c.G1 → List c.G2 → Bool
  /-- Lagrange interpolation at 0. -/
  interpolate : List (Share c) → c.G1
  predecryptFft : PublicParams c → List (SealedCiphertext c) → CrossTerms
  /-- Each slot's payload and re-derived randomness. -/
  helperFinalize : PublicParams c → c.G1 → List (SealedCiphertext c) → CrossTerms → List (Bytes × c.Fr)
  /-- Whether the generator times the scalar is the element. -/
  derives : c.Fr → c.G1 → Bool

structure RecoveredPayload where
  payload : Bytes
  valid : Bool
  deriving DecidableEq, Repr

variable {c : Curve} (s : Scheme c)

def verifyShare (params : PublicParams c) (batch : List c.G1) (share : Share c) : Bool :=
  if batch.length ≠ params.b.toNat then false
  else
    let party := share.partyIndex.toNat
    if party = 0 ∨ party > params.n.toNat then false
    else s.paired share.value batch (params.verificationKeys.getD (party - 1) [])

structure PrecomputedCrossTerms where
  cross : s.CrossTerms
  batchHash : List Nat

def SealedCiphertext.hash (x : SealedCiphertext c) : List Nat := sha256 (x.toBytes.map UInt8.toNat)

def batchHash (batch : List (SealedCiphertext c)) : List Nat := sha256 (batch.flatMap SealedCiphertext.hash)

def preDecrypt (params : PublicParams c) (batch : List (SealedCiphertext c)) :
    Except RecoverError (PrecomputedCrossTerms s) := do
  require (batch.length = params.b.toNat) (.batchSize params.b.toNat batch.length)
  return ⟨s.predecryptFft params batch, batchHash batch⟩

/-- Open every slot; one whose randomness does not derive its header counts as invalid. -/
def openSlots (params : PublicParams c) (cross : s.CrossTerms) (combined : c.G1)
    (batch : List (SealedCiphertext c)) : List RecoveredPayload :=
  ((s.helperFinalize params combined batch cross).zip batch).map fun slot =>
    ⟨slot.1.1, s.derives slot.1.2 slot.2.ct0 && decide (slot.1.1.length ≤ MAX_PAYLOAD_BYTES)⟩

def finalize (params : PublicParams c) (pre : PrecomputedCrossTerms s) (combined : c.G1)
    (batch : List (SealedCiphertext c)) : Except RecoverError (List RecoveredPayload) := do
  require (batch.length = params.b.toNat) (.batchSize params.b.toNat batch.length)
  require (pre.batchHash = batchHash batch) (.invalidParams "cross-terms were computed for a different batch")
  return openSlots s params pre.cross combined batch

/-- The first share of each party, where it verifies. A later one of the party is passed over even where the
first does not. -/
def validShares (params : PublicParams c) (batch : List (SealedCiphertext c)) (shares : List (Share c)) :
    List (Share c) :=
  passing Share.partyIndex (verifyShare s params (batch.map (·.ct0))) shares

def recover (params : PublicParams c) (batch : List (SealedCiphertext c)) (shares : List (Share c)) :
    Except RecoverError (List RecoveredPayload) := do
  let valid := (validShares s params batch shares).take params.t.toNat
  require (params.t.toNat ≤ valid.length) (.notEnoughShares params.t.toNat valid.length)
  let pre ← preDecrypt s params batch
  finalize s params pre (s.interpolate valid) batch

/-! ## When it meets its purpose -/

/-- Shares that are to give the batch's decryption: valid, and of as many parties as the threshold asks. -/
structure Qualified (params : PublicParams c) (batch : List (SealedCiphertext c)) (shares : List (Share c)) : Prop where
  count : shares.length = params.t.toNat
  parties : (shares.map Share.partyIndex).Nodup
  verify : ∀ share ∈ shares, verifyShare s params (batch.map (·.ct0)) share = true

/-- The parties with a valid share in the list. -/
def validParties (params : PublicParams c) (batch : List (SealedCiphertext c)) (shares : List (Share c)) :
    Finset UInt16 :=
  passingKeys Share.partyIndex (verifyShare s params (batch.map (·.ct0))) shares

/-- Those of them with no invalid share beside it. -/
def cleanParties (params : PublicParams c) (batch : List (SealedCiphertext c)) (shares : List (Share c)) :
    Finset UInt16 :=
  soundKeys Share.partyIndex (verifyShare s params (batch.map (·.ct0))) shares

/-- Recovery succeeds exactly with valid shares of enough parties, in whatever order the shares are listed it
gives the same, and what it gives comes of valid shares in the list. -/
structure Recovers (params : PublicParams c) (batch : List (SealedCiphertext c)) (shares : List (Share c)) : Prop where
  succeeds : (∃ out, recover s params batch shares = .ok out) ↔
    params.t.toNat ≤ (validParties s params batch shares).card
  order : ∀ shares', shares'.Perm shares → recover s params batch shares' = recover s params batch shares
  contributes : ∀ out, recover s params batch shares = .ok out → ∃ sel, Qualified s params batch sel ∧
    (∀ share ∈ sel, share ∈ shares) ∧
    out = openSlots s params (s.predecryptFft params batch) (s.interpolate sel) batch

variable {s} {params : PublicParams c} {batch : List (SealedCiphertext c)} {shares shares' : List (Share c)}

lemma verifyShare_eq_true {headers : List c.G1} {share : Share c} :
    verifyShare s params headers share = true ↔ headers.length = params.b.toNat ∧
      share.partyIndex.toNat ≠ 0 ∧ share.partyIndex.toNat ≤ params.n.toNat ∧
      s.paired share.value headers (params.verificationKeys.getD (share.partyIndex.toNat - 1) []) = true := by
  unfold verifyShare
  by_cases hlength : headers.length = params.b.toNat
  · rw [if_neg (not_not.mpr hlength)]
    dsimp only
    by_cases hparty : share.partyIndex.toNat = 0 ∨ share.partyIndex.toNat > params.n.toNat
    · rw [if_pos hparty]
      simp only [Bool.false_eq_true, false_iff]
      omega
    · rw [if_neg hparty]
      have hrange : share.partyIndex.toNat ≠ 0 ∧ share.partyIndex.toNat ≤ params.n.toNat := by omega
      simp only [hlength, hrange.1, hrange.2, ne_eq, not_false_eq_true, true_and]
  · rw [if_pos hlength]
    simp only [Bool.false_eq_true, hlength, false_and]

lemma take_qualified (h : params.t.toNat ≤ (validShares s params batch shares).length) :
    Qualified s params batch ((validShares s params batch shares).take params.t.toNat) where
  count := List.length_take_of_le h
  parties := (passing_nodup _ _).sublist ((List.take_sublist _ _).map _)
  verify := fun _ hshare => (List.mem_filter.mp (List.mem_of_mem_take hshare)).2

lemma recover_few (h : (validShares s params batch shares).length < params.t.toNat) :
    recover s params batch shares =
      .error (.notEnoughShares params.t.toNat (validShares s params batch shares).length) := by
  unfold recover
  rw [List.take_of_length_le h.le]
  exact bind_eq_error.mpr (.inl (require_eq_error.mpr ⟨not_le.mpr h, rfl⟩))

lemma recover_enough (hparams : params.Valid) (h : params.t.toNat ≤ (validShares s params batch shares).length) :
    recover s params batch shares = .ok (openSlots s params (s.predecryptFft params batch)
      (s.interpolate ((validShares s params batch shares).take params.t.toNat)) batch) := by
  have hthreshold : params.t.toNat ≠ 0 := by
    intro hzero
    exact hparams.committee (.inr (.inl (UInt16.toNat_inj.mp hzero)))
  have hlength : batch.length = params.b.toNat := by
    obtain ⟨share, hshare⟩ := List.exists_mem_of_length_pos (by omega : 0 < (validShares s params batch shares).length)
    rw [← (verifyShare_eq_true.mp (List.mem_filter.mp hshare).2).1, List.length_map]
  have htake := List.length_take_of_le h
  unfold recover preDecrypt finalize
  simp only [bind_eq_ok, require_eq_ok, pure_eq_ok]
  exact ⟨(), htake.ge, _, ⟨(), hlength, rfl⟩, (), hlength, (), rfl, rfl⟩

lemma recover_ok_iff (hparams : params.Valid) :
    (∃ out, recover s params batch shares = .ok out) ↔
      params.t.toNat ≤ (validShares s params batch shares).length := by
  constructor
  · rintro ⟨out, hout⟩
    by_contra hfew
    rw [recover_few (not_le.mp hfew)] at hout
    cases hout
  · intro henough
    exact ⟨_, recover_enough hparams henough⟩

/-- What interpolation promises: any shares that qualify give the batch's one decryption. -/
def Interpolates (s : Scheme c) (params : PublicParams c) (batch : List (SealedCiphertext c)) : Prop :=
  ∀ sel sel', Qualified s params batch sel → Qualified s params batch sel' → s.interpolate sel = s.interpolate sel'

lemma recover_same (hparams : params.Valid) (hinterpolate : Interpolates s params batch)
    (h : (validShares s params batch shares).length = (validShares s params batch shares').length ∨
      params.t.toNat ≤ (validShares s params batch shares).length ∧
        params.t.toNat ≤ (validShares s params batch shares').length) :
    recover s params batch shares = recover s params batch shares' := by
  by_cases henough : params.t.toNat ≤ (validShares s params batch shares).length
  · have henough' : params.t.toNat ≤ (validShares s params batch shares').length := by
      rcases h with heq | ⟨-, h'⟩
      · exact heq ▸ henough
      · exact h'
    rw [recover_enough hparams henough, recover_enough hparams henough',
      hinterpolate _ _ (take_qualified henough) (take_qualified henough')]
  · have heq : (validShares s params batch shares).length = (validShares s params batch shares').length := by
      rcases h with heq | ⟨h', -⟩
      · exact heq
      · exact absurd h' henough
    rw [recover_few (not_le.mp henough), recover_few (heq ▸ not_le.mp henough), heq]

lemma length_eq_of_recover_eq (hparams : params.Valid)
    (hfew : (validShares s params batch shares).length < params.t.toNat)
    (h : recover s params batch shares = recover s params batch shares') :
    (validShares s params batch shares).length = (validShares s params batch shares').length := by
  by_cases henough : params.t.toNat ≤ (validShares s params batch shares').length
  · rw [recover_few hfew, recover_enough hparams henough] at h
    cases h
  · rw [recover_few hfew, recover_few (not_le.mp henough)] at h
    exact (RecoverError.notEnoughShares.inj (Except.error.inj h)).2

/-- Recovery meets its purpose on just the lists in which no party has both a valid and an invalid share, or in
which enough parties have valid ones alone. -/
theorem recovers_iff (hparams : params.Valid) (hinterpolate : Interpolates s params batch)
    (shares : List (Share c)) :
    Recovers s params batch shares ↔ params.t.toNat ≤ (cleanParties s params batch shares).card ∨
      cleanParties s params batch shares = validParties s params batch shares := by
  let p := verifyShare s params (batch.map (·.ct0))
  have hlower : ∀ l, (cleanParties s params batch l).card ≤ (validShares s params batch l).length :=
    fun l => card_soundKeys_le p l
  have hupper : ∀ l, (validShares s params batch l).length ≤ (validParties s params batch l).card :=
    fun l => length_passing_le p l
  constructor
  · rintro ⟨-, horder, -⟩
    by_contra hnot
    obtain ⟨hfew, hmixed⟩ := not_or.mp hnot
    -- the list with its invalid shares in front, and with its valid ones in front
    have hfront : (shares.filter p ++ shares.filter fun share => !p share).Perm shares :=
      List.filter_append_perm p shares
    have hback : ((shares.filter fun share => !p share) ++ shares.filter p).Perm shares :=
      List.perm_append_comm.trans hfront
    have hall : (validShares s params batch _).length = (validParties s params batch shares).card :=
      length_passing_front p shares
    have hclean : (validShares s params batch _).length = (cleanParties s params batch shares).card :=
      length_passing_back p shares
    have hsame := length_eq_of_recover_eq hparams (hclean.trans_lt (not_le.mp hfew))
      ((horder _ hback).trans (horder _ hfront).symm)
    apply hmixed
    apply Finset.eq_of_subset_of_card_le (Finset.filter_subset _ _)
    exact (hall.symm.trans (hsame.symm.trans hclean)).le
  · intro hcond
    refine ⟨?_, ?_, ?_⟩
    · rw [recover_ok_iff hparams]
      have hlow := hlower shares
      have hup := hupper shares
      rcases hcond with henough | hunmixed
      · omega
      · rw [hunmixed] at hlow
        omega
    · intro shares' hperm
      have hcleanSame : cleanParties s params batch shares' = cleanParties s params batch shares := soundKeys_perm hperm
      have hvalidSame : validParties s params batch shares' = validParties s params batch shares :=
        passingKeys_perm hperm
      have hlow := hlower shares
      have hup := hupper shares
      have hlow' := hlower shares'
      have hup' := hupper shares'
      rw [hcleanSame] at hlow'
      rw [hvalidSame] at hup'
      apply recover_same hparams hinterpolate
      rcases hcond with henough | hunmixed
      · exact .inr ⟨by omega, by omega⟩
      · rw [hunmixed] at hlow hlow'
        exact .inl (by omega)
    · intro out hout
      have henough := (recover_ok_iff hparams).mp ⟨out, hout⟩
      rw [recover_enough hparams henough] at hout
      refine ⟨_, take_qualified henough, ?_, (Except.ok.inj hout).symm⟩
      intro share hshare
      exact (mem_newOnes (List.mem_filter.mp (List.mem_of_mem_take hshare)).1).1

/-! ### An invalid share hides the valid one behind it -/

/-- A threshold of one: every party holds the same value, and interpolation gives it back. -/
def sampleScheme : Scheme sampleCurve where
  CrossTerms := Unit
  paired value _ keys := value.toList == ((keys.map Vector.toList).headD []).take 48
  interpolate shares := ((shares.map Share.value).head?).getD (Vector.replicate 48 0)
  predecryptFft _ _ := ()
  helperFinalize _ _ batch _ := batch.map fun ct => (ct.ct2, Vector.replicate 32 0)
  derives _ _ := true

def sampleParams : PublicParams sampleCurve :=
  .assemble 2 1 1 ⟨Vector.replicate 576 0⟩ (List.replicate 3 (Vector.replicate 96 0))
    [[Vector.replicate 96 4], [Vector.replicate 96 4]]

def sampleBatch : List (SealedCiphertext sampleCurve) := [⟨Vector.replicate 48 7, Vector.replicate 16 0, []⟩]

def goodShare (party : UInt16) : Share sampleCurve := ⟨party, Vector.replicate 48 4⟩

def badShare (party : UInt16) : Share sampleCurve := ⟨party, Vector.replicate 48 9⟩

lemma assemble_digest (n t : UInt16) (b : UInt32) (ek : EncryptionKey c) (powersOfH : List c.G2)
    (keys : List (List c.G2)) : (PublicParams.assemble n t b ek powersOfH keys).digest =
      sha256 ((PublicParams.assemble n t b ek powersOfH keys).toBytes.map UInt8.toNat) := rfl

lemma sampleParams_valid : sampleParams.Valid where
  committee := by decide
  powers := rfl
  counted := by decide
  parties := rfl
  slots := by decide
  digest := assemble_digest _ _ _ _ _ _

lemma sample_interpolates : Interpolates sampleScheme sampleParams sampleBatch := by
  have hone : ∀ sel, Qualified sampleScheme sampleParams sampleBatch sel →
      sampleScheme.interpolate sel = Vector.replicate 48 4 := by
    intro sel hsel
    obtain ⟨share, rfl⟩ := List.length_eq_one_iff.mp hsel.count
    obtain ⟨-, hzero, hmax, hpaired⟩ := verifyShare_eq_true.mp (hsel.verify share (List.mem_singleton_self share))
    have hkeys : sampleParams.verificationKeys.getD (share.partyIndex.toNat - 1) [] = [Vector.replicate 96 4] := by
      have hlast : share.partyIndex.toNat ≤ 2 := hmax
      rcases (by omega : share.partyIndex.toNat = 1 ∨ share.partyIndex.toNat = 2) with hone | htwo
      · rw [hone]
        rfl
      · rw [htwo]
        rfl
    rw [hkeys] at hpaired
    have hvalue : share.value.toList = List.replicate 48 4 := eq_of_beq hpaired
    exact Vector.toList_inj.mp hvalue
  intro sel sel' hsel hsel'
  rw [hone sel hsel, hone sel' hsel']

theorem recovers_sample : Recovers sampleScheme sampleParams sampleBatch [goodShare 2, badShare 1, goodShare 2] :=
  (recovers_iff sampleParams_valid sample_interpolates _).mpr (.inl (by decide +kernel))

/-- The share that comes first is invalid, and the party's valid one is passed over. -/
theorem hidden_share_lost : Interpolates sampleScheme sampleParams sampleBatch ∧
    verifyShare sampleScheme sampleParams (sampleBatch.map (·.ct0)) (goodShare 1) = true ∧
    recover sampleScheme sampleParams sampleBatch [badShare 1, goodShare 1] = .error (.notEnoughShares 1 0) ∧
    (∃ out, recover sampleScheme sampleParams sampleBatch [goodShare 1, badShare 1] = .ok out) ∧
    ¬Recovers sampleScheme sampleParams sampleBatch [badShare 1, goodShare 1] := by
  have hnone : (validShares sampleScheme sampleParams sampleBatch [badShare 1, goodShare 1]).length = 0 ∧
      (validShares sampleScheme sampleParams sampleBatch [goodShare 1, badShare 1]).length = 1 := by
    decide +kernel
  obtain ⟨hlost, hfound⟩ := hnone
  have hfew : recover sampleScheme sampleParams sampleBatch [badShare 1, goodShare 1] = _ :=
    recover_few (hlost.trans_lt (show 0 < sampleParams.t.toNat by decide))
  rw [hlost] at hfew
  have henough : ∃ out, recover sampleScheme sampleParams sampleBatch [goodShare 1, badShare 1] = .ok out :=
    (recover_ok_iff sampleParams_valid).mpr (hfound ▸ le_refl _)
  refine ⟨sample_interpolates, by decide +kernel, hfew, henough, ?_⟩
  intro hrecovers
  obtain ⟨out, hout⟩ := henough
  rw [hrecovers.order _ (List.Perm.swap _ _ _), hfew] at hout
  cases hout

end Peal.Bte
