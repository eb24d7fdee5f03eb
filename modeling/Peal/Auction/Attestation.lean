import Peal.Auction.Lifecycle
import Peal.Auction.QuoteSolvency

namespace Peal.Auction
open Peal.Fallible Peal.Runs SealedBidAuction

/-! # Who attests a reveal root -/

namespace CommitteeRegistry

/-- Every set of the registry has a threshold its distinct members can meet, and an unwritten set has none. -/
structure WellFormed (r : CommitteeRegistry) : Prop where
  member : ∀ id m, r.isMember id m = true ↔ m ∈ (r.sets id).members
  distinct : ∀ id, (r.sets id).members.Nodup
  reachable : ∀ id, (r.sets id).threshold ≤ (r.sets id).members.length
  unwritten : ∀ id, (r.sets id).threshold = 0 → (r.sets id).members = []

/-- The sets of `r` are all in `r'`, as they were. -/
def Extends (r r' : CommitteeRegistry) : Prop :=
  ∀ id, r.existsSet id = true → r'.sets id = r.sets id ∧ r'.isMember id = r.isMember id

variable {r r' r'' : CommitteeRegistry}

lemma existsSet_iff {id : Nat} : r.existsSet id = true ↔ (r.sets id).threshold ≠ 0 := by
  unfold existsSet
  exact bne_iff_ne

lemma Extends.refl (r : CommitteeRegistry) : Extends r r := fun _ _ => ⟨rfl, rfl⟩

lemma Extends.trans (h : Extends r r') (h' : Extends r' r'') : Extends r r'' := by
  intro id hid
  obtain ⟨hset, hmember⟩ := h id hid
  obtain ⟨hset', hmember'⟩ := h' id (by rw [existsSet_iff, hset, ← existsSet_iff]; exact hid)
  exact ⟨hset'.trans hset, hmember'.trans hmember⟩

/-- An existing set: distinct members, and a threshold between one and their number. -/
structure Viable (r : CommitteeRegistry) (id : Nat) : Prop where
  positive : 1 ≤ (r.sets id).threshold
  reachable : (r.sets id).threshold ≤ (r.sets id).members.length
  distinct : (r.sets id).members.Nodup
  member : ∀ m, r.isMember id m = true ↔ m ∈ (r.sets id).members

lemma WellFormed.viable (h : WellFormed r) {id : Nat} (hid : r.existsSet id = true) : Viable r id :=
  ⟨Nat.one_le_iff_ne_zero.mpr (existsSet_iff.mp hid), h.reachable id, h.distinct id, h.member id⟩

lemma empty_wellFormed : WellFormed empty := by
  constructor
  · intro id m
    exact iff_of_false Bool.false_ne_true List.not_mem_nil
  · intro id
    exact List.nodup_nil
  · intro id
    exact le_refl 0
  · intro id _
    rfl

lemma addMember_all {id : Nat} {isMember isMember' : Nat → Nat → Bool} {members before : List Nat}
    (h : members.foldlM (addMember id) isMember = .ok isMember')
    (hbefore : ∀ m, isMember id m = true ↔ m ∈ before) (hdistinct : before.Nodup) :
    (∀ m, isMember' id m = true ↔ m ∈ before ++ members) ∧ (before ++ members).Nodup ∧
      ∀ other, other ≠ id → isMember' other = isMember other := by
  induction members generalizing isMember before with
  | nil =>
    rw [List.foldlM_nil, pure_eq_ok] at h
    subst h
    rw [List.append_nil]
    exact ⟨hbefore, hdistinct, fun _ _ => rfl⟩
  | cons m members ih =>
    obtain ⟨mid, hm, hrest⟩ := (foldlM_cons_eq_ok _).mp h
    simp only [addMember, bind_eq_ok, require_eq_ok, Except.ok.injEq] at hm
    obtain ⟨-, -, -, hnew, rfl⟩ := hm
    have hfresh : m ∉ before := fun hmem => by
      rw [(hbefore m).mpr hmem] at hnew
      cases hnew
    have hmid : ∀ x, Function.update isMember id (Function.update (isMember id) m true) id x = true ↔
        x ∈ before ++ [m] := by
      intro x
      rw [Function.update_self, List.mem_append, List.mem_singleton]
      by_cases hx : x = m
      · rw [hx, Function.update_self]
        exact ⟨fun _ => Or.inr rfl, fun _ => rfl⟩
      · rw [Function.update_of_ne hx, hbefore x]
        exact ⟨Or.inl, fun h => h.resolve_right hx⟩
    have hnodup : (before ++ [m]).Nodup := by
      rw [List.nodup_append]
      refine ⟨hdistinct, List.nodup_singleton m, fun x hx y hy => ?_⟩
      rw [List.mem_singleton.mp hy]
      rintro rfl
      exact hfresh hx
    obtain ⟨hmem, hnodup', hother⟩ := ih hrest hmid hnodup
    rw [List.append_assoc, List.singleton_append] at hmem hnodup'
    refine ⟨hmem, hnodup', fun other hne => ?_⟩
    rw [hother other hne]
    exact Function.update_of_ne hne _ _

/-- A registration leaves every existing set as it is. -/
theorem registerCommitteeSet_extends {keccak256 : List Nat → Nat} {timestamp threshold : Nat} {members : List Nat}
    (hr : WellFormed r) (h : registerCommitteeSet keccak256 timestamp r threshold members = .ok r') :
    WellFormed r' ∧ Extends r r' := by
  simp only [registerCommitteeSet, bind_eq_ok, require_eq_ok] at h
  obtain ⟨-, ⟨hpos, hle⟩, h⟩ := h
  split_ifs at h with hwritten
  · obtain rfl := Except.ok.inj h
    exact ⟨hr, .refl r⟩
  · simp only [bind_eq_ok, Except.ok.injEq] at h
    obtain ⟨isMember, hall, rfl⟩ := h
    generalize computeSetId keccak256 threshold members = id at hwritten hall
    have hnone := hr.unwritten id (not_not.mp hwritten)
    have hbefore : ∀ m, r.isMember id m = true ↔ m ∈ ([] : List Nat) := by
      intro m
      rw [hr.member, hnone]
    obtain ⟨hmem, hnodup, hother⟩ := addMember_all hall hbefore List.nodup_nil
    rw [List.nil_append] at hmem hnodup
    constructor
    · constructor
      · intro other m
        by_cases hid : other = id
        · subst hid
          dsimp only
          rw [Function.update_self]
          exact hmem m
        · dsimp only
          rw [Function.update_of_ne hid, hother other hid]
          exact hr.member other m
      · intro other
        by_cases hid : other = id
        · subst hid
          dsimp only
          rw [Function.update_self]
          exact hnodup
        · dsimp only
          rw [Function.update_of_ne hid]
          exact hr.distinct other
      · intro other
        by_cases hid : other = id
        · subst hid
          dsimp only
          rw [Function.update_self]
          exact hle
        · dsimp only
          rw [Function.update_of_ne hid]
          exact hr.reachable other
      · intro other hzero
        by_cases hid : other = id
        · subst hid
          dsimp only at hzero
          rw [Function.update_self] at hzero
          exact absurd hzero hpos
        · dsimp only at hzero ⊢
          rw [Function.update_of_ne hid] at hzero ⊢
          exact hr.unwritten other hzero
    · intro other hexists
      have hid : other ≠ id := by
        rintro rfl
        exact hwritten (existsSet_iff.mp hexists)
      exact ⟨Function.update_of_ne hid _ _, hother other hid⟩

end CommitteeRegistry

open CommitteeRegistry

/-- One call of `registerCommitteeSet`, at its time. -/
structure Registration where
  timestamp : Nat
  threshold : Nat
  members : List Nat

def register (keccak256 : List Nat → Nat) (r : CommitteeRegistry) (c : Registration) : Except Revert CommitteeRegistry :=
  r.registerCommitteeSet keccak256 c.timestamp c.threshold c.members

lemma exec_register_wellFormed (keccak256 : List Nat → Nat) (registrations : List Registration) :
    WellFormed (exec (register keccak256) empty registrations) :=
  exec_invariant (register keccak256) (fun _ _ _ hr h => (registerCommitteeSet_extends hr h).1) empty_wellFormed
    registrations

section Signatures

variable {env : Env} {a : SealedBidAuction} {registry : CommitteeRegistry}

lemma nextSigner_all {digest last last' : Nat} {signatures : List (List Nat)}
    (h : signatures.foldlM (nextSigner env a registry digest) last = .ok last') :
    ∃ signers : List Nat, (last :: signers).Pairwise (· < ·) ∧
      List.Forall₂ (fun signature signer => env.recover digest signature = some signer) signatures signers ∧
      ∀ s ∈ signers, registry.isMember a.config.committeeSetId s = true := by
  induction signatures generalizing last with
  | nil => exact ⟨[], List.pairwise_singleton _ _, .nil, fun s hs => absurd hs List.not_mem_nil⟩
  | cons signature signatures ih =>
    obtain ⟨mid, hfirst, hrest⟩ := (foldlM_cons_eq_ok _).mp h
    unfold nextSigner at hfirst
    cases hrecover : env.recover digest signature with
    | none =>
      rw [hrecover] at hfirst
      cases hfirst
    | some signer =>
      rw [hrecover] at hfirst
      simp only [bind_eq_ok, require_eq_ok, Except.ok.injEq] at hfirst
      obtain ⟨-, hlt, -, hmember, rfl⟩ := hfirst
      obtain ⟨signers, hsorted, hrecovered, hmembers⟩ := ih hrest
      refine ⟨signer :: signers, ?_, .cons hrecover hrecovered, ?_⟩
      · rw [List.pairwise_cons]
        refine ⟨fun s hs => ?_, hsorted⟩
        rcases List.mem_cons.mp hs with rfl | hs
        · exact hlt
        · exact lt_trans hlt ((List.pairwise_cons.mp hsorted).1 s hs)
      · intro s hs
        rcases List.mem_cons.mp hs with rfl | hs
        · exact hmember
        · exact hmembers s hs

end Signatures

/-- The signatures come from distinct members of the set, as many as its threshold asks for. -/
structure Attested (env : Env) (committee : CommitteeSet) (digest : Nat) (signatures : List (List Nat))
    (signers : List Nat) : Prop where
  recovered : List.Forall₂ (fun signature signer => env.recover digest signature = some signer) signatures signers
  distinct : signers.Nodup
  members : ∀ s ∈ signers, s ∈ committee.members
  enough : committee.threshold ≤ signers.length

section Runs

variable (env : Env)

lemma step_registry {w w' : World} {c : Msg env × Call} (hstep : step env w c = .ok w') :
    w'.registry = w.registry ∨ ∃ threshold members,
      w.registry.registerCommitteeSet env.keccak256 c.1.timestamp threshold members = .ok w'.registry := by
  obtain ⟨msg, c⟩ := c
  cases c with
  | registerCommitteeSet threshold members =>
    simp only [step, bind_eq_ok] at hstep
    obtain ⟨registry, hreg, heq⟩ := hstep
    obtain rfl := Except.ok.inj heq
    exact Or.inr ⟨threshold, members, hreg⟩
  | fund =>
    obtain ⟨-, sale, -, rfl⟩ := World.fund_ok hstep
    exact Or.inl rfl
  | cancel =>
    obtain ⟨sale, -, rfl⟩ := World.cancel_ok hstep
    exact Or.inl rfl
  | commitBid commitment ciphertextHash escrowAmount allowlistProof =>
    obtain ⟨-, -, quote, -, rfl⟩ := World.commitBid_ok hstep
    exact Or.inl rfl
  | commitBidWithPermit commitment ciphertextHash escrowAmount allowlistProof accepted =>
    obtain ⟨-, -, quote, -, rfl⟩ := World.commitBidWithPermit_ok hstep
    exact Or.inl rfl
  | claim bidId =>
    simp only [step, bind_eq_ok] at hstep
    obtain ⟨⟨w₁, tokens, refund⟩, hclaim, heq⟩ := hstep
    obtain rfl := Except.ok.inj heq
    obtain ⟨b, -, -, -, -, sale, quote, -, -, rfl⟩ := World.claim_ok hclaim
    exact Or.inl rfl
  | claimProceeds =>
    obtain ⟨-, -, -, quote, -, rfl⟩ := World.claimProceeds_ok hstep
    exact Or.inl rfl
  | claimUnsold =>
    obtain ⟨-, sale, -, rfl⟩ := World.claimUnsold_ok hstep
    exact Or.inl rfl
  | elsewhere sale quote =>
    simp only [step, bind_eq_ok] at hstep
    obtain ⟨-, -, heq⟩ := hstep
    obtain rfl := Except.ok.inj heq
    exact Or.inl rfl
  | openCommit | registerBatch | closeCommit | registerRevealRoot | processReveals | disputeVoid | finalize
  | failOnRevealTimeout =>
    obtain ⟨a', -, rfl⟩ := World.onAuction_ok hstep
    exact Or.inl rfl

lemma exec_registry {w : World} (hr : WellFormed w.registry) (calls : List (Msg env × Call)) :
    WellFormed (exec (step env) w calls).registry ∧ Extends w.registry (exec (step env) w calls).registry := by
  refine exec_invariant (step env) (I := fun w' => WellFormed w'.registry ∧ Extends w.registry w'.registry)
    (fun w' c w'' hw hstep => ?_) ⟨hr, .refl _⟩ calls
  rcases step_registry env hstep with heq | ⟨threshold, members, hreg⟩
  · rw [heq]
    exact hw
  · obtain ⟨hwell, hext⟩ := registerCommitteeSet_extends hw.1 hreg
    exact ⟨hwell, hw.2.trans hext⟩

/-- Whatever was registered before the auction and whatever happens after, its committee stays the one it was
created with, and a reveal root is registered on that committee's signatures only. -/
theorem committee_attestation {registrations : List Registration} {cfg : Config} {a : SealedBidAuction}
    (ha : initializeAuction (exec (register env.keccak256) empty registrations) cfg = .ok a) (sale quote : ERC20)
    (calls : List (Msg env × Call)) :
    let registry := exec (register env.keccak256) empty registrations
    let start : World := ⟨a, registry, sale, quote⟩
    (∀ n id, (exec (step env) start (calls.take n)).registry.existsSet id = true →
      Viable (exec (step env) start (calls.take n)).registry id) ∧
      (∀ n m, n ≤ m → Extends (exec (step env) start (calls.take n)).registry
        (exec (step env) start (calls.take m)).registry) ∧
      ∀ n (msg : Msg env) root bidCount signatures w',
        step env (exec (step env) start (calls.take n)) (msg, .registerRevealRoot root bidCount signatures) = .ok w' →
          Viable registry cfg.committeeSetId ∧ ∃ signers, Attested env (registry.sets cfg.committeeSetId)
            (revealRootDigest env a root bidCount) signatures signers := by
  intro registry start
  have hr : WellFormed registry := exec_register_wellFormed env.keccak256 registrations
  have hwell (n : Nat) : WellFormed (exec (step env) start (calls.take n)).registry :=
    (exec_registry env (show WellFormed start.registry from hr) (calls.take n)).1
  refine ⟨fun n id hid => (hwell n).viable hid, fun n m hle => ?_, fun n msg root bidCount signatures w' hreg => ?_⟩
  · have hsplit : calls.take m = calls.take n ++ (calls.take m).drop n := by
      conv_lhs => rw [← List.take_append_drop n (calls.take m), List.take_take, min_eq_left hle]
    rw [hsplit, exec_append]
    exact (exec_registry env (hwell n) _).2
  · have hconfig : a.config = cfg := by
      obtain ⟨-, rfl⟩ := initializeAuction_ok ha
      rfl
    have hexists : registry.existsSet cfg.committeeSetId = true := by
      simp only [initializeAuction, bind_eq_ok, require_eq_ok] at ha
      obtain ⟨-, -, -, -, -, -, -, -, -, -, -, -, -, -, -, -, -, -, -, -, -, -, -, hexists, -⟩ := ha
      exact hexists
    have hsame := exec_config (w := start) (calls.take n)
    obtain ⟨hset, -⟩ := (exec_registry env (show WellFormed start.registry from hr) (calls.take n)).2 _ hexists
    obtain ⟨a', hroot, -⟩ := World.onAuction_ok hreg
    simp only [registerRevealRoot, bind_eq_ok, inState_eq_ok, require_eq_ok] at hroot
    obtain ⟨-, -, -, -, -, -, -, -, -, henough, last, hall, -⟩ := hroot
    obtain ⟨signers, hsorted, hrecovered, hmembers⟩ := nextSigner_all hall
    have hcommittee : (exec (step env) start (calls.take n)).auction.config.committeeSetId = cfg.committeeSetId := by
      rw [hsame]
      exact congrArg Config.committeeSetId hconfig
    rw [hcommittee, CommitteeRegistry.thresholdOf, hset] at henough
    rw [hcommittee] at hmembers
    refine ⟨hr.viable hexists, signers, ?_, ?_, ?_, ?_⟩
    · have hdigest : revealRootDigest env a root bidCount =
          revealRootDigest env (exec (step env) start (calls.take n)).auction root bidCount := by
        unfold revealRootDigest
        rw [hsame]
      rw [hdigest]
      exact hrecovered
    · exact (List.pairwise_cons.mp hsorted).2.imp fun hlt => hlt.ne
    · intro s hs
      have hmem := ((hwell n).member cfg.committeeSetId s).mp (hmembers s hs)
      rw [hset] at hmem
      exact hmem
    · rw [← hrecovered.length_eq]
      exact henough

end Runs

/-! ### The sample sale under a registered committee -/

def sampleRegistrations : List Registration := [⟨0, 1, [7]⟩]

def attestedRegistry : CommitteeRegistry := exec (register sampleEnv.keccak256) empty sampleRegistrations

def attestedConfig : Config :=
  { sampleConfig with committeeSetId := computeSetId sampleEnv.keccak256 1 [7] }

def attestedAuction : SealedBidAuction := { sampleAuction with config := attestedConfig }

lemma attested_accepted : initializeAuction attestedRegistry attestedConfig = .ok attestedAuction := by
  have hexists : attestedRegistry.existsSet attestedConfig.committeeSetId = true := by decide +kernel
  simp only [initializeAuction, hexists]
  rfl

theorem committee_attestation_sample :
    let start : World := ⟨attestedAuction, attestedRegistry, sampleToken, sampleToken⟩
    (∀ n id, (exec (step sampleEnv) start (sampleCalls.take n)).registry.existsSet id = true →
      Viable (exec (step sampleEnv) start (sampleCalls.take n)).registry id) ∧
      (∀ n m, n ≤ m → Extends (exec (step sampleEnv) start (sampleCalls.take n)).registry
        (exec (step sampleEnv) start (sampleCalls.take m)).registry) ∧
      ∀ n (msg : Msg sampleEnv) root bidCount signatures w',
        step sampleEnv (exec (step sampleEnv) start (sampleCalls.take n))
            (msg, .registerRevealRoot root bidCount signatures) = .ok w' →
          Viable attestedRegistry attestedConfig.committeeSetId ∧
            ∃ signers, Attested sampleEnv (attestedRegistry.sets attestedConfig.committeeSetId)
              (revealRootDigest sampleEnv attestedAuction root bidCount) signatures signers :=
  committee_attestation sampleEnv attested_accepted sampleToken sampleToken sampleCalls

end Peal.Auction
