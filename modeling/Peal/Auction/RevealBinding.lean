import Peal.Auction.Reveal
import Peal.Auction.QuoteSolvency

namespace Peal.Auction
open Peal.Fallible Peal.SortedPairTree Peal.Runs Peal.Rows SealedBidAuction

/-! # Which reveal calls can void a bid whose plaintext was attested correctly -/

/-- The calls anyone may make while plaintexts are being recorded. -/
inductive RevealCall where
  | processReveals (entries : List RevealEntry)
  | disputeVoid (bidId quantity tick salt bidVersion : Nat)
  deriving DecidableEq

def revealStep (env : Env) (a : SealedBidAuction) : Msg env × RevealCall → Except Revert SealedBidAuction
  | (msg, .processReveals entries) => a.processReveals env msg entries
  | (_, .disputeVoid bidId quantity tick salt bidVersion) =>
    a.disputeVoid env bidId quantity tick salt bidVersion

/-- Bid `i` was committed, under `version`, to the plaintext the committee attests for it. -/
structure AttestedRight (env : Env) (attested : List Plaintext) (i version : Nat)
    (a : SealedBidAuction) : Prop where
  attests : Attests env attested a.revealRoot
  committed : ∃ b p, a.bids[i]? = some b ∧ attested[i]? = some p ∧
    b.commitment = bidCommitment env b.bidder p.quantity p.tick p.salt version

/-- An accepted `processReveals` presents bid `i` only under the version it was committed with. -/
def VersionKept (env : Env) (i version : Nat) (a : SealedBidAuction) (c : Msg env × RevealCall) : Prop :=
  ∀ entries, c.2 = .processReveals entries → Succeeds (a.processReveals env c.1 entries) →
    ∀ e ∈ entries, e.bidId = i → e.bidVersion = version

section Binding

variable {env : Env} {attested : List Plaintext} {i version : Nat} {a a' : SealedBidAuction}

lemma SameHoldings.bid {b : Bid} (h : SameHoldings a a') (hb : a.bids[i]? = some b) :
    ∃ b', a'.bids[i]? = some b' ∧ holding b' = holding b := by
  have hmap : (a'.bids.map holding)[i]? = some (holding b) := by
    rw [h.holdings, List.getElem?_map, hb]
    rfl
  rw [List.getElem?_map] at hmap
  obtain ⟨b', hb', heq⟩ := Option.map_eq_some_iff.mp hmap
  exact ⟨b', hb', heq⟩

lemma AttestedRight.of_sameHoldings (h : AttestedRight env attested i version a)
    (hsame : SameHoldings a a') : AttestedRight env attested i version a' := by
  obtain ⟨b, p, hb, hp, hc⟩ := h.committed
  obtain ⟨b', hb', heq⟩ := hsame.bid hb
  have hbidder : b'.bidder = b.bidder := congrArg (fun x => x.1) heq
  have hcommit : b'.commitment = b.commitment := congrArg (fun x => x.2.1) heq
  refine ⟨by rw [hsame.revealRoot]; exact h.attests, b', p, hb', hp, ?_⟩
  rw [hcommit, hbidder, hc]

lemma bid_set_self {b b' : Bid} (hb : a.bids[i]? = some b) :
    (a.bids.set i b').getD i default = b' := by
  have hlt : i < a.bids.length := (List.getElem?_eq_some_iff.mp hb).1
  rw [List.getD_eq_getElem?_getD, List.getElem?_set_self hlt]
  rfl

lemma bid_set_ne {j : Nat} (hne : j ≠ i) (b' : Bid) :
    (a.bids.set j b').getD i default = a.bids.getD i default := by
  rw [List.getD_eq_getElem?_getD, List.getD_eq_getElem?_getD, List.getElem?_set_ne hne]

lemma AttestedRight.opens_iff (hinj : Function.Injective env.keccak256) {e : RevealEntry} {b : Bid}
    (h : AttestedRight env attested e.bidId version a) (hp : Processable env a e b) :
    opensCommitment env b e ↔ e.bidVersion = version := by
  obtain ⟨b₀, p, hb₀, hplain, hcommit⟩ := h.committed
  have hentry := h.attests.entry_eq hinj hp.proof
  rw [hplain, Option.some.injEq] at hentry
  have hfound := hp.found
  rw [hb₀, Option.some.injEq] at hfound
  subst hfound hentry
  unfold opensCommitment
  rw [hcommit]
  exact ⟨fun heq => bidCommitment_inj hinj heq, fun heq => by rw [heq]⟩

lemma processOne_voided (hinj : Function.Injective env.keccak256)
    (h : AttestedRight env attested i version a) {msg : Msg env} {e : RevealEntry}
    (hstep : processOne env a msg e = .ok a') :
    (a'.bid i).voided = ((a.bid i).voided || (e.bidId == i && e.bidVersion != version)) := by
  obtain ⟨b, hp, hcase⟩ := processOne_eq_ok.mp hstep
  by_cases hid : e.bidId = i
  · subst hid
    have hopens := h.opens_iff hinj hp
    rw [beq_self_eq_true, Bool.true_and, bid_of_getElem? hp.found]
    rcases hcase with ⟨hc, -, rfl⟩ | ⟨hc, eligible, -, -, rfl⟩
    · have hne : e.bidVersion ≠ version := fun heq => hc (hopens.mpr heq)
      unfold SealedBidAuction.bid afterVoid
      rw [bid_set_self hp.found, bne_iff_ne.mpr hne, Bool.or_true]
    · unfold SealedBidAuction.bid afterReveal
      rw [bid_set_self hp.found, hopens.mp hc, bne_self_eq_false, Bool.or_false]
  · have hsame : a'.bid i = a.bid i := by
      rcases hcase with ⟨-, -, rfl⟩ | ⟨-, eligible, -, -, rfl⟩
      · exact bid_set_ne hid _
      · exact bid_set_ne hid _
    rw [hsame, beq_false_of_ne hid, Bool.false_and, Bool.or_false]

lemma foldlM_processOne_voided (hinj : Function.Injective env.keccak256) {msg : Msg env}
    {entries : List RevealEntry} (h : AttestedRight env attested i version a)
    (hfold : entries.foldlM (fun a e => processOne env a msg e) a = .ok a') :
    (a'.bid i).voided = ((a.bid i).voided ||
      entries.any (fun e => e.bidId == i && e.bidVersion != version)) := by
  induction entries generalizing a with
  | nil =>
    rw [List.foldlM_nil, pure_eq_ok] at hfold
    rw [hfold, List.any_nil, Bool.or_false]
  | cons e entries ih =>
    obtain ⟨a₁, hstep, hrest⟩ := (foldlM_cons_eq_ok _).mp hfold
    have hnext := h.of_sameHoldings (processOne_sameHoldings hstep)
    rw [ih hnext hrest, processOne_voided hinj h hstep, List.any_cons, Bool.or_assoc]

lemma revealStep_attestedRight (h : AttestedRight env attested i version a) {c : Msg env × RevealCall}
    (hstep : revealStep env a c = .ok a') : AttestedRight env attested i version a' := by
  obtain ⟨msg, c⟩ := c
  cases c with
  | processReveals entries => exact h.of_sameHoldings (processReveals_sameHoldings hstep).2
  | disputeVoid bidId quantity tick salt bidVersion =>
    obtain ⟨-, -, -, rfl⟩ := disputeVoid_ok hstep
    exact ⟨h.attests, h.committed⟩

lemma advance_voided_iff (hinj : Function.Injective env.keccak256)
    (h : AttestedRight env attested i version a) (hv : (a.bid i).voided = false)
    (c : Msg env × RevealCall) :
    ((advance (revealStep env) a c).bid i).voided = false ↔ VersionKept env i version a c := by
  obtain ⟨msg, c⟩ := c
  cases c with
  | disputeVoid bidId quantity tick salt bidVersion =>
    have hkept : ((advance (revealStep env) a (msg, .disputeVoid bidId quantity tick salt bidVersion)).bid
        i).voided = false := by
      apply advance_induct (P := fun x : SealedBidAuction => (x.bid i).voided = false) _ hv
      intro a' hstep
      obtain ⟨-, -, -, rfl⟩ := disputeVoid_ok hstep
      exact hv
    refine ⟨fun _ => ?_, fun _ => hkept⟩
    intro entries heq
    cases heq
  | processReveals entries =>
    cases hstep : a.processReveals env msg entries with
    | error e =>
      rw [advance_of_error (revealStep env) (show revealStep env a (msg, .processReveals entries) = _
        from hstep)]
      refine ⟨fun _ entries' heq hok => ?_, fun _ => hv⟩
      obtain rfl : entries = entries' := RevealCall.processReveals.inj heq
      obtain ⟨a', ha'⟩ := hok
      rw [hstep] at ha'
      cases ha'
    | ok a' =>
      rw [advance_of_ok (revealStep env) (show revealStep env a (msg, .processReveals entries) = _
        from hstep)]
      rw [foldlM_processOne_voided hinj h (processReveals_eq_ok.mp hstep).2, hv, Bool.false_or,
        List.any_eq_false]
      constructor
      · intro hall entries' heq _ e he hid
        obtain rfl : entries = entries' := RevealCall.processReveals.inj heq
        have hnot := hall e he
        rw [hid, beq_self_eq_true, Bool.true_and, bne_iff_ne, not_not] at hnot
        exact hnot
      · intro hkept e he hbad
        rw [Bool.and_eq_true, beq_iff_eq, bne_iff_ne] at hbad
        exact hbad.2 (hkept entries rfl ⟨a', hstep⟩ e he hbad.1)

/-! ### Auctions in which every bid is attested correctly -/

/-- Every bid is attested as committed, and none has been voided. -/
structure AllRight (env : Env) (attested : List Plaintext) (versions : Nat → Nat)
    (a : SealedBidAuction) : Prop where
  state : a.state = .revealing
  attested : ∀ i < a.bids.length, AttestedRight env attested i (versions i) a
  none_voided : a.voidedBidCount = 0
  unvoided : ∀ i, (a.bid i).voided = false

lemma SameHoldings.length (h : SameHoldings a a') : a'.bids.length = a.bids.length := by
  have hlen := congrArg List.length h.holdings
  rwa [List.length_map, List.length_map] at hlen

lemma AllRight.processOne (hinj : Function.Injective env.keccak256) {versions : Nat → Nat}
    (h : AllRight env attested versions a) {msg : Msg env} {e : RevealEntry}
    (hversion : e.bidVersion = versions e.bidId)
    (hstep : SealedBidAuction.processOne env a msg e = .ok a') : AllRight env attested versions a' := by
  obtain ⟨b, hp, hcase⟩ := processOne_eq_ok.mp hstep
  have hsame := processOne_sameHoldings hstep
  have hid : e.bidId < a.bids.length := (List.getElem?_eq_some_iff.mp hp.found).1
  have hopens := ((h.attested e.bidId hid).opens_iff hinj hp).mpr hversion
  refine ⟨hsame.state.trans h.state, fun i hi => ?_, ?_, fun i => ?_⟩
  · rw [hsame.length] at hi
    exact (h.attested i hi).of_sameHoldings hsame
  · rcases hcase with ⟨hc, -, -⟩ | ⟨-, eligible, -, -, rfl⟩
    · exact absurd hopens hc
    · exact h.none_voided
  · by_cases hi : i < a.bids.length
    · rw [processOne_voided hinj (h.attested i hi) hstep, h.unvoided i, Bool.false_or]
      by_cases heq : e.bidId = i
      · rw [← heq, hversion, bne_self_eq_false, Bool.and_false]
      · rw [beq_false_of_ne heq, Bool.false_and]
    · rw [← hsame.length] at hi
      unfold SealedBidAuction.bid
      rw [List.getD_eq_getElem?_getD, List.getElem?_eq_none (Nat.le_of_not_lt hi)]
      rfl

lemma AllRight.step (hinj : Function.Injective env.keccak256) {versions : Nat → Nat}
    (h : AllRight env attested versions a) {c : Msg env × RevealCall}
    (hkept : ∀ i < a.bids.length, VersionKept env i (versions i) a c)
    (hstep : revealStep env a c = .ok a') : AllRight env attested versions a' := by
  obtain ⟨msg, c⟩ := c
  cases c with
  | disputeVoid bidId quantity tick salt bidVersion =>
    obtain ⟨-, hvoid, -, -⟩ := disputeVoid_ok hstep
    rw [h.unvoided bidId] at hvoid
    cases hvoid
  | processReveals entries =>
    obtain ⟨-, hfold⟩ := processReveals_eq_ok.mp hstep
    have hall : ∀ x e x', e ∈ entries → (AllRight env attested versions x ∧ SameHoldings a x) →
        SealedBidAuction.processOne env x msg e = .ok x' →
          (AllRight env attested versions x' ∧ SameHoldings a x') := by
      intro x e x' he hx hx'
      obtain ⟨b, hp, -⟩ := processOne_eq_ok.mp hx'
      have hid : e.bidId < a.bids.length := by
        rw [← hx.2.length]
        exact (List.getElem?_eq_some_iff.mp hp.found).1
      have hversion := hkept e.bidId hid entries rfl ⟨a', hstep⟩ e he rfl
      exact ⟨hx.1.processOne hinj hversion hx', hx.2.trans (processOne_sameHoldings hx')⟩
    exact (foldlM_invariant _ hall ⟨h, .refl a⟩ hfold).1

/-- A correctly attested bid stays unvoided over a run exactly when every accepted call presents it
under the version it was committed with; and where that holds of every bid, no dispute ever fails
the auction and the dispute window never delays it. -/
theorem reveal_binding_iff (hinj : Function.Injective env.keccak256) (versions : Nat → Nat)
    (hs : a.state = .revealing) (calls : List (Msg env × RevealCall)) :
    (∀ i, AttestedRight env attested i (versions i) a → (a.bid i).voided = false →
      (Throughout (revealStep env) (fun x => (x.bid i).voided = false) a calls ↔
        Along (revealStep env) (VersionKept env i (versions i)) a calls)) ∧
    ((∀ i < a.bids.length, AttestedRight env attested i (versions i) a) → a.voidedBidCount = 0 →
      (∀ i, (a.bid i).voided = false) →
      Along (revealStep env) (fun x c => ∀ i < x.bids.length, VersionKept env i (versions i) x c) a calls →
      Throughout (revealStep env)
        (fun x => x.state = .revealing ∧ ∀ timestamp, x.WindowPassed timestamp) a calls) := by
  refine ⟨fun i hright hv => ?_, fun hright hcount hv hkept => ?_⟩
  · exact throughout_iff_along (I := AttestedRight env attested i (versions i)) (revealStep env)
      (fun x c x' hx hstep => revealStep_attestedRight hx hstep)
      (fun x c hx hvx => advance_voided_iff hinj hx hvx c) hright hv calls
  · intro n
    have hall := throughout_along (I := AllRight env attested versions) (revealStep env)
      (fun x c x' hx hc hstep => hx.step hinj hc hstep) ⟨hs, hright, hcount, hv⟩ hkept n
    refine ⟨hall.state, fun timestamp hpos => ?_⟩
    rw [hall.none_voided] at hpos
    exact absurd hpos (Nat.lt_irrefl 0)

end Binding

/-! ### A junk version voids a genuine bid -/

/-- The sample sale with its root registered and nothing processed yet. -/
def sampleRegistered : SealedBidAuction :=
  (exec (step sampleEnv) sampleWorld (sampleCalls.take 6)).auction

def samplePlaintexts : List Plaintext := [⟨1, 0, 0⟩, ⟨1, 0, 1⟩]

lemma sampleRegistered_attested : AttestedRight sampleEnv samplePlaintexts 0 1 sampleRegistered := by
  have hleaves : sampleTree.leaves = samplePlaintexts.mapIdx (attestedLeaf sampleEnv) := rfl
  have hroot : sampleRegistered.revealRoot = sampleTree.root pairingHash := by decide +kernel
  refine ⟨?_, ?_⟩
  · rw [hroot]
    exact attests_tree sampleEnv hleaves
  · refine ⟨sampleRegistered.bid 0, ⟨1, 0, 0⟩, ?_, rfl, ?_⟩
    · decide +kernel
    · decide +kernel

def sampleReveal (bidVersion : Nat) : Msg sampleEnv × RevealCall :=
  (sampleMsg 50 22, .processReveals [⟨0, 1, 0, 0, bidVersion, [sampleLeaf 1]⟩])

theorem reveal_binding_sample :
    Throughout (revealStep sampleEnv) (fun x => (x.bid 0).voided = false) sampleRegistered
        [sampleReveal 1] ↔
      Along (revealStep sampleEnv) (VersionKept sampleEnv 0 1) sampleRegistered [sampleReveal 1] :=
  (reveal_binding_iff pairingHash_injective (fun _ => 1)
    (show sampleRegistered.state = .revealing by decide +kernel) [sampleReveal 1]).1 0
    sampleRegistered_attested (show (sampleRegistered.bid 0).voided = false by decide +kernel)

/-- Presenting the attested plaintext under version 2 voids a bid committed under version 1, and its
own preimage then fails the whole auction. -/
theorem reveal_binding_fails :
    sampleRegistered.state = .revealing ∧ (sampleRegistered.bid 0).voided = false ∧
      AttestedRight sampleEnv samplePlaintexts 0 1 sampleRegistered ∧
      ((exec (revealStep sampleEnv) sampleRegistered [sampleReveal 2]).bid 0).voided = true ∧
      (exec (revealStep sampleEnv) sampleRegistered
        [sampleReveal 2, (sampleMsg 50 23, .disputeVoid 0 1 0 0 1)]).state = .failed := by
  refine ⟨?_, ?_, sampleRegistered_attested, ?_, ?_⟩
  · decide +kernel
  · decide +kernel
  · decide +kernel
  · decide +kernel

end Peal.Auction
