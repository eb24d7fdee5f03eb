import Peal.Links.Signing

namespace Peal.Links
open Peal.Fallible Peal.Runs Peal.Interleaving

/-! # Certificates answer for burns, and the gateway releases each burn once -/

variable {d : Deployment} {s t : Network}

def SignsOnce (s : Network) : Prop :=
  ∀ x ∈ s.signed, ∀ y ∈ s.signed, x.node = y.node → x.claim.namespaceId = y.claim.namespaceId →
    x.claim.position = y.claim.position → x.message.epoch = y.message.epoch → x.digest = y.digest

/-- A withdrawal of a burn: its amount, to the recipient its owner's claim names. -/
def Redeems (d : Deployment) (s : Network) (wd : Gateway.Withdrawal) : Prop :=
  ∃ claim, Burned d s claim ∧ Pays d claim wd

/-- The key is a faulty signer's, or a node made the signature. -/
def SignedBy (s : Network) (faulty : Nat → Bool) (a digest : Nat) : Prop :=
  faulty a = true ∨ ∃ x ∈ s.signed, x.signer = a ∧ x.digest = digest

instance (s : Network) (faulty : Nat → Bool) (a digest : Nat) : Decidable (SignedBy s faulty a digest) :=
  inferInstanceAs (Decidable (_ ∨ _))

/-- Whoever the members, the threshold and the faulty ones below it: what reaches the threshold withdraws a burn. -/
def QuorumsBacked (d : Deployment) (s : Network) : Prop :=
  ∀ (wd : Gateway.Withdrawal) (members attesters : List Nat) (threshold : Nat) (faulty : Nat → Bool),
    (members.filter faulty).length < threshold → attesters.Nodup → attesters ⊆ members →
      threshold ≤ attesters.length →
      (∀ a ∈ attesters, SignedBy s faulty a (Gateway.PealLinksGateway.withdrawalDigest d.chain wd)) → Redeems d s wd

/-- Every release is a burn's, and none is a second one of its burn. -/
structure ReleasesBacked (d : Deployment) (s : Network) : Prop where
  once : (s.chain.gateway.withdrawn.map Gateway.Withdrawn.withdrawalId).Nodup
  backed : ∀ r ∈ s.chain.gateway.withdrawn,
    ∃ wd, Redeems d s wd ∧ r = ⟨wd.withdrawalId, wd.token, wd.recipient, wd.amount, wd.epoch⟩

def Change.withdrawal? : Change → Option (Gateway.Withdrawal × List (List Nat))
  | .call e => e.2.withdrawal?
  | _ => none

/-- A withdrawal is submitted with signatures nobody forged, and fewer faulty signers than the threshold. -/
def Unfaked (d : Deployment) (faulty : Nat → Nat → Bool) (s : Network) (u : Change) : Prop :=
  ∀ p ∈ u.withdrawal?,
    (s.chain.gateway.signers.filter (faulty s.chain.gateway.epoch)).length < s.chain.gateway.threshold ∧
      ∀ signature ∈ p.2, ∀ a ∈ d.chain.recover (Gateway.PealLinksGateway.withdrawalDigest d.chain p.1) signature,
        SignedBy s (faulty s.chain.gateway.epoch) a (Gateway.PealLinksGateway.withdrawalDigest d.chain p.1)

instance (d : Deployment) (faulty : Nat → Nat → Bool) (s : Network) (u : Change) :
    Decidable (Unfaked d faulty s u) :=
  inferInstanceAs (Decidable (∀ p ∈ u.withdrawal?, _ < _ ∧ ∀ signature ∈ p.2, ∀ a ∈ d.chain.recover _ signature,
    SignedBy s _ a _))

/-- A network before its first request. -/
structure Blank (s : Network) : Prop where
  attestations : ∀ n, (s.nodes n).attestations = []
  withdrawals : ∀ n, (s.nodes n).withdrawals = []
  signed : s.signed = []
  answers : s.answers = []

/-- A network before its first request, with the gateway just deployed. -/
structure Fresh (d : Deployment) (s : Network) : Prop extends Blank s where
  deployed : ∃ issued owner signers threshold,
    Gateway.World.deployed d.chain issued owner signers threshold = .ok s.chain

lemma Blank.attentive (h : Blank s) : Attentive d s where
  attested n := by
    rw [h.attestations n]
    exact List.nodup_nil
  settled n := by
    rw [h.withdrawals n]
    exact List.nodup_nil
  signed x hx := by
    rw [h.signed] at hx
    exact absurd hx List.not_mem_nil
  stored n r hr := by
    rw [h.withdrawals n] at hr
    exact absurd hr List.not_mem_nil
  answered a ha := by
    rw [h.answers] at ha
    exact absurd ha List.not_mem_nil

lemma Attentive.signsOnce (h : Attentive d s) : SignsOnce s := by
  intro x hx y hy hnode hns hposition hepoch
  have hfirst := (h.signed x hx).attested
  have hsecond := (h.signed y hy).attested
  unfold Attests at hfirst hsecond
  rw [hnode, hns, hposition, hepoch] at hfirst
  exact h.unique hfirst hsecond

/-- One member of the quorum is not faulty, and signed only what it checked. -/
theorem Attentive.quorumsBacked (hinj : Function.Injective d.chain.keccak256) (h : Attentive d s) :
    QuorumsBacked d s := by
  intro wd members attesters threshold faulty hfew hdistinct hmembers hreached hsigned
  have hhonest : ∃ a ∈ attesters, faulty a = false := by
    by_contra hnone
    push Not at hnone
    have hsub : attesters ⊆ members.filter faulty := fun a ha =>
      List.mem_filter.mpr ⟨hmembers ha, by simpa using hnone a ha⟩
    have hlength := (hdistinct.subperm hsub).length_le
    omega
  obtain ⟨a, ha, hsound⟩ := hhonest
  rcases hsigned a ha with hfaulty | ⟨x, hx, -, hdigest⟩
  · rw [hsound] at hfaulty
    cases hfaulty
  · have hchecked := h.signed x hx
    have hdecoded := decode_of_digest hinj (hdigest ▸ hchecked.digest)
    exact ⟨x.claim, hchecked.burned, hchecked.spells.pays hchecked.burned.owned hdecoded⟩

lemma Redeems.later {wd : Gateway.Withdrawal} (h : Redeems d s wd) (hle : s ≤ t) : Redeems d t wd := by
  obtain ⟨claim, hburned, hpays⟩ := h
  exact ⟨claim, hburned.later hle, hpays⟩

/-! ### The gateway's part -/

structure Guarded (d : Deployment) (s : Network) : Prop where
  kept : Gateway.Kept d.chain s.chain
  backed : ∀ r ∈ s.chain.gateway.withdrawn,
    ∃ wd, Redeems d s wd ∧ r = ⟨wd.withdrawalId, wd.token, wd.recipient, wd.amount, wd.epoch⟩

lemma Guarded.later (h : Guarded d s) (hle : s ≤ t) (hchain : t.chain = s.chain) : Guarded d t := by
  refine ⟨hchain ▸ h.kept, fun r hr => ?_⟩
  rw [hchain] at hr
  obtain ⟨wd, hbacked, hr⟩ := h.backed r hr
  exact ⟨wd, hbacked.later hle, hr⟩

lemma Guarded.releasesBacked (h : Guarded d s) : ReleasesBacked d s := ⟨h.kept.once, h.backed⟩

lemma withdrawal_backed (hinj : Function.Injective d.chain.keccak256) {faulty : Nat → Nat → Bool} {caller : Nat}
    {wd : Gateway.Withdrawal} {signatures : List (List Nat)} {r : Gateway.PealLinksGateway × Auction.ERC20}
    (h : Attentive d s) (hkept : Gateway.Kept d.chain s.chain)
    (hhonest : Unfaked d faulty s (.call (caller, .withdraw wd signatures)))
    (hr : s.chain.gateway.withdraw d.chain (s.chain.erc20 wd.token) wd signatures = .ok r) : Redeems d s wd := by
  obtain ⟨hfew, hunforged⟩ := hhonest (wd, signatures) rfl
  obtain ⟨-, -, -, -, ⟨attesters, hdistinct, hreached, hattest⟩, -⟩ := Gateway.PealLinksGateway.withdraw_ok hr
  refine h.quorumsBacked hinj wd s.chain.gateway.signers attesters s.chain.gateway.threshold _ hfew hdistinct
    (fun a ha => ?_) hreached fun a ha => ?_
  · exact (hkept.committee.members a).mp (hattest a ha).1
  · obtain ⟨-, signature, hsignature, hrecover⟩ := hattest a ha
    exact hunforged signature hsignature a hrecover

lemma Guarded.called (hinj : Function.Injective d.chain.keccak256) {faulty : Nat → Nat → Bool}
    {e : Nat × Gateway.Call} {chain : Gateway.World} (h : Guarded d s) (hattentive : Attentive d s)
    (hhonest : Unfaked d faulty s (.call e)) (hcall : s.chain.step d.chain e = .ok chain) :
    Guarded d { s with chain := chain } := by
  have hle : s ≤ { s with chain := chain } :=
    ⟨List.prefix_refl s.finalized, fun m => List.Subset.refl (s.nodes m).attestations⟩
  refine ⟨h.kept.step hcall, fun r hr => ?_⟩
  rcases Gateway.step_withdrawn h.kept hcall with ⟨wd, signatures, ⟨g, erc20⟩, he, hok, rfl⟩ | hsame
  · obtain ⟨caller, call⟩ := e
    subst he
    obtain ⟨-, -, -, -, -, -, -, hlog⟩ := Gateway.PealLinksGateway.withdraw_ok hok
    have hlog := congrArg Gateway.PealLinksGateway.withdrawn hlog
    have hmem : r ∈ g.withdrawn := hr
    rw [hlog] at hmem
    rcases List.mem_append.mp hmem with hold | hnew
    · obtain ⟨wd', hbacked, hwd'⟩ := h.backed r hold
      exact ⟨wd', hbacked.later hle, hwd'⟩
    · exact ⟨wd, (withdrawal_backed hinj hattentive h.kept hhonest hok).later hle, List.mem_singleton.mp hnew⟩
  · have hold : r ∈ s.chain.gateway.withdrawn := hsame ▸ hr
    obtain ⟨wd', hbacked, hwd'⟩ := h.backed r hold
    exact ⟨wd', hbacked.later hle, hwd'⟩

/-! ### Runs -/

abbrev Run := System NodeId Outside Network

abbrev Happening := Interleaving.Event NodeId Outside Reopened SettlementRequest Change

structure Sound (d : Deployment) (run : Run) : Prop where
  steady : Steady (Attentive d) run
  tame : ∀ p ∈ run.running, Every (Tame p.1) p.2
  guarded : Guarded d run.state

lemma attentive_step {run run' : Run} {e : Happening} (h : Steady (Attentive d) run)
    (hstep : (Network.machine d).step run e = .ok run') : Steady (Attentive d) run' := by
  have hany : Heeds (fun _ _ => True) run e := by cases e <;> trivial
  exact steady_step (Network.machine d) (fun s _ r _ => safe_serve s r) (fun _ r _ hs => reopen_attentive r hs)
    (fun _ _ _ hs _ hu => change_attentive hs hu) h hany hstep

lemma tame_step {run run' : Run} {e : Happening} (h : ∀ p ∈ run.running, Every (Tame p.1) p.2)
    (hstep : (Network.machine d).step run e = .ok run') : ∀ p ∈ run'.running, Every (Tame p.1) p.2 :=
  every_running (fun s _ r => every_serve s r) h hstep

lemma le_step {run run' : Run} {e : Happening} (h : Steady (Attentive d) run)
    (hstep : (Network.machine d).step run e = .ok run') : run.state ≤ run'.state := by
  cases e with
  | request n r =>
    obtain rfl := Except.ok.inj hstep
    exact le_refl run.state
  | resume k w =>
    obtain ⟨n, update, next, hrunning, rfl⟩ := Machine.step_resume hstep
    exact (h.safe _ (List.mem_of_getElem? hrunning) run.state w (le_refl run.state) h.kept).1
  | crash n r =>
    obtain rfl := Except.ok.inj hstep
    exact (reopen_attentive r h.kept).1
  | outside u =>
    obtain ⟨next, hu, rfl⟩ := Machine.step_outside hstep
    exact (change_attentive h.kept hu).1

lemma Sound.step (hinj : Function.Injective d.chain.keccak256) {faulty : Nat → Nat → Bool} {run run' : Run}
    {e : Happening} (h : Sound d run) (hhonest : Heeds (Unfaked d faulty) run e)
    (hstep : (Network.machine d).step run e = .ok run') : Sound d run' := by
  refine ⟨attentive_step h.steady hstep, tame_step h.tame hstep, ?_⟩
  have hle := le_step h.steady hstep
  cases e with
  | request n r =>
    obtain rfl := Except.ok.inj hstep
    exact h.guarded
  | resume k w =>
    obtain ⟨n, update, next, hrunning, rfl⟩ := Machine.step_resume hstep
    exact h.guarded.later hle ((h.tame _ (List.mem_of_getElem? hrunning)).1.chain w run.state)
  | crash n r =>
    obtain rfl := Except.ok.inj hstep
    exact h.guarded.later hle rfl
  | outside u =>
    obtain ⟨next, hu, rfl⟩ := Machine.step_outside hstep
    cases u with
    | finalize tx =>
      obtain rfl := Except.ok.inj hu
      exact h.guarded.later hle rfl
    | apply m =>
      change (if _ then _ else _) = _ at hu
      split_ifs at hu
      obtain rfl := Except.ok.inj hu
      exact h.guarded.later hle rfl
    | call e =>
      obtain ⟨chain, hchain, rfl⟩ := exceptMap_eq_ok.mp hu
      exact h.guarded.called hinj h.steady.kept hhonest (mapError_eq_ok.mp hchain)
    | confirm m namespaceId withdrawalId txHash =>
      obtain rfl := Except.ok.inj hu
      exact h.guarded.later hle rfl

lemma Fresh.sound (h : Fresh d s) : Sound d ⟨s, []⟩ := by
  obtain ⟨issued, owner, signers, threshold, hdeployed⟩ := h.deployed
  have hkept := Gateway.kept_deployed hdeployed
  refine ⟨⟨h.toBlank.attentive, fun p hp => absurd hp List.not_mem_nil⟩, fun p hp => absurd hp List.not_mem_nil, hkept,
    fun r hr => ?_⟩
  have hnone := Gateway.deployed_withdrawn hdeployed
  rw [hnone] at hr
  exact absurd hr List.not_mem_nil

/-- In whatever order settlements, peers' requests, crashes and calls of the gateway come, a node signs one digest for
a position in an epoch, a quorum withdraws a burn to the recipient of its owner's claim, and the gateway releases each
burn at most once. -/
theorem settlement_signs_safely (hinj : Function.Injective d.chain.keccak256) (faulty : Nat → Nat → Bool)
    (hfresh : Fresh d s) {es : List Happening}
    (hhonest : Along (Network.machine d).step (Heeds (Unfaked d faulty)) ⟨s, []⟩ es) :
    Throughout (Network.machine d).step
      (fun run => SignsOnce run.state ∧ QuorumsBacked d run.state ∧ ReleasesBacked d run.state) ⟨s, []⟩ es := by
  have hsound : Throughout (Network.machine d).step (Sound d) ⟨s, []⟩ es :=
    throughout_along _ (fun _ _ _ h hhonest hstep => h.step hinj hhonest hstep) hfresh.sound hhonest
  intro n
  have h := hsound n
  exact ⟨h.steady.kept.signsOnce, h.steady.kept.quorumsBacked hinj, h.guarded.releasesBacked⟩

section Sample
def sampleOpening : ReceiptOpening where
  amount := 5
  sender := accountId sampleCrypto 3 11
  receiver := withdrawReceiver sampleCrypto
  randomness := 1

def addressText (n : Nat) : Text := "0x".toList ++ hexEncode (toLeBytes 20 n).reverse

def sampleClaim : WithdrawalClaim where
  namespaceId := 3
  account := accountId sampleCrypto 3 11
  position := 0
  opening := sampleOpening
  recipient := addressText 9
  pubkey := 11
  signature := 11

def sampleBurnt : Ledger :=
  let l := (Ledger.fresh sampleCrypto sampleInstance ⟨3, 0, 4⟩).insertAccount ⟨accountId sampleCrypto 3 11, 11, 0, 0, 0⟩
  { l with tree := ⟨2, [receiptCommitment sampleCrypto sampleOpening]⟩ }

def sampleSettlement : Deployment where
  crypto := sampleCrypto
  chain := Gateway.sampleChain
  signPrehash key digest := .ok [key, digest]
  recover digest signature := expect (Gateway.sampleRecover digest signature) "no key".toList
  genesis ns := if ns = 3 then some sampleBurnt else none

def sampleNode : Node where
  conf := {
    namespaces _ := some ⟨1, [], addressText 100, addressText 42, 0, true⟩
    committee := some (.fixture [⟨5, 5⟩, ⟨7, 7⟩] 2)
    consensus := false }
  applied := 0
  withdrawals := []
  attestations := []

def sampleNetwork : Network where
  nodes _ := sampleNode
  finalized := []
  chain := Gateway.sampleStart
  signed := []
  answers := []

def sampleSettling : List Happening :=
  let wd : Gateway.Withdrawal := ⟨1, 42, 100, 9, 5, withdrawalId Gateway.sampleChain 3 0, 1⟩
  let digest := Gateway.PealLinksGateway.withdrawalDigest Gateway.sampleChain wd
  .request 0 (.settle sampleClaim) :: List.replicate 9 (.resume 0 ⟨.ok (), .ok (), .ok 1, []⟩) ++
    [.outside (.call (1, .configureToken 100 true 1000)), .outside (.call (9, .approve 100 42 50)),
      .outside (.call (9, .deposit 100 5 77)), .outside (.call (9, .withdraw wd [[5, digest], [7, digest]]))]

lemma sampleNetwork_blank : Blank sampleNetwork := ⟨fun _ => rfl, fun _ => rfl, rfl, rfl⟩

lemma sampleNetwork_fresh : Fresh sampleSettlement sampleNetwork where
  toBlank := sampleNetwork_blank
  deployed := ⟨Gateway.sampleToken, 1, [5, 7], 2, Gateway.sampleStart_deployed⟩

theorem settlement_signs_safely_sample :
    Throughout (Network.machine sampleSettlement).step
      (fun run => SignsOnce run.state ∧ QuorumsBacked sampleSettlement run.state ∧
        ReleasesBacked sampleSettlement run.state) ⟨sampleNetwork, []⟩ sampleSettling :=
  settlement_signs_safely SortedPairTree.pairingHash_injective (fun _ a => a = 5) sampleNetwork_fresh
    (by decide +kernel)

end Sample

end Peal.Links
