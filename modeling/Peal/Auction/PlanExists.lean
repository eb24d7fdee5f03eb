import Mathlib.Data.Nat.Bitwise
import Peal.Auction.PlanReveal
import Peal.Auction.QuoteSolvency

namespace Peal.Auction.Settler
open Peal.Fallible Peal.Runs Peal.PromotedTree SealedBidAuction

/-! # When a reveal plan exists, and what it holds -/

/-! ### The tree climbs as the contract walks it -/

section Tree

variable (env : Env)

lemma sibling_fst {layer : List Nat} {i : Nat} :
    layer[i ^^^ 1]? = (sibling layer i).map Prod.fst := by
  unfold sibling
  rcases Nat.mod_two_eq_zero_or_one i with heven | hodd
  · rw [if_pos heven, Nat.xor_one_of_even (Nat.even_iff.mpr heven), Option.map_map]
    exact Option.map_id'.symm
  · rw [if_neg (by omega), Nat.xor_one_of_odd (Nat.odd_iff.mpr hodd), Option.map_map]
    exact Option.map_id'.symm

lemma proofOf_eq (fuel : Nat) (layer : List Nat) (i : Nat) :
    proofOf env fuel layer i = (path (hashPair env) fuel layer i).map Prod.fst := by
  induction fuel generalizing layer i with
  | zero => rfl
  | succ fuel ih =>
    unfold proofOf path
    by_cases hwide : 1 < layer.length
    · rw [if_pos hwide, if_pos hwide, ih, List.map_append, sibling_fst]
      cases sibling layer i <;> rfl
    · rw [if_neg hwide, if_neg hwide, List.map_nil]

lemma climb_fst (leaf : Nat) (p : List (Nat × Bool)) :
    SortedPairTree.climb env.keccak256 leaf (p.map Prod.fst) = climb (hashPair env) leaf p := by
  induction p generalizing leaf with
  | nil => rfl
  | cons s p ih =>
    have hpair : SortedPairTree.pairHash env.keccak256 leaf s.1 =
        hashPair env (climbPair leaf s).1 (climbPair leaf s).2 := by
      unfold climbPair
      cases s.2 with
      | false => exact SortedPairTree.pairHash_comm env.keccak256 leaf s.1
      | true => rfl
    rw [climb_cons, ← hpair, ← ih]
    rfl

lemma merkleTree_ok {leaves : List Nat} (hne : leaves ≠ []) :
    ∃ tree : MerkleTree, merkleTree env leaves = .ok tree ∧ tree.proofs.length = leaves.length ∧
      ∀ (i : Nat) (leaf : Nat) (proof : List Nat), leaves[i]? = some leaf → tree.proofs[i]? = some proof →
        SortedPairTree.climb env.keccak256 leaf proof = tree.root := by
  have hpos : 0 < leaves.length := List.length_pos_of_ne_nil hne
  have hfuel : leaves.length ≤ leaves.length + 1 := Nat.le_succ _
  have htop := climb_path (hashPair env) hfuel (List.getElem?_eq_getElem hpos)
  obtain ⟨top, htop'⟩ : ∃ top, collapse (hashPair env) leaves.length leaves = [top] := ⟨_, htop⟩
  have hroot : rootOf (hashPair env) leaves = some top := by
    rw [rootOf, htop']
    rfl
  refine ⟨⟨top, (List.range leaves.length).map (proofOf env leaves.length leaves)⟩, ?_, by simp, ?_⟩
  · unfold merkleTree
    rw [hroot]
    rfl
  · intro i leaf proof hleaf hproof
    have hi : i < leaves.length := (List.getElem?_eq_some_iff.mp hleaf).1
    obtain rfl : proofOf env leaves.length leaves i = proof := by simpa [hi] using hproof
    rw [proofOf_eq, climb_fst]
    have hclimb := climb_path (hashPair env) hfuel hleaf
    rw [htop'] at hclimb
    exact (List.singleton_inj.mp hclimb).symm

end Tree

/-! ### What a plan makes of each bid -/

section Decisions

variable (decodeUint16 : DecodeUint16) (env : Env) (slots : List OpenedSlot)

/-- The bid sealed under a bid's ciphertext hash, when it opened to one. -/
def sealedBid (b : CommittedBidRef) : Option BidPayload :=
  (byHash slots b.ciphertextHash).bind (decodeBidPayload decodeUint16)

/-- The payload names this chain, this auction and the bidder. -/
def Names (b : CommittedBidRef) (p : BidPayload) : Prop :=
  p.chainId = env.chainid ∧ p.auction = env.self ∧ p.bidder = b.bidder

def commitmentOf (p : BidPayload) : Nat :=
  SealedBidAuction.bidCommitment env p.bidder p.quantity p.maxPriceTick p.salt p.bidVersion

/-- The payload is the committed bid. -/
def Opens (b : CommittedBidRef) (p : BidPayload) : Prop := Names env b p ∧ commitmentOf env p = b.commitment

instance (b : CommittedBidRef) (p : BidPayload) : Decidable (Opens env b p) :=
  inferInstanceAs (Decidable ((_ ∧ _ ∧ _) ∧ _))

def openedBid (b : CommittedBidRef) : Option BidPayload :=
  (sealedBid decodeUint16 slots b).filter fun p => Opens env b p

/-- The tick and the version of a sealed bid fit sixteen bits. -/
def Narrow (b : CommittedBidRef) : Prop :=
  ∀ p, sealedBid decodeUint16 slots b = some p → Names env b p → p.maxPriceTick ≤ 0xffff ∧ p.bidVersion ≤ 0xffff

lemma bidCommitment_eq {p : BidPayload} (hchain : p.chainId = env.chainid) (hauction : p.auction = env.self) {n : Nat} :
    bidCommitment env p = .ok n ↔ (p.maxPriceTick ≤ 0xffff ∧ p.bidVersion ≤ 0xffff) ∧ commitmentOf env p = n := by
  simp only [bidCommitment, bind_eq_ok, require_eq_ok, pure_eq_ok, exists_const, and_assoc, commitmentOf,
    SealedBidAuction.bidCommitment, hchain, hauction]

lemma decide_spec (b : CommittedBidRef) :
    (Narrow decodeUint16 env slots b → ∃ d, decide_ decodeUint16 env env.chainid env.self slots b = .ok d) ∧
      ∀ d, decide_ decodeUint16 env env.chainid env.self slots b = .ok d →
        Narrow decodeUint16 env slots b ∧ d.elim (fun _ => none) some = openedBid decodeUint16 env slots b := by
  unfold decide_ Narrow openedBid sealedBid
  cases hslot : byHash slots b.ciphertextHash with
  | none => exact ⟨fun _ => ⟨_, rfl⟩, fun d hd => ⟨fun p hp => (nomatch hp), by rw [← Except.ok.inj hd]; rfl⟩⟩
  | some payload =>
    cases hp : decodeBidPayload decodeUint16 payload with
    | none =>
      simp only [Option.bind_some, hp]
      exact ⟨fun _ => ⟨_, rfl⟩, fun d hd => ⟨fun p hp' => (nomatch hp'), by rw [← Except.ok.inj hd]; rfl⟩⟩
    | some p =>
      simp only [Option.bind_some, hp, Option.some.injEq, forall_eq']
      by_cases hhere : p.chainId = env.chainid ∧ p.auction = env.self
      · rw [if_neg (by tauto)]
        by_cases hbidder : p.bidder = b.bidder
        · have hnames : Names env b p := ⟨hhere.1, hhere.2, hbidder⟩
          rw [if_neg (not_not.mpr hbidder)]
          constructor
          · intro hnarrow
            have hcommit := (bidCommitment_eq env hhere.1 hhere.2).mpr ⟨hnarrow hnames, rfl⟩
            rw [hcommit]
            by_cases hopens : commitmentOf env p ≠ b.commitment
            · exact ⟨.inl _, by simp only [bind, Except.bind, if_pos hopens]; rfl⟩
            · exact ⟨.inr p, by simp only [bind, Except.bind, if_neg hopens]; rfl⟩
          · intro d hd
            obtain ⟨c, hc, hd⟩ := bind_eq_ok.mp hd
            obtain ⟨hnarrow, rfl⟩ := (bidCommitment_eq env hhere.1 hhere.2).mp hc
            refine ⟨fun _ => hnarrow, ?_⟩
            by_cases hopens : commitmentOf env p = b.commitment
            · rw [if_neg (not_not.mpr hopens)] at hd
              obtain rfl := pure_eq_ok.mp hd
              simp [Option.filter, show Opens env b p from ⟨hnames, hopens⟩]
            · rw [if_pos hopens] at hd
              obtain rfl := pure_eq_ok.mp hd
              simp [Option.filter, show ¬Opens env b p from fun h => hopens h.2]
        · rw [if_pos hbidder]
          refine ⟨fun _ => ⟨_, rfl⟩, fun d hd => ⟨fun hn => absurd hn.2.2 hbidder, ?_⟩⟩
          rw [← Except.ok.inj hd]
          simp [Option.filter, show ¬Opens env b p from fun h => hbidder h.1.2.2]
      · rw [if_pos (by tauto)]
        refine ⟨fun _ => ⟨_, rfl⟩, fun d hd => ⟨fun hn => absurd ⟨hn.1, hn.2.1⟩ hhere, ?_⟩⟩
        rw [← Except.ok.inj hd]
        simp [Option.filter, show ¬Opens env b p from fun h => hhere ⟨h.1.1, h.1.2.1⟩]

end Decisions

/-! ### The plan as a whole -/

section Plan

variable (decodeUint16 : DecodeUint16) (env : Env) (slots : List OpenedSlot)

/-- The plaintext a plan puts down for a bid. -/
def planned (b : CommittedBidRef) : BidPayload := (openedBid decodeUint16 env slots b).getD VOID

def plannedEntry (b : CommittedBidRef) : RevealEntry :=
  let p := planned decodeUint16 env slots b
  { bidId := b.bidId, quantity := p.quantity, tick := p.maxPriceTick, salt := p.salt, bidVersion := p.bidVersion
    proof := [] }

/-- The identifiers are those from zero up, in whatever order the bids come. -/
def Contiguous (bids : List CommittedBidRef) : Prop := (byId bids).map CommittedBidRef.bidId = List.range bids.length

lemma byId_length (bids : List CommittedBidRef) : (byId bids).length = bids.length :=
  List.length_insertionSort _ bids

lemma mem_byId {bids : List CommittedBidRef} {b : CommittedBidRef} : b ∈ byId bids ↔ b ∈ bids :=
  List.mem_insertionSort _

lemma requireContiguous_eq_ok {i : Nat} {bids : List CommittedBidRef} {u : Unit} :
    requireContiguous i bids = .ok u ↔ bids.map CommittedBidRef.bidId = List.range' i bids.length := by
  induction bids generalizing i with
  | nil => simp [requireContiguous]
  | cons b rest ih =>
    simp only [requireContiguous, bind_eq_ok, require_eq_ok, List.map_cons, List.length_cons, List.range'_succ,
      List.cons.injEq]
    constructor
    · rintro ⟨-, hb, hrest⟩
      exact ⟨hb, ih.mp hrest⟩
    · rintro ⟨hb, hrest⟩
      exact ⟨(), hb, ih.mpr hrest⟩

/-- What a plan holds: an entry for every bid with its planned plaintext and a proof that climbs to the root,
and the identifiers of the opened bids. -/
structure Plans (bids : List CommittedBidRef) (plan : RevealPlan) : Prop where
  entries : List.Forall₂ (fun b e => e = { plannedEntry decodeUint16 env slots b with proof := e.proof } ∧
    SortedPairTree.climb env.keccak256 (entryLeaf env e) e.proof = plan.root) (byId bids) plan.entries
  count : plan.bidCount = bids.length
  matched : ∀ i, i ∈ plan.matched ↔
    ∃ b ∈ bids, b.bidId = i ∧ ∃ p, openedBid decodeUint16 env slots b = some p

variable {decodeUint16 env slots}

lemma bareEntry_eq {b : CommittedBidRef} {d : UnmatchedReason ⊕ BidPayload}
    (h : decide_ decodeUint16 env env.chainid env.self slots b = .ok d) :
    bareEntry b d = plannedEntry decodeUint16 env slots b := by
  have hopened := ((decide_spec decodeUint16 env slots b).2 d h).2
  unfold plannedEntry planned
  rw [← hopened]
  cases d <;> rfl

lemma decided_map {β : Type} {f : CommittedBidRef × (UnmatchedReason ⊕ BidPayload) → β} {g : CommittedBidRef → β}
    {bids : List CommittedBidRef} {ds : List (UnmatchedReason ⊕ BidPayload)}
    (h : List.Forall₂ (fun b d => decide_ decodeUint16 env env.chainid env.self slots b = .ok d) bids ds)
    (hfg : ∀ b d, decide_ decodeUint16 env env.chainid env.self slots b = .ok d → f (b, d) = g b) :
    (bids.zip ds).map f = bids.map g := by
  induction h with
  | nil => rfl
  | cons hd _ ih => rw [List.zip_cons_cons, List.map_cons, List.map_cons, ih, hfg _ _ hd]

lemma bare_eq {bids : List CommittedBidRef} {ds : List (UnmatchedReason ⊕ BidPayload)}
    (h : List.Forall₂ (fun b d => decide_ decodeUint16 env env.chainid env.self slots b = .ok d) bids ds) :
    (bids.zip ds).map (fun x => bareEntry x.1 x.2) = bids.map (plannedEntry decodeUint16 env slots) :=
  decided_map h fun _ _ hd => bareEntry_eq hd

lemma mem_matched {bids : List CommittedBidRef} {ds : List (UnmatchedReason ⊕ BidPayload)}
    (h : List.Forall₂ (fun b d => decide_ decodeUint16 env env.chainid env.self slots b = .ok d) bids ds) (i : Nat) :
    i ∈ (bids.zip ds).filterMap (fun x => x.2.elim (fun _ => none) (fun _ => some x.1.bidId)) ↔
      ∃ b ∈ bids, b.bidId = i ∧ ∃ p, openedBid decodeUint16 env slots b = some p := by
  have hread := decided_map h
    (f := fun x => x.2.elim (fun _ => none) (fun _ => some x.1.bidId))
    (g := fun b => (openedBid decodeUint16 env slots b).map fun _ => b.bidId) fun b d hd => by
      rw [← ((decide_spec decodeUint16 env slots b).2 d hd).2]
      cases d <;> rfl
  have hfilter : (bids.zip ds).filterMap (fun x => x.2.elim (fun _ => none) (fun _ => some x.1.bidId)) =
      (bids.map fun b => (openedBid decodeUint16 env slots b).map fun _ => b.bidId).filterMap id := by
    rw [← hread, List.filterMap_map]
    rfl
  rw [hfilter]
  simp only [List.mem_filterMap, List.mem_map, id, exists_exists_and_eq_and, Option.map_eq_some_iff]
  constructor
  · rintro ⟨b, hb, p, hp, rfl⟩
    exact ⟨b, hb, rfl, p, hp⟩
  · rintro ⟨b, hb, rfl, p, hp⟩
    exact ⟨b, hb, p, hp, rfl⟩

lemma planReveal_eq_ok {bids : List CommittedBidRef} {plan : RevealPlan} :
    planReveal decodeUint16 env env.chainid env.self bids slots = .ok plan ↔
      requireContiguous 0 (byId bids) = .ok () ∧ byId bids ≠ [] ∧ ∃ ds tree,
        List.Forall₂ (fun b d => decide_ decodeUint16 env env.chainid env.self slots b = .ok d) (byId bids) ds ∧
        merkleTree env (((byId bids).map (plannedEntry decodeUint16 env slots)).map (entryLeaf env)) = .ok tree ∧
        plan = {
          entries := (((byId bids).map (plannedEntry decodeUint16 env slots)).zip tree.proofs).map
            fun x => { x.1 with proof := x.2 }
          root := tree.root
          bidCount := (byId bids).length
          matched := ((byId bids).zip ds).filterMap fun x => x.2.elim (fun _ => none) (fun _ => some x.1.bidId)
          unmatched := ((byId bids).zip ds).filterMap
            fun x => x.2.elim (fun reason => some (x.1.bidId, reason)) (fun _ => none) } := by
  simp only [planReveal, bind_eq_ok, require_eq_ok, pure_eq_ok, mapM_eq_ok]
  constructor
  · rintro ⟨⟨⟩, hids, -, hne, ds, hds, tree, htree, rfl⟩
    rw [bare_eq hds] at htree ⊢
    exact ⟨hids, hne, ds, tree, hds, htree, rfl⟩
  · rintro ⟨hids, hne, ds, tree, hds, htree, rfl⟩
    rw [← bare_eq hds] at htree ⊢
    exact ⟨(), hids, (), hne, ds, hds, tree, htree, rfl⟩

lemma decisions_iff {bids : List CommittedBidRef} :
    (∃ ds, List.Forall₂ (fun b d => decide_ decodeUint16 env env.chainid env.self slots b = .ok d) bids ds) ↔
      ∀ b ∈ bids, Narrow decodeUint16 env slots b := by
  induction bids with
  | nil => exact ⟨fun _ b hb => absurd hb List.not_mem_nil, fun _ => ⟨[], .nil⟩⟩
  | cons b bids ih =>
    rw [List.forall_mem_cons, ← ih]
    constructor
    · rintro ⟨_, hd | ⟨hd, hds⟩⟩
      exact ⟨((decide_spec decodeUint16 env slots b).2 _ hd).1, _, hds⟩
    · rintro ⟨hb, ds, hds⟩
      obtain ⟨d, hd⟩ := (decide_spec decodeUint16 env slots b).1 hb
      exact ⟨d :: ds, .cons hd hds⟩

lemma byId_ne_nil {bids : List CommittedBidRef} : byId bids ≠ [] ↔ bids ≠ [] := by
  rw [← List.length_pos_iff_ne_nil, byId_length, List.length_pos_iff_ne_nil]

lemma contiguous_iff {bids : List CommittedBidRef} : requireContiguous 0 (byId bids) = .ok () ↔ Contiguous bids := by
  rw [requireContiguous_eq_ok, byId_length, ← List.range_eq_range']
  rfl

/-- With contiguous bids, the plan exists exactly when every sealed bid is narrow. -/
theorem planReveal_iff {bids : List CommittedBidRef} (hcontiguous : Contiguous bids) (hne : bids ≠ []) :
    (∃ plan, planReveal decodeUint16 env env.chainid env.self bids slots = .ok plan) ↔
      ∀ b ∈ bids, Narrow decodeUint16 env slots b := by
  have hmem : (∀ b ∈ bids, Narrow decodeUint16 env slots b) ↔ ∀ b ∈ byId bids, Narrow decodeUint16 env slots b := by
    simp only [mem_byId]
  rw [hmem, ← decisions_iff]
  constructor
  · rintro ⟨plan, h⟩
    obtain ⟨-, -, ds, tree, hds, -⟩ := planReveal_eq_ok.mp h
    exact ⟨ds, hds⟩
  · rintro ⟨ds, hds⟩
    have hleaves : ((byId bids).map (plannedEntry decodeUint16 env slots)).map (entryLeaf env) ≠ [] := by
      rw [ne_eq, List.map_eq_nil_iff, List.map_eq_nil_iff]
      exact byId_ne_nil.mpr hne
    obtain ⟨tree, htree, -⟩ := merkleTree_ok env hleaves
    exact ⟨_, planReveal_eq_ok.mpr
      ⟨contiguous_iff.mpr hcontiguous, byId_ne_nil.mpr hne, ds, tree, hds, htree, rfl⟩⟩

theorem planReveal_plans {bids : List CommittedBidRef} {plan : RevealPlan}
    (h : planReveal decodeUint16 env env.chainid env.self bids slots = .ok plan) :
    Plans decodeUint16 env slots bids plan := by
  obtain ⟨-, hne, ds, tree, hds, htree, rfl⟩ := planReveal_eq_ok.mp h
  have hleaves : ((byId bids).map (plannedEntry decodeUint16 env slots)).map (entryLeaf env) ≠ [] := by
    rw [ne_eq, List.map_eq_nil_iff, List.map_eq_nil_iff]
    exact hne
  obtain ⟨tree', htree', hlen, hclimb⟩ := merkleTree_ok env hleaves
  obtain rfl : tree' = tree := Except.ok.inj (htree'.symm.trans htree)
  rw [List.length_map, List.length_map] at hlen
  refine ⟨?_, byId_length bids, fun i => ?_⟩
  · refine List.forall₂_iff_get.mpr ⟨by simp only [List.length_map, List.length_zip, hlen, min_self], ?_⟩
    intro i hi hi'
    have hproof : i < tree'.proofs.length := hlen ▸ hi
    simp only [List.get_eq_getElem, List.getElem_map, List.getElem_zip]
    refine ⟨trivial, hclimb i _ _ ?_ (List.getElem?_eq_getElem hproof)⟩
    rw [List.getElem?_map, List.getElem?_map, List.getElem?_eq_getElem hi]
    rfl
  · rw [mem_matched hds i]
    simp only [mem_byId]

end Plan

end Peal.Auction.Settler
