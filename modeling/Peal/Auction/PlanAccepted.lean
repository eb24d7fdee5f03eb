import Peal.Auction.PlanExists
import Peal.Auction.Recovery

namespace Peal.Auction.Settler
open Peal.Fallible Peal.UniformPrice Peal.Runs SealedBidAuction

/-! # When the contract accepts a reveal plan

Three ranges meet in a bidder's payload: what the decoder lets through, what the commitment takes, and what
the contract takes of an opened bid. -/

/-! ### The bids after the rounds -/

section Rounds

variable {env : Env}

/-- A bid once an entry for it is processed. -/
def processedBid (env : Env) (b : Bid) (e : RevealEntry) : Bid :=
  if opensCommitment env b e then { b with revealed := true, quantity := e.quantity, tick := e.tick }
  else { b with revealed := true, voided := true }

variable {cfg : Config} {bids : List Bid} {a a' : SealedBidAuction}

lemma afterRound_bids (r : Round env) (b : Bid) :
    (afterRound cfg a r b).bids = a.bids.set r.2.bidId (processedBid env b r.2) := by
  unfold afterRound processedBid
  split_ifs <;> rfl

/-- Each round writes the bid it is for, and no other. -/
theorem processAll_bids {rounds : List (Round env)} (h : Queued cfg bids a rounds)
    (hok : processAll a rounds = .ok a') :
    (∀ r ∈ rounds, a'.bids[r.2.bidId]? = some (processedBid env (bidFor bids r.2) r.2)) ∧
      ∀ j, j ∉ rounds.map (fun r => r.2.bidId) → a'.bids[j]? = a.bids[j]? := by
  unfold processAll at hok
  induction rounds generalizing a with
  | nil =>
    rw [List.foldlM_nil, pure_eq_ok] at hok
    exact ⟨fun r hr => absurd hr List.not_mem_nil, fun j _ => by rw [hok]⟩
  | cons r rounds ih =>
    obtain ⟨a₁, ha₁, hrest⟩ := (foldlM_cons_eq_ok _).mp hok
    obtain ⟨hwritten, hkept⟩ := ih (h.next ha₁) hrest
    obtain ⟨-, rfl⟩ := (processRound_eq_ok h).mp ha₁
    have hnd := h.nodup
    rw [List.map_cons, List.nodup_cons] at hnd
    rw [List.map_cons]
    refine ⟨fun x hx => ?_, fun j hj => ?_⟩
    · rcases List.mem_cons.mp hx with rfl | hmem
      · have hlt := (List.getElem?_eq_some_iff.mp (h.slot x List.mem_cons_self).1).1
        rw [hkept _ hnd.1, afterRound_bids, List.getElem?_set_self hlt]
      · exact hwritten x hmem
    · rw [List.mem_cons, not_or] at hj
      rw [hkept j hj.2, afterRound_bids, List.getElem?_set_ne (Ne.symm hj.1)]

end Rounds

/-! ### The plan against the contract -/

section Acceptance

variable (decodeUint16 : DecodeUint16) (env : Env) (slots : List OpenedSlot)

/-- The client's list is what the contract holds. -/
structure ReadFrom (a : SealedBidAuction) (bids : List CommittedBidRef) : Prop where
  contiguous : Contiguous bids
  length : bids.length = a.bids.length
  held : ∀ b ∈ bids, ∃ x, a.bids[b.bidId]? = some x ∧ x.bidder = b.bidder ∧ x.commitment = b.commitment

/-- What a bid is to become: revealed with its own terms when it opened, void or for nothing otherwise. -/
def SettledAs (a : SealedBidAuction) (b : CommittedBidRef) : Prop :=
  ∃ x, a.bids[b.bidId]? = some x ∧ x.revealed = true ∧
    match openedBid decodeUint16 env slots b with
    | some p => x.voided = false ∧ x.quantity = p.quantity ∧ x.tick = p.maxPriceTick
    | none => x.voided = true ∨ x.quantity = 0

/-- The auction with a reveal root registered. -/
def registered (a : SealedBidAuction) (root : Nat) : SealedBidAuction :=
  { a with revealRoot := root, state := .revealing }

/-- Once its root is registered, the contract takes the plan's entries in any order, and every bid settles. -/
def AcceptedBy (a : SealedBidAuction) (bids : List CommittedBidRef) (plan : RevealPlan) : Prop :=
  ∀ rounds : List (Round env), (rounds.map Prod.snd).Perm plan.entries →
    ∃ a', processAll (registered a plan.root) rounds = .ok a' ∧
      ∀ b ∈ bids, SettledAs decodeUint16 env slots a' b

/-- The order a bid brings to the book. -/
def plannedOrder (cfg : Config) (bids : List Bid) (b : CommittedBidRef) : Option Order :=
  let e := plannedEntry decodeUint16 env slots b
  if opensCommitment env (bidFor bids e) e ∧ affordable cfg (bidFor bids e).escrow e.quantity e.tick = true then
    some ⟨e.quantity, e.tick⟩
  else none

/-- No sealed bid is off the ranges on its way: sixteen bits for the commitment, the ticks of the auction,
and words for its escrow and for the demand it joins. -/
structure InRange (a : SealedBidAuction) (bids : List CommittedBidRef) : Prop where
  narrow : ∀ b ∈ bids, Narrow decodeUint16 env slots b
  tick : ∀ b ∈ bids, ∀ p, openedBid decodeUint16 env slots b = some p → p.maxPriceTick < a.config.numTicks
  escrow : ∀ b ∈ bids, let e := plannedEntry decodeUint16 env slots b
    opensCommitment env (bidFor a.bids e) e → EscrowComputes a.config e.quantity e.tick
  demand : ∀ t, demandAt (bids.filterMap (plannedOrder decodeUint16 env slots a.config a.bids)) t < 2 ^ 256

variable {decodeUint16 env slots} {a : SealedBidAuction} {bids : List CommittedBidRef} {plan : RevealPlan}

lemma Plans.entries_perm (h : Plans decodeUint16 env slots bids plan) {β : Type} {f : RevealEntry → β}
    (hf : ∀ e proof, f { e with proof := proof } = f e) :
    (plan.entries.map f).Perm (bids.map fun b => f (plannedEntry decodeUint16 env slots b)) := by
  have hmap : ∀ {sorted : List CommittedBidRef} {entries : List RevealEntry},
      List.Forall₂ (fun b e => e = { plannedEntry decodeUint16 env slots b with proof := e.proof } ∧
        SortedPairTree.climb env.keccak256 (entryLeaf env e) e.proof = plan.root) sorted entries →
      entries.map f = sorted.map fun b => f (plannedEntry decodeUint16 env slots b) := by
    intro sorted entries hentries
    induction hentries with
    | nil => rfl
    | cons hd _ ih => rw [List.map_cons, List.map_cons, ih, (congrArg f hd.1).trans (hf _ _)]
  rw [hmap h.entries]
  exact (List.perm_insertionSort _ bids).map _

lemma Plans.climbs (h : Plans decodeUint16 env slots bids plan) {e : RevealEntry} (he : e ∈ plan.entries) :
    SortedPairTree.climb env.keccak256 (entryLeaf env e) e.proof = plan.root := by
  obtain ⟨i, hi, rfl⟩ := List.getElem_of_mem he
  exact ((List.forall₂_iff_get.mp h.entries).2 i (h.entries.length_eq ▸ hi) hi).2

section Rounds

variable {rounds : List (Round env)}

lemma Plans.rounds_perm (h : Plans decodeUint16 env slots bids plan)
    (hrounds : (rounds.map Prod.snd).Perm plan.entries) {β : Type} {f : RevealEntry → β}
    (hf : ∀ e proof, f { e with proof := proof } = f e) :
    (rounds.map fun r => f r.2).Perm (bids.map fun b => f (plannedEntry decodeUint16 env slots b)) := by
  have hmap := hrounds.map f
  rw [List.map_map] at hmap
  exact hmap.trans (h.entries_perm hf)

lemma Plans.rounds_forall (h : Plans decodeUint16 env slots bids plan)
    (hrounds : (rounds.map Prod.snd).Perm plan.entries) {p : RevealEntry → Prop}
    (hp : ∀ e proof, p { e with proof := proof } = p e) :
    (∀ r ∈ rounds, p r.2) ↔ ∀ b ∈ bids, p (plannedEntry decodeUint16 env slots b) := by
  have hall (l : List Prop) (l' : List Prop) (hl : l.Perm l') : (∀ q ∈ l, q) ↔ ∀ q ∈ l', q := by
    simp only [hl.mem_iff]
  have := hall _ _ (h.rounds_perm hrounds hp)
  rwa [List.forall_mem_map, List.forall_mem_map] at this

lemma Plans.rounds_demand (h : Plans decodeUint16 env slots bids plan)
    (hrounds : (rounds.map Prod.snd).Perm plan.entries) (cfg : Config) (held : List Bid) (t : Nat) :
    demandAt (ordersOf cfg held rounds) t =
      demandAt (bids.filterMap (plannedOrder decodeUint16 env slots cfg held)) t := by
  have hperm := (h.rounds_perm hrounds (f := fun e =>
    if opensCommitment env (bidFor held e) e ∧ affordable cfg (bidFor held e).escrow e.quantity e.tick = true then
      some (⟨e.quantity, e.tick⟩ : Order) else none) fun _ _ => rfl).filterMap id
  rw [List.filterMap_map, List.filterMap_map] at hperm
  exact quantityWhere_perm _ hperm

/-- What a sealed auction guarantees of the bids it holds. -/
structure Fresh (a : SealedBidAuction) : Prop where
  tallied : Tallied a
  fresh : ∀ x ∈ a.bids, x.revealed = false ∧ x.voided = false
  unvoided : a.voidedBidCount = 0

lemma Fresh.queued (hfresh : Fresh a) (hread : ReadFrom a bids) (h : Plans decodeUint16 env slots bids plan)
    (hrounds : (rounds.map Prod.snd).Perm plan.entries) :
    Queued a.config a.bids (registered a plan.root) rounds := by
  have ht : Tallied (registered a plan.root) := hfresh.tallied.of_same rfl rfl rfl rfl
  refine (ht.queued rfl (fun x hx => (hfresh.fresh x hx).1) hfresh.unvoided ?_ fun r hr => ?_).1
  · refine (h.rounds_perm hrounds (f := RevealEntry.bidId) fun _ _ => rfl).trans ?_
    have hids : (byId bids).map CommittedBidRef.bidId = List.range a.bids.length :=
      hread.contiguous.trans (congrArg List.range hread.length)
    have hsorted := (List.perm_insertionSort (fun x y : CommittedBidRef => x.bidId ≤ y.bidId) bids).map
      CommittedBidRef.bidId
    exact hids ▸ hsorted.symm
  · exact h.climbs (hrounds.mem_iff.mp (List.mem_map_of_mem hr))

lemma Fresh.accepted_iff (hfresh : Fresh a) (hread : ReadFrom a bids) (h : Plans decodeUint16 env slots bids plan)
    (hrounds : (rounds.map Prod.snd).Perm plan.entries) :
    Succeeds (processAll (registered a plan.root) rounds) ↔
      (∀ b ∈ bids, let e := plannedEntry decodeUint16 env slots b
        e.tick < a.config.numTicks ∧
          (opensCommitment env (bidFor a.bids e) e → EscrowComputes a.config e.quantity e.tick)) ∧
      ∀ t, demandAt (bids.filterMap (plannedOrder decodeUint16 env slots a.config a.bids)) t < 2 ^ 256 := by
  have hzero : ∀ t, (registered a plan.root).demandByTick t = 0 :=
    hfresh.tallied.no_demand fun x hx => (hfresh.fresh x hx).1
  rw [processAll_succeeds_iff (hfresh.queued hread h hrounds) fun t => by rw [hzero t]; positivity,
    h.rounds_forall hrounds (p := fun e => e.tick < a.config.numTicks ∧
      (opensCommitment env (bidFor a.bids e) e → EscrowComputes a.config e.quantity e.tick)) fun _ _ => rfl]
  simp only [hzero, Nat.zero_add, h.rounds_demand hrounds]

lemma Fresh.settled (hfresh : Fresh a) (hread : ReadFrom a bids) (h : Plans decodeUint16 env slots bids plan)
    (hrounds : (rounds.map Prod.snd).Perm plan.entries) {a' : SealedBidAuction}
    (hok : processAll (registered a plan.root) rounds = .ok a') {b : CommittedBidRef} (hb : b ∈ bids) :
    SettledAs decodeUint16 env slots a' b := by
  have hq := hfresh.queued hread h hrounds
  obtain ⟨x, hx, hbidder, hcommitment⟩ := hread.held b hb
  have hwritten := (processAll_bids hq hok).1
  have hheld : bidFor a.bids (plannedEntry decodeUint16 env slots b) = x := by
    unfold bidFor
    rw [List.getD_eq_getElem?_getD, show (plannedEntry decodeUint16 env slots b).bidId = b.bidId from rfl, hx]
    rfl
  have hslot := (h.rounds_forall hrounds (p := fun e =>
    a'.bids[e.bidId]? = some (processedBid env (bidFor a.bids e) e)) fun _ _ => rfl).mp hwritten b hb
  rw [hheld] at hslot
  refine ⟨_, hslot, ?_, ?_⟩
  · unfold processedBid
    split_ifs <;> rfl
  · have hnotvoid : x.voided = false := (hfresh.fresh x (List.mem_of_getElem? hx)).2
    cases hopened : openedBid decodeUint16 env slots b with
    | some p =>
      have hplanned : planned decodeUint16 env slots b = p := by
        unfold planned
        rw [hopened]
        rfl
      have hopens : Opens env b p := by
        have := Option.filter_eq_some_iff.mp hopened
        simpa using this.2
      have hcommits : opensCommitment env x (plannedEntry decodeUint16 env slots b) := by
        unfold opensCommitment plannedEntry
        rw [hplanned, hbidder, hcommitment, ← hopens.1.2.2]
        exact hopens.2
      unfold processedBid
      rw [if_pos hcommits]
      unfold plannedEntry
      rw [hplanned]
      exact ⟨hnotvoid, rfl, rfl⟩
    | none =>
      have hplanned : planned decodeUint16 env slots b = VOID := by
        unfold planned
        rw [hopened]
        rfl
      unfold processedBid
      split_ifs
      · right
        unfold plannedEntry
        rw [hplanned]
        rfl
      · left
        rfl

end Rounds

lemma closed_fresh {registry : CommitteeRegistry} {cfg : Config} {a₀ : SealedBidAuction}
    (ha : initializeAuction registry cfg = .ok a₀) (sale quote : ERC20) (calls : List (Msg env × Call))
    (hs : (exec (step env) ⟨a₀, registry, sale, quote⟩ calls).auction.state = .commitClosed) :
    Fresh (exec (step env) ⟨a₀, registry, sale, quote⟩ calls).auction := by
  have hinv := (solvent_unless_settled ha sale quote calls).1
  obtain ⟨hbids, hvoid⟩ := exec_sealedBids ha sale quote calls (by rw [hs]; rfl)
  exact ⟨hinv.tallied, hbids, hvoid⟩

/-- After any run up to the close of commits, a non-empty list of committed bids has a plan that the contract
accepts in full exactly when no sealed bid is out of range. -/
theorem plan_accepted_iff (decodeUint16 : DecodeUint16) (slots : List OpenedSlot) {registry : CommitteeRegistry}
    {cfg : Config} {a₀ : SealedBidAuction} (ha : initializeAuction registry cfg = .ok a₀) (sale quote : ERC20)
    (calls : List (Msg env × Call))
    (hs : (exec (step env) ⟨a₀, registry, sale, quote⟩ calls).auction.state = .commitClosed)
    {bids : List CommittedBidRef} (hread : ReadFrom (exec (step env) ⟨a₀, registry, sale, quote⟩ calls).auction bids)
    (hne : bids ≠ []) :
    let a := (exec (step env) ⟨a₀, registry, sale, quote⟩ calls).auction
    (∃ plan, planReveal decodeUint16 env env.chainid env.self bids slots = .ok plan ∧
      Plans decodeUint16 env slots bids plan ∧ AcceptedBy decodeUint16 env slots a bids plan) ↔
      InRange decodeUint16 env slots a bids := by
  intro a
  have hfresh : Fresh a := closed_fresh ha sale quote calls hs
  have hplanned {b : CommittedBidRef} {p : BidPayload} (hp : openedBid decodeUint16 env slots b = some p) :
      (plannedEntry decodeUint16 env slots b).tick = p.maxPriceTick := by
    unfold plannedEntry planned
    rw [hp]
    rfl
  constructor
  · rintro ⟨plan, hplan, hplans, haccepted⟩
    have hnarrow := (planReveal_iff hread.contiguous hne).mp ⟨plan, hplan⟩
    have hrounds : ((plan.entries.map fun e => ((⟨env.self + 1, 0, 0, by omega, by omega⟩ : Msg env), e)).map
        Prod.snd).Perm plan.entries := by
      rw [List.map_map]
      exact List.Perm.of_eq (List.map_id _)
    obtain ⟨a', hok, -⟩ := haccepted _ hrounds
    obtain ⟨hentries, hdemand⟩ := (hfresh.accepted_iff hread hplans hrounds).mp ⟨a', hok⟩
    refine ⟨hnarrow, fun b hb p hp => ?_, fun b hb => (hentries b hb).2, hdemand⟩
    rw [← hplanned hp]
    exact (hentries b hb).1
  · intro h
    obtain ⟨plan, hplan⟩ := (planReveal_iff hread.contiguous hne).mpr h.narrow
    have hplans := planReveal_plans hplan
    have htick : ∀ b ∈ bids, (plannedEntry decodeUint16 env slots b).tick < a.config.numTicks := by
      intro b hb
      cases hopened : openedBid decodeUint16 env slots b with
      | some p =>
        rw [hplanned hopened]
        exact h.tick b hb p hopened
      | none =>
        unfold plannedEntry planned
        rw [hopened]
        exact hfresh.tallied.accepted.ticks_pos
    refine ⟨plan, hplan, hplans, fun rounds hrounds => ?_⟩
    obtain ⟨a', hok⟩ := (hfresh.accepted_iff hread hplans hrounds).mpr
      ⟨fun b hb => ⟨htick b hb, h.escrow b hb⟩, h.demand⟩
    exact ⟨a', hok, fun b hb => hfresh.settled hread hplans hrounds hok hb⟩

end Acceptance

/-! ### One bidder's tick stops the plan -/

/-- A decoder that reads any safe integer as a `uint16`. -/
def sampleDecode : DecodeUint16 := fun w => if w ≤ MAX_SAFE_INTEGER then some w else none

def samplePayload (bidder tick salt : Nat) : Bytes :=
  BID_PAYLOAD_MAGIC ++ [1, 9, bidder, 1, tick, salt, 1].flatMap (Sha256.toBytes 32)

def sampleRefs : List CommittedBidRef :=
  [⟨0, 40, SealedBidAuction.bidCommitment sampleEnv 40 1 0 0 1, ['a', 'a']⟩,
    ⟨1, 41, SealedBidAuction.bidCommitment sampleEnv 41 1 0 1 1, ['b', 'b']⟩]

/-- The batch of the sample sale, bidder 40 having sealed some tick of their own. -/
def sampleSlots (tick : Nat) : List OpenedSlot :=
  [⟨['0', 'x', 'A', 'A'], samplePayload 40 tick 0, false⟩, ⟨['b', 'b'], samplePayload 41 0 1, false⟩]

lemma sampleRefs_read : ReadFrom sampleClosed.auction sampleRefs := by
  have hcontiguous : (byId sampleRefs).map CommittedBidRef.bidId = List.range sampleRefs.length := by
    decide +kernel
  refine ⟨hcontiguous, by decide +kernel, fun b hb => ?_⟩
  rcases List.mem_cons.mp hb with rfl | hb
  · exact ⟨sampleClosed.auction.bid 0, by decide +kernel, by decide +kernel, by decide +kernel⟩
  · obtain rfl := List.mem_singleton.mp hb
    exact ⟨sampleClosed.auction.bid 1, by decide +kernel, by decide +kernel, by decide +kernel⟩

theorem plan_accepted_sample :
    (∃ plan, planReveal sampleDecode sampleEnv 1 9 sampleRefs (sampleSlots 0) = .ok plan ∧
      Plans sampleDecode sampleEnv (sampleSlots 0) sampleRefs plan ∧
        AcceptedBy sampleDecode sampleEnv (sampleSlots 0) sampleClosed.auction sampleRefs plan) ↔
      InRange sampleDecode sampleEnv (sampleSlots 0) sampleClosed.auction sampleRefs :=
  plan_accepted_iff sampleDecode (sampleSlots 0)
    (show initializeAuction sampleRegistry sampleConfig = .ok sampleAuction from rfl) sampleToken sampleToken
    (sampleCalls.take 5) (show sampleClosed.auction.state = .commitClosed by decide +kernel) sampleRefs_read
    (List.cons_ne_nil _ _)

/-- Bidder 40 sealed tick 65536: the plan for the whole auction throws, although the other bid opened. -/
theorem plan_fails :
    sampleClosed.auction.state = .commitClosed ∧ ReadFrom sampleClosed.auction sampleRefs ∧
      (∃ b ∈ sampleRefs, ∃ p, openedBid sampleDecode sampleEnv (sampleSlots 65536) b = some p) ∧
      planReveal sampleDecode sampleEnv 1 9 sampleRefs (sampleSlots 65536) = .error .maxPriceTickNotUint16 := by
  have hopened : ∃ b ∈ sampleRefs, (openedBid sampleDecode sampleEnv (sampleSlots 65536) b).isSome := by
    decide +kernel
  have hthrows : (match planReveal sampleDecode sampleEnv 1 9 sampleRefs (sampleSlots 65536) with
      | .error e => some e
      | .ok _ => none) = some .maxPriceTickNotUint16 := by
    decide +kernel
  refine ⟨by decide +kernel, sampleRefs_read, ?_, ?_⟩
  · obtain ⟨b, hb, hp⟩ := hopened
    exact ⟨b, hb, Option.isSome_iff_exists.mp hp⟩
  · cases hplan : planReveal sampleDecode sampleEnv 1 9 sampleRefs (sampleSlots 65536) with
    | ok plan =>
      rw [hplan] at hthrows
      cases hthrows
    | error e =>
      rw [hplan] at hthrows
      exact congrArg Except.error (Option.some.inj hthrows)

end Peal.Auction.Settler
