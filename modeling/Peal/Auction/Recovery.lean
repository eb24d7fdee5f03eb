import Peal.Auction.RevealBinding

namespace Peal.Auction
open Peal.Fallible Peal.UniformPrice Peal.SortedPairTree Peal.Runs Peal.Rows SealedBidAuction

/-! # When the attested plaintexts let the auction settle -/

/-- A plaintext within the quantity bounds has a price and an escrow that fit their words. -/
def EscrowComputes (cfg : Config) (quantity tick : Nat) : Prop :=
  cfg.minBidQuantity ≤ quantity → (cfg.maxQuantityPerAddress = 0 ∨ quantity ≤ cfg.maxQuantityPerAddress) →
    cfg.reservePrice + tick * cfg.tickSize < 2 ^ 256 ∧ 10 ^ cfg.saleDecimals < 2 ^ 256 ∧
      (quantity * (cfg.reservePrice + tick * cfg.tickSize) + 10 ^ cfg.saleDecimals - 1) /
        10 ^ cfg.saleDecimals < 2 ^ 256

/-- Within the bounds, and the escrow covers the quantity at the bid's own maximum price. -/
def affordable (cfg : Config) (escrow quantity tick : Nat) : Bool :=
  decide (cfg.minBidQuantity ≤ quantity ∧
    (cfg.maxQuantityPerAddress = 0 ∨ quantity ≤ cfg.maxQuantityPerAddress) ∧
    (quantity * (cfg.reservePrice + tick * cfg.tickSize) + 10 ^ cfg.saleDecimals - 1) /
      10 ^ cfg.saleDecimals ≤ escrow)

lemma isEligible_eq_ok {cfg : Config} {b : Bid} {quantity tick : Nat} {eligible : Bool} :
    isEligible cfg b quantity tick = .ok eligible ↔
      EscrowComputes cfg quantity tick ∧ eligible = affordable cfg b.escrow quantity tick := by
  unfold isEligible EscrowComputes affordable
  by_cases hmin : quantity < cfg.minBidQuantity
  · have hnot : ¬cfg.minBidQuantity ≤ quantity := by omega
    simp [hmin, hnot, eq_comm]
  · have hle : cfg.minBidQuantity ≤ quantity := by omega
    rw [if_neg hmin]
    by_cases hmax : cfg.maxQuantityPerAddress ≠ 0 ∧ cfg.maxQuantityPerAddress < quantity
    · have hnot : ¬(cfg.maxQuantityPerAddress = 0 ∨ quantity ≤ cfg.maxQuantityPerAddress) := by omega
      rw [if_pos hmax]
      simp only [hnot, false_and, and_false, IsEmpty.forall_iff, implies_true, true_and, decide_false,
        Except.ok.injEq, eq_comm]
    · have hin : cfg.maxQuantityPerAddress = 0 ∨ quantity ≤ cfg.maxQuantityPerAddress := by omega
      rw [if_neg hmax]
      simp only [bind_eq_ok, escrowFor_eq_ok, Except.ok.injEq, hle, hin, true_and, forall_const]
      constructor
      · rintro ⟨needed, ⟨hp, hu, hlt, rfl⟩, rfl⟩
        exact ⟨⟨hp, hu, hlt⟩, rfl⟩
      · rintro ⟨⟨hp, hu, hlt⟩, rfl⟩
        exact ⟨_, ⟨hp, hu, hlt, rfl⟩, rfl⟩

section Rounds

variable {env : Env} (cfg : Config) (bids : List Bid)

/-- One round presents one entry, in a transaction of its own. -/
abbrev Round (env : Env) := Msg env × RevealEntry

/-- The committed bid an entry is for. -/
def bidFor (e : RevealEntry) : Bid := bids.getD e.bidId default

/-- The order a round adds to the book, if it adds one. -/
def orderOf (r : Round env) : Option Order :=
  if opensCommitment env (bidFor bids r.2) r.2 ∧
      affordable cfg (bidFor bids r.2).escrow r.2.quantity r.2.tick = true then
    some ⟨r.2.quantity, r.2.tick⟩
  else none

def ordersOf (rounds : List (Round env)) : List Order := rounds.filterMap (orderOf cfg bids)

/-- The times, as stored, of the rounds that void their bid. -/
def voidTimes (rounds : List (Round env)) : List Nat :=
  (rounds.filter (fun r => !decide (opensCommitment env (bidFor bids r.2) r.2))).map
    (fun r => r.1.timestamp % 2 ^ 64)

/-- Processing the rounds one after the other, each by its own `processReveals`. -/
def processAll (a : SealedBidAuction) (rounds : List (Round env)) : Except Revert SealedBidAuction :=
  rounds.foldlM (fun a r => a.processReveals env r.1 [r.2]) a

variable {cfg bids} {a a' : SealedBidAuction}

lemma processReveals_singleton {msg : Msg env} {e : RevealEntry} :
    a.processReveals env msg [e] = .ok a' ↔
      a.state = .revealing ∧ processOne env a msg e = .ok a' := by
  rw [processReveals_eq_ok, foldlM_cons_eq_ok]
  simp

/-- One call with a chunk of entries does what one call for each of them does. -/
theorem processReveals_eq_processAll (hs : a.state = .revealing) (msg : Msg env)
    (entries : List RevealEntry) : a.processReveals env msg entries = .ok a' ↔
      processAll a (entries.map (fun e => (msg, e))) = .ok a' := by
  rw [processReveals_eq_ok]
  unfold processAll
  induction entries generalizing a with
  | nil => simp [hs]
  | cons e entries ih =>
    rw [List.map_cons, foldlM_cons_eq_ok, foldlM_cons_eq_ok]
    simp only [processReveals_singleton, hs, true_and]
    constructor
    · rintro ⟨a₁, ha₁, hrest⟩
      have hs₁ : a₁.state = .revealing := (processOne_sameHoldings ha₁).state.trans hs
      exact ⟨a₁, ha₁, (ih hs₁).mp ⟨hs₁, hrest⟩⟩
    · rintro ⟨a₁, ha₁, hrest⟩
      have hs₁ : a₁.state = .revealing := (processOne_sameHoldings ha₁).state.trans hs
      exact ⟨a₁, ha₁, ((ih hs₁).mpr hrest).2⟩

/-! ### One round -/

/-- The rounds still to process: distinct unrevealed bids, each with a proof against the root. -/
structure Queued (cfg : Config) (bids : List Bid) (a : SealedBidAuction) (rounds : List (Round env)) :
    Prop where
  state : a.state = .revealing
  config : a.config = cfg
  nodup : (rounds.map (fun r => r.2.bidId)).Nodup
  slot : ∀ r ∈ rounds, a.bids[r.2.bidId]? = some (bidFor bids r.2) ∧ (bidFor bids r.2).bidder ≠ 0 ∧
    (bidFor bids r.2).revealed = false
  proof : ∀ r ∈ rounds, climb env.keccak256
    (revealLeaf env r.2.bidId r.2.quantity r.2.tick r.2.salt) r.2.proof = a.revealRoot
  processed : a.processedBidCount + rounds.length < 2 ^ 32
  voided : a.voidedBidCount + rounds.length < 2 ^ 32

/-- The auction after a round, when the round is accepted. -/
def afterRound (cfg : Config) (a : SealedBidAuction) (r : Round env) (b : Bid) : SealedBidAuction :=
  if opensCommitment env b r.2 then
    afterReveal a r.2 b (affordable cfg b.escrow r.2.quantity r.2.tick)
  else afterVoid env a r.1 r.2.bidId b

/-- What a round needs: a tick in range, and for an opened commitment arithmetic that fits. -/
structure RoundFits (cfg : Config) (bids : List Bid) (a : SealedBidAuction) (r : Round env) : Prop where
  tick : r.2.tick < cfg.numTicks
  escrow : opensCommitment env (bidFor bids r.2) r.2 → EscrowComputes cfg r.2.quantity r.2.tick
  demand : ∀ o, orderOf cfg bids r = some o → a.demandByTick o.tick + o.quantity < 2 ^ 256

lemma orderOf_eq_some {r : Round env} {o : Order} : orderOf cfg bids r = some o ↔
    opensCommitment env (bidFor bids r.2) r.2 ∧
      affordable cfg (bidFor bids r.2).escrow r.2.quantity r.2.tick = true ∧
      o = ⟨r.2.quantity, r.2.tick⟩ := by
  unfold orderOf
  rw [Option.ite_none_right_eq_some, Option.some.injEq, and_assoc]
  constructor
  · rintro ⟨ho, ha, heq⟩
    exact ⟨ho, ha, heq.symm⟩
  · rintro ⟨ho, ha, heq⟩
    exact ⟨ho, ha, heq.symm⟩

lemma processRound_eq_ok {r : Round env} {rounds : List (Round env)}
    (h : Queued cfg bids a (r :: rounds)) : a.processReveals env r.1 [r.2] = .ok a' ↔
      RoundFits cfg bids a r ∧ a' = afterRound cfg a r (bidFor bids r.2) := by
  obtain ⟨hslot, hbidder, hfresh⟩ := h.slot r List.mem_cons_self
  have hproc := h.processed
  have hvoid := h.voided
  rw [List.length_cons] at hproc hvoid
  rw [processReveals_singleton, processOne_eq_ok, h.config]
  unfold afterRound
  constructor
  · rintro ⟨-, b, hp, hcase⟩
    have hb : b = bidFor bids r.2 := by
      rw [← Option.some.injEq, ← hp.found, hslot]
    subst hb
    have htick : r.2.tick < cfg.numTicks := h.config ▸ hp.tick_lt
    rcases hcase with ⟨hc, -, rfl⟩ | ⟨hc, eligible, hel, hd, rfl⟩
    · refine ⟨⟨htick, fun ho => absurd ho hc, fun o ho => absurd (orderOf_eq_some.mp ho).1 hc⟩, ?_⟩
      rw [if_neg hc]
    · obtain ⟨hcomp, rfl⟩ := isEligible_eq_ok.mp hel
      refine ⟨⟨htick, fun _ => hcomp, fun o ho => ?_⟩, ?_⟩
      · obtain ⟨-, haff, rfl⟩ := orderOf_eq_some.mp ho
        exact hd haff
      · rw [if_pos hc]
  · rintro ⟨hfit, rfl⟩
    refine ⟨h.state, bidFor bids r.2, ⟨hslot, hbidder, hfresh, ?_, h.proof r List.mem_cons_self, ?_⟩, ?_⟩
    · rw [h.config]
      exact hfit.tick
    · omega
    · by_cases hc : opensCommitment env (bidFor bids r.2) r.2
      · right
        rw [if_pos hc]
        refine ⟨hc, _, isEligible_eq_ok.mpr ⟨hfit.escrow hc, rfl⟩, fun haff => ?_, rfl⟩
        exact hfit.demand _ (orderOf_eq_some.mpr ⟨hc, haff, rfl⟩)
      · left
        rw [if_neg hc]
        exact ⟨hc, by omega, rfl⟩

lemma demandAt_single {r : Round env} {o : Order} (ho : orderOf cfg bids r = some o) :
    demandAt (ordersOf cfg bids [r]) o.tick = o.quantity := by
  unfold ordersOf demandAt
  rw [List.filterMap_cons, ho]
  simp [quantityWhere_cons]

lemma single_demand_fits {r : Round env} (hfit : RoundFits cfg bids a r)
    (hd : ∀ t, a.demandByTick t < 2 ^ 256) (t : Nat) :
    a.demandByTick t + demandAt (ordersOf cfg bids [r]) t < 2 ^ 256 := by
  cases ho : orderOf cfg bids r with
  | none =>
    have hnone : ordersOf cfg bids [r] = [] := by
      unfold ordersOf
      rw [List.filterMap_cons, ho]
      rfl
    rw [hnone]
    exact hd t
  | some o =>
    by_cases ht : o.tick = t
    · rw [← ht, demandAt_single ho]
      exact hfit.demand o ho
    · have hzero : demandAt (ordersOf cfg bids [r]) t = 0 := by
        unfold ordersOf demandAt
        rw [List.filterMap_cons, ho]
        simp [quantityWhere_cons, ht]
      rw [hzero]
      exact hd t

lemma afterRound_tallies (cfg : Config) (bids : List Bid) (a : SealedBidAuction) (r : Round env) : let a' := afterRound cfg a r (bidFor bids r.2)
    a'.processedBidCount = a.processedBidCount + 1 ∧
      a'.voidedBidCount = a.voidedBidCount + (voidTimes bids [r]).length ∧
      a'.lastVoidAt = (voidTimes bids [r]).getLastD a.lastVoidAt ∧
      ∀ t, a'.demandByTick t = a.demandByTick t + demandAt (ordersOf cfg bids [r]) t := by
  dsimp only
  unfold afterRound voidTimes ordersOf
  by_cases hc : opensCommitment env (bidFor bids r.2) r.2
  · rw [if_pos hc]
    refine ⟨rfl, by simp [hc, afterReveal], by simp [hc, afterReveal], fun t => ?_⟩
    by_cases haff : affordable cfg (bidFor bids r.2).escrow r.2.quantity r.2.tick = true
    · have ho : orderOf cfg bids r = some ⟨r.2.quantity, r.2.tick⟩ := orderOf_eq_some.mpr ⟨hc, haff, rfl⟩
      unfold afterReveal
      rw [haff]
      by_cases ht : t = r.2.tick
      · subst ht
        simp [ho, demandAt, quantityWhere_cons]
      · simp [ho, Ne.symm ht, demandAt, quantityWhere_cons, Function.update_of_ne ht]
    · have ho : orderOf cfg bids r = none := by
        unfold orderOf
        rw [if_neg (fun hboth => haff hboth.2)]
      simp [ho, haff, afterReveal, demandAt]
  · have ho : orderOf cfg bids r = none := by
      unfold orderOf
      rw [if_neg (fun hboth => hc hboth.1)]
    rw [if_neg hc]
    exact ⟨rfl, by simp [hc, afterVoid], by simp [hc, afterVoid], fun t => by
      simp [ho, afterVoid, demandAt]⟩

lemma Queued.next {r : Round env} {rounds : List (Round env)} (h : Queued cfg bids a (r :: rounds))
    (hok : a.processReveals env r.1 [r.2] = .ok a') : Queued cfg bids a' rounds := by
  obtain ⟨hs, hsame⟩ := processReveals_sameHoldings hok
  obtain ⟨-, rfl⟩ := (processRound_eq_ok h).mp hok
  obtain ⟨hp, hv, -, -⟩ := afterRound_tallies cfg bids a r
  have hproc := h.processed
  have hvoid := h.voided
  have hnd := h.nodup
  rw [List.length_cons] at hproc hvoid
  rw [List.map_cons, List.nodup_cons] at hnd
  have hvlen : (voidTimes bids [r]).length ≤ 1 := by
    unfold voidTimes
    rw [List.length_map]
    exact List.length_filter_le _ _
  have hbids : ∀ j, j ≠ r.2.bidId →
      (afterRound cfg a r (bidFor bids r.2)).bids[j]? = a.bids[j]? := by
    intro j hj
    unfold afterRound
    split_ifs
    · exact List.getElem?_set_ne (Ne.symm hj)
    · exact List.getElem?_set_ne (Ne.symm hj)
  refine ⟨hsame.state.trans hs, hsame.config.trans h.config, hnd.2, fun x hx => ?_, fun x hx => ?_, ?_, ?_⟩
  · have hne : x.2.bidId ≠ r.2.bidId := by
      intro heq
      exact hnd.1 (heq ▸ List.mem_map_of_mem hx)
    rw [hbids _ hne]
    exact h.slot x (List.mem_cons_of_mem r hx)
  · rw [hsame.revealRoot]
    exact h.proof x (List.mem_cons_of_mem r hx)
  · rw [hp]
    omega
  · rw [hv]
    omega

lemma ordersOf_cons (cfg : Config) (bids : List Bid) (r : Round env) (rounds : List (Round env)) (t : Nat) :
    demandAt (ordersOf cfg bids (r :: rounds)) t =
      demandAt (ordersOf cfg bids [r]) t + demandAt (ordersOf cfg bids rounds) t := by
  have happ : ordersOf cfg bids (r :: rounds) = ordersOf cfg bids [r] ++ ordersOf cfg bids rounds := by
    unfold ordersOf
    rw [← List.filterMap_append]
    rfl
  rw [happ]
  exact quantityWhere_append _ _ _

lemma voidTimes_cons (bids : List Bid) (r : Round env) (rounds : List (Round env)) :
    voidTimes bids (r :: rounds) = voidTimes bids [r] ++ voidTimes bids rounds := by
  unfold voidTimes
  rw [← List.map_append, ← List.filter_append]
  rfl

lemma getLastD_append (xs ys : List Nat) (d : Nat) :
    (xs ++ ys).getLastD d = ys.getLastD (xs.getLastD d) := by
  induction xs generalizing d with
  | nil => rfl
  | cons x xs ih => rw [List.cons_append, List.getLastD_cons, List.getLastD_cons, ih]

/-- A run over the rounds adds up what each of them adds. -/
theorem processAll_tallies {rounds : List (Round env)} (h : Queued cfg bids a rounds)
    (hok : processAll a rounds = .ok a') :
    a'.processedBidCount = a.processedBidCount + rounds.length ∧
      a'.voidedBidCount = a.voidedBidCount + (voidTimes bids rounds).length ∧
      a'.lastVoidAt = (voidTimes bids rounds).getLastD a.lastVoidAt ∧
      ∀ t, a'.demandByTick t = a.demandByTick t + demandAt (ordersOf cfg bids rounds) t := by
  unfold processAll at hok
  induction rounds generalizing a with
  | nil =>
    rw [List.foldlM_nil, pure_eq_ok] at hok
    subst hok
    exact ⟨rfl, rfl, rfl, fun t => rfl⟩
  | cons r rounds ih =>
    obtain ⟨a₁, ha₁, hrest⟩ := (foldlM_cons_eq_ok _).mp hok
    obtain ⟨hp, hv, hl, hd⟩ := ih (h.next ha₁) hrest
    obtain ⟨-, rfl⟩ := (processRound_eq_ok h).mp ha₁
    obtain ⟨hp₁, hv₁, hl₁, hd₁⟩ := afterRound_tallies cfg bids a r
    refine ⟨?_, ?_, ?_, fun t => ?_⟩
    · rw [hp, hp₁, List.length_cons]
      omega
    · rw [hv, hv₁, voidTimes_cons bids r rounds, List.length_append]
      omega
    · rw [hl, hl₁, voidTimes_cons bids r rounds, getLastD_append]
    · rw [hd t, hd₁ t, ordersOf_cons cfg bids r rounds]
      omega

/-- The rounds are all accepted exactly when every one is well formed and no bucket overflows. -/
theorem processAll_succeeds_iff {rounds : List (Round env)} (h : Queued cfg bids a rounds)
    (hd : ∀ t, a.demandByTick t < 2 ^ 256) : Succeeds (processAll a rounds) ↔
      (∀ r ∈ rounds, r.2.tick < cfg.numTicks ∧
        (opensCommitment env (bidFor bids r.2) r.2 → EscrowComputes cfg r.2.quantity r.2.tick)) ∧
      ∀ t, a.demandByTick t + demandAt (ordersOf cfg bids rounds) t < 2 ^ 256 := by
  induction rounds generalizing a with
  | nil =>
    have hdone : Succeeds (processAll a ([] : List (Round env))) := ⟨a, rfl⟩
    exact ⟨fun _ => ⟨fun r hr => absurd hr List.not_mem_nil, hd⟩, fun _ => hdone⟩
  | cons r rounds ih =>
    obtain ⟨-, -, -, hd₁⟩ := afterRound_tallies cfg bids a r
    have hadd := fun t => ordersOf_cons cfg bids r rounds t
    constructor
    · rintro ⟨a', hok⟩
      obtain ⟨a₁, ha₁, hrest⟩ := (foldlM_cons_eq_ok _).mp hok
      have hnext := h.next ha₁
      obtain ⟨hfit, rfl⟩ := (processRound_eq_ok h).mp ha₁
      have hd' : ∀ t, (afterRound cfg a r (bidFor bids r.2)).demandByTick t < 2 ^ 256 := by
        intro t
        rw [hd₁ t]
        exact single_demand_fits hfit hd t
      obtain ⟨hall, hsum⟩ := (ih hnext hd').mp ⟨a', hrest⟩
      refine ⟨fun x hx => ?_, fun t => ?_⟩
      · rcases List.mem_cons.mp hx with rfl | hmem
        · exact ⟨hfit.tick, hfit.escrow⟩
        · exact hall x hmem
      · have := hsum t
        rw [hd₁ t] at this
        rw [hadd t]
        omega
    · rintro ⟨hall, hsum⟩
      have hr := hall r List.mem_cons_self
      have hfit : RoundFits cfg bids a r := by
        refine ⟨hr.1, hr.2, fun o ho => ?_⟩
        have := hsum o.tick
        rw [hadd o.tick, demandAt_single ho] at this
        omega
      have ha₁ := (processRound_eq_ok h).mpr ⟨hfit, rfl⟩
      have hd' : ∀ t, (afterRound cfg a r (bidFor bids r.2)).demandByTick t < 2 ^ 256 := by
        intro t
        have := hsum t
        rw [hadd t] at this
        rw [hd₁ t]
        omega
      have hrest := (ih (h.next ha₁) hd').mpr ⟨fun x hx => hall x (List.mem_cons_of_mem r hx), fun t => by
        have := hsum t
        rw [hadd t] at this
        rw [hd₁ t]
        omega⟩
      obtain ⟨a', ha'⟩ := hrest
      exact ⟨a', (foldlM_cons_eq_ok _).mpr ⟨_, ha₁, ha'⟩⟩

end Rounds

/-! ### Settlement arithmetic never overflows -/

section Arithmetic

variable {cfg : Config} {bids : List Bid}

lemma counted_price {b : Bid} (hc : counts cfg b = true) :
    cfg.reservePrice + b.tick * cfg.tickSize < 2 ^ 256 ∧ 10 ^ cfg.saleDecimals < 2 ^ 256 ∧
      b.quantity * (cfg.reservePrice + b.tick * cfg.tickSize) ≤ 10 ^ cfg.saleDecimals * b.escrow := by
  obtain ⟨-, -, hel⟩ := counts_iff.mp hc
  obtain ⟨needed, hneeded, hle⟩ := isEligible_true hel
  obtain ⟨hp, hu, -, heq⟩ := escrowFor_eq_ok.mp hneeded
  refine ⟨hp, hu, ?_⟩
  have hunit : 0 < 10 ^ cfg.saleDecimals := by positivity
  have hceil := Nat.lt_mul_div_succ
    (b.quantity * (cfg.reservePrice + b.tick * cfg.tickSize) + 10 ^ cfg.saleDecimals - 1) hunit
  rw [heq, Nat.mul_add (10 ^ cfg.saleDecimals) needed 1, Nat.mul_one] at hceil
  have hmul := Nat.mul_le_mul_left (10 ^ cfg.saleDecimals) hle
  omega

lemma demandFrom_mul_le {t price : Nat} (hprice : price ≤ cfg.reservePrice + t * cfg.tickSize) :
    demandFrom (book cfg bids) t * price ≤ 10 ^ cfg.saleDecimals * escrowed bids := by
  unfold demandFrom escrowed
  induction bids with
  | nil => simp [book]
  | cons b bids ih =>
    rw [List.map_cons, List.sum_cons, Nat.mul_add]
    unfold book at ih ⊢
    rw [List.filterMap_cons]
    unfold standing at ih ⊢
    by_cases hc : counts cfg b
    · simp only [hc, if_true]
      rw [quantityWhere_cons, Nat.add_mul]
      by_cases ht : t ≤ b.tick
      · have hpaid := (counted_price hc).2.2
        have hup : price ≤ cfg.reservePrice + b.tick * cfg.tickSize := by
          have := Nat.mul_le_mul_right cfg.tickSize ht
          omega
        have hq := Nat.mul_le_mul_left b.quantity hup
        rw [if_pos (by simpa using ht)]
        dsimp only
        omega
      · rw [if_neg (by simpa using ht)]
        omega
    · simp only [hc, Bool.false_eq_true, if_false]
      omega

lemma sold_le_demandFrom : sold (book cfg bids) cfg.totalSupply ≤
    demandFrom (book cfg bids) (clearsAt cfg bids) := by
  unfold sold clearsAt
  rcases clearingTick_covers (book cfg bids) cfg.totalSupply cfg.numTicks with hcov | ⟨hzero, -⟩
  · exact (min_le_left _ _).trans hcov
  · rw [hzero]
    exact min_le_right _ _

lemma exists_counted_above {t : Nat} (h : demandFrom (book cfg bids) t ≠ 0) :
    ∃ b ∈ bids, counts cfg b = true ∧ t ≤ b.tick := by
  by_contra hnone
  push Not at hnone
  apply h
  apply demandFrom_eq_zero
  intro o ho
  obtain ⟨b, hb, hc, rfl⟩ := mem_book.mp ho
  exact hnone b hb hc

/-- With the escrows backed by a word-sized balance, the settlement's arithmetic fits. -/
theorem settlement_fits (hcfg : Accepted cfg) (hsome : demandFrom (book cfg bids) 0 ≠ 0)
    (hescrow : escrowed bids < 2 ^ 256) : SettlementFits cfg (clearingFor cfg bids) := by
  have hsold : sold (book cfg bids) cfg.totalSupply ≤
      demandFrom (book cfg bids) (clearsAt cfg bids) := sold_le_demandFrom
  have hsold_pos : sold (book cfg bids) cfg.totalSupply ≠ 0 := by
    have := hcfg.supply_pos
    unfold sold
    omega
  obtain ⟨b, -, hc, ht⟩ := exists_counted_above
    (show demandFrom (book cfg bids) (clearsAt cfg bids) ≠ 0 by omega)
  obtain ⟨hp, hu, -⟩ := counted_price hc
  have hup := Nat.mul_le_mul_right cfg.tickSize ht
  have hgross : grossOf cfg (clearingFor cfg bids) < 2 ^ 256 := by
    rw [grossOf_clearingFor hcfg hsome]
    have hmul := Nat.mul_le_mul_right (priceFor cfg bids) hsold
    have hpaid : demandFrom (book cfg bids) (clearsAt cfg bids) * priceFor cfg bids ≤ _ :=
      demandFrom_mul_le (le_refl (priceFor cfg bids))
    have hle := Nat.div_le_of_le_mul (hmul.trans hpaid)
    omega
  refine ⟨?_, hu, hgross, ?_⟩
  · rw [priceOf_clearingFor hsome]
    unfold priceFor
    omega
  · unfold feeOf
    have hbps := Nat.mul_le_mul_left (grossOf cfg (clearingFor cfg bids)) hcfg.fee_le
    have hle : grossOf cfg (clearingFor cfg bids) * cfg.protocolFeeBps / 10000 ≤
        grossOf cfg (clearingFor cfg bids) := by
      apply Nat.div_le_of_le_mul
      omega
    omega

lemma finalize_succeeds_iff {env : Env} {a : SealedBidAuction} (ht : Tallied a)
    (hs : a.state = .revealing) (hp : a.processedBidCount = a.bids.length)
    (hescrow : escrowed a.bids < 2 ^ 256) (msg : Msg env) :
    Succeeds (SealedBidAuction.finalize env a msg) ↔ a.WindowPassed msg.timestamp ∧
      demandFrom (book a.config a.bids) (clearsAt a.config a.bids) < 2 ^ 256 := by
  constructor
  · rintro ⟨a', ha'⟩
    obtain ⟨-, hw, -, hfit, -⟩ := ht.finalize_eq_ok.mp ha'
    exact ⟨hw, hfit⟩
  · rintro ⟨hw, hfit⟩
    by_cases hsome : demandFrom (book a.config a.bids) 0 = 0
    · exact ⟨_, ht.finalize_eq_ok.mpr ⟨hs, hw, hp, hfit, Or.inr ⟨hsome, rfl⟩⟩⟩
    · have harith := settlement_fits ht.accepted hsome hescrow
      exact ⟨_, ht.finalize_eq_ok.mpr ⟨hs, hw, hp, hfit, Or.inl ⟨hsome, harith, rfl⟩⟩⟩

end Arithmetic

/-! ### The whole reveal -/

/-- Each committed bid is presented once, with the plaintext attested for it and a valid proof. -/
structure Presented (env : Env) (attested : List Plaintext) (a : SealedBidAuction)
    (rounds : List (Round env)) : Prop where
  each_bid : (rounds.map (fun r => r.2.bidId)).Perm (List.range a.bids.length)
  plaintext : ∀ r ∈ rounds, attested[r.2.bidId]? = some ⟨r.2.quantity, r.2.tick, r.2.salt⟩
  proof : ∀ r ∈ rounds, climb env.keccak256
    (revealLeaf env r.2.bidId r.2.quantity r.2.tick r.2.salt) r.2.proof = a.revealRoot

/-- Every round is accepted, and once the dispute window has passed anyone can finalize. -/
def Recovers (env : Env) (a : SealedBidAuction) (rounds : List (Round env)) : Prop :=
  ∃ a', processAll a rounds = .ok a' ∧ ∀ msg : Msg env,
    (0 < a'.voidedBidCount → a'.lastVoidAt + a'.config.voidDisputeWindow ≤ msg.timestamp) →
      Succeeds (a'.finalize env msg)

/-- The conditions on the presented plaintexts. -/
structure Recoverable (env : Env) (cfg : Config) (bids : List Bid) (rounds : List (Round env)) : Prop where
  ticks : ∀ r ∈ rounds, r.2.tick < cfg.numTicks
  escrows : ∀ r ∈ rounds, opensCommitment env (bidFor bids r.2) r.2 →
    EscrowComputes cfg r.2.quantity r.2.tick
  buckets : ∀ t, demandAt (ordersOf cfg bids rounds) t < 2 ^ 256
  scan : demandFrom (ordersOf cfg bids rounds)
    (clearingTick (ordersOf cfg bids rounds) cfg.totalSupply cfg.numTicks) < 2 ^ 256
  window : ∀ t, (voidTimes bids rounds).getLast? = some t → t + cfg.voidDisputeWindow < 2 ^ 64

section Reveal

variable {env : Env}

lemma SameHoldings.escrowed {a a' : SealedBidAuction} (h : SameHoldings a a') :
    escrowed a'.bids = escrowed a.bids := by
  have hview (bids : List Bid) : Peal.Auction.escrowed bids =
      ((bids.map holding).map (fun x => x.2.2.1)).sum := by
    rw [List.map_map]
    rfl
  rw [hview, hview, h.holdings]

lemma processAll_keeps {a a' : SealedBidAuction} {rounds : List (Round env)} (ht : Tallied a)
    (hok : processAll a rounds = .ok a') : Tallied a' ∧ SameHoldings a a' := by
  refine foldlM_invariant (P := fun x => Tallied x ∧ SameHoldings a x) _ ?_ ⟨ht, .refl a⟩ hok
  intro x r x' _ hx hstep
  exact ⟨hx.1.processReveals hstep, hx.2.trans (processReveals_sameHoldings hstep).2⟩

lemma countP_unrevealed {bids : List Bid} (h : ∀ b ∈ bids, b.revealed = false) :
    bids.countP Bid.revealed = 0 := by
  rw [List.countP_eq_zero]
  intro b hb
  rw [h b hb]
  exact Bool.false_ne_true

lemma Tallied.queued {a : SealedBidAuction} (ht : Tallied a) (hs : a.state = .revealing)
    (hfresh : ∀ b ∈ a.bids, b.revealed = false) (hvoid : a.voidedBidCount = 0) {rounds : List (Round env)}
    (hperm : (rounds.map (fun r => r.2.bidId)).Perm (List.range a.bids.length))
    (hproof : ∀ r ∈ rounds, climb env.keccak256
      (revealLeaf env r.2.bidId r.2.quantity r.2.tick r.2.salt) r.2.proof = a.revealRoot) :
    Queued a.config a.bids a rounds ∧ rounds.length = a.bids.length := by
  have hlen : rounds.length = a.bids.length := by
    have := hperm.length_eq
    rwa [List.length_map, List.length_range] at this
  have hcount := ht.length_lt
  refine ⟨⟨hs, rfl, hperm.nodup_iff.mpr List.nodup_range, fun r hr => ?_, hproof, ?_, ?_⟩, hlen⟩
  · have hmem := hperm.mem_iff.mp (List.mem_map_of_mem (f := fun r : Round env => r.2.bidId) hr)
    have hlt := List.mem_range.mp hmem
    have hfound : a.bids[r.2.bidId]? = some (bidFor a.bids r.2) := by
      unfold bidFor
      rw [List.getD_eq_getElem?_getD, List.getElem?_eq_getElem hlt]
      rfl
    have hin := List.mem_of_getElem? hfound
    exact ⟨hfound, ht.bidder_ne_zero _ hin, hfresh _ hin⟩
  · rw [ht.processed, countP_unrevealed hfresh]
    omega
  · rw [hvoid]
    omega

lemma Tallied.no_demand {a : SealedBidAuction} (ht : Tallied a) (hfresh : ∀ b ∈ a.bids, b.revealed = false)
    (t : Nat) : a.demandByTick t = 0 := by
  have hempty : book a.config a.bids = [] := by
    unfold book
    rw [List.filterMap_eq_nil_iff]
    intro b hb
    exact Tallied.standing_unrevealed (hfresh b hb)
  rw [ht.demand t, hempty]
  rfl

/-- The auction right after its root is registered: nothing revealed, everything backed. -/
structure FreshlyRegistered (env : Env) (w : World) : Prop where
  tallied : Tallied w.auction
  state : w.auction.state = .revealing
  unrevealed : ∀ b ∈ w.auction.bids, b.revealed = false
  unvoided : w.auction.voidedBidCount = 0
  backed : escrowed w.auction.bids ≤ w.quote.balanceOf env.self

lemma FreshlyRegistered.presents_iff {w : World} (h : FreshlyRegistered env w)
    (hbal : w.quote.balanceOf env.self < 2 ^ 256) {attested : List Plaintext}
    {rounds : List (Round env)} (hp : Presented env attested w.auction rounds) :
    Recovers env w.auction rounds ↔ Recoverable env w.auction.config w.auction.bids rounds := by
  obtain ⟨hq, hlen⟩ := h.tallied.queued h.state h.unrevealed h.unvoided hp.each_bid hp.proof
  have hzero := h.tallied.no_demand h.unrevealed
  have hsucc := processAll_succeeds_iff hq (fun t => by rw [hzero t]; positivity)
  simp only [hzero, Nat.zero_add] at hsucc
  -- once all rounds are accepted, the counters and the book are those of the rounds
  have hafter : ∀ a', processAll w.auction rounds = .ok a' → ∀ msg : Msg env,
      (Succeeds (a'.finalize env msg) ↔ a'.WindowPassed msg.timestamp ∧
        demandFrom (ordersOf w.auction.config w.auction.bids rounds)
          (clearingTick (ordersOf w.auction.config w.auction.bids rounds) w.auction.config.totalSupply
            w.auction.config.numTicks) < 2 ^ 256) := by
    intro a' hok msg
    obtain ⟨ht', hsame⟩ := processAll_keeps h.tallied hok
    obtain ⟨hproc, -, -, hd⟩ := processAll_tallies hq hok
    have hdemand : ∀ t, demandAt (book a'.config a'.bids) t =
        demandAt (ordersOf w.auction.config w.auction.bids rounds) t := by
      intro t
      rw [← ht'.demand t, hd t, hzero t, Nat.zero_add]
    have hdone : a'.processedBidCount = a'.bids.length := by
      have hbids := congrArg List.length hsame.holdings
      rw [List.length_map, List.length_map] at hbids
      rw [hproc, h.tallied.processed, countP_unrevealed h.unrevealed, hbids, hlen, Nat.zero_add]
    have hescrow : escrowed a'.bids < 2 ^ 256 := by
      rw [hsame.escrowed]
      exact lt_of_le_of_lt h.backed hbal
    rw [finalize_succeeds_iff ht' (hsame.state.trans h.state) hdone hescrow msg]
    unfold clearsAt
    rw [hsame.config] at hdemand ⊢
    rw [clearingTick_congr _ _ _ hdemand, demandFrom_congr hdemand]
  constructor
  · rintro ⟨a', hok, hfin⟩
    obtain ⟨hall, hsum⟩ := hsucc.mp ⟨a', hok⟩
    obtain ⟨-, hv, hl, -⟩ := processAll_tallies hq hok
    obtain ⟨-, hsame⟩ := processAll_keeps h.tallied hok
    let late : Msg env := ⟨env.self + 1, a'.lastVoidAt + a'.config.voidDisputeWindow, 0, by omega, by omega⟩
    obtain ⟨hw, hscan⟩ := (hafter a' hok late).mp (hfin late (fun _ => le_rfl))
    refine ⟨fun r hr => (hall r hr).1, fun r hr => (hall r hr).2, hsum, hscan, fun t ht => ?_⟩
    have hpos : 0 < a'.voidedBidCount := by
      have hne : voidTimes w.auction.bids rounds ≠ [] := by
        intro hnil
        rw [hnil] at ht
        cases ht
      have := List.length_pos_of_ne_nil hne
      omega
    have hlt := (hw hpos).1
    rw [hl, List.getLastD_eq_getLast?, ht, hsame.config] at hlt
    exact hlt
  · intro hc
    obtain ⟨a', hok⟩ := hsucc.mpr ⟨fun r hr => ⟨hc.ticks r hr, hc.escrows r hr⟩, hc.buckets⟩
    refine ⟨a', hok, fun msg hlate => (hafter a' hok msg).mpr ⟨fun hpos => ⟨?_, hlate hpos⟩, hc.scan⟩⟩
    obtain ⟨-, hv, hl, -⟩ := processAll_tallies hq hok
    obtain ⟨-, hsame⟩ := processAll_keeps h.tallied hok
    rw [h.unvoided, Nat.zero_add] at hv
    have hne : voidTimes w.auction.bids rounds ≠ [] := by
      intro hnil
      rw [hnil] at hv
      rw [hv] at hpos
      exact absurd hpos (Nat.lt_irrefl 0)
    obtain ⟨t, ht⟩ := Option.isSome_iff_exists.mp (List.getLast?_isSome.mpr hne)
    rw [hl, List.getLastD_eq_getLast?, ht, hsame.config]
    exact hc.window t ht

lemma step_settled {w w' : World} {c : Msg env × Call} (hs : w.auction.state = .settled)
    (hstep : step env w c = .ok w') : w'.auction.state = .settled :=
  ((step_change hstep).terminal (Or.inl hs)).trans hs

lemma solvent_unless_settled {registry : CommitteeRegistry} {cfg : Config} {a : SealedBidAuction}
    (ha : initializeAuction registry cfg = .ok a) (sale quote : ERC20)
    (calls : List (Msg env × Call)) :
    let w := exec (step env) ⟨a, registry, sale, quote⟩ calls
    Invariant env w ∧ (w.auction.state ≠ .settled → Solvent env w) := by
  have hinit : Invariant env ⟨a, registry, sale, quote⟩ ∧ Solvent env ⟨a, registry, sale, quote⟩ :=
    invariant_initial ha sale quote
  refine exec_invariant (I := fun w => Invariant env w ∧ (w.auction.state ≠ .settled → Solvent env w))
    (step env) (fun w c w' hw hstep => ?_) ⟨hinit.1, fun _ => hinit.2⟩ calls
  refine ⟨step_invariant hw.1 hstep, fun hs' => ?_⟩
  have hs : w.auction.state ≠ .settled := fun hs => hs' (step_settled hs hstep)
  obtain ⟨msg, c⟩ := c
  refine (step_keeps hw.1 hstep fun hc hset => ?_).2 (hw.2 hs)
  subst hc
  have ht := hw.1.tallied
  obtain ⟨a', ha', rfl⟩ := World.onAuction_ok hstep
  obtain ⟨-, -, -, -, ⟨-, -, rfl⟩ | ⟨hnone, -⟩⟩ := ht.finalize_eq_ok.mp ha'
  · exact hs' rfl
  · exact hset.demanded hnone

lemma freshlyRegistered {registry : CommitteeRegistry} {cfg : Config} {a : SealedBidAuction}
    (ha : initializeAuction registry cfg = .ok a) (sale quote : ERC20) (calls : List (Msg env × Call))
    {msg : Msg env} {root bidCount : Nat} {signatures : List (List Nat)} {w : World}
    (hreg : step env (exec (step env) ⟨a, registry, sale, quote⟩ calls)
      (msg, .registerRevealRoot root bidCount signatures) = .ok w) :
    FreshlyRegistered env w ∧ w.auction.revealRoot = root := by
  obtain ⟨hstate, hroot, hvoid, hfresh⟩ := registered_fresh ha sale quote calls hreg
  have hrun := solvent_unless_settled ha sale quote
    (calls ++ [(msg, .registerRevealRoot root bidCount signatures)])
  rw [exec_concat, advance_of_ok _ hreg] at hrun
  obtain ⟨hinv, hsol⟩ := hrun
  have hunsettled : w.auction.state ≠ .settled := by
    rw [hstate]
    decide
  have hunclaimed := (hinv.running (notTerminal hstate (by decide))).1
  have hback := hsol hunsettled
  unfold Solvent at hback
  rw [quoteOwed_unsettled hunsettled, sumWhere_all _ (unclaimed_all hunclaimed)] at hback
  exact ⟨⟨hinv.tallied, hstate, fun b hb => (hfresh b hb).1, hvoid, hback⟩, hroot⟩

lemma presented_exists {a : SealedBidAuction} {attested : List Plaintext} (msg : Msg env)
    (versions : Nat → Nat) (h : Attests env attested a.revealRoot)
    (hlen : attested.length = a.bids.length) :
    ∃ rounds : List (Round env), Presented env attested a rounds := by
  have hentry : ∀ i, ∃ e : RevealEntry, e.bidId = i ∧ (i < a.bids.length →
      attested[i]? = some ⟨e.quantity, e.tick, e.salt⟩ ∧
        climb env.keccak256 (revealLeaf env i e.quantity e.tick e.salt) e.proof = a.revealRoot) := by
    intro i
    by_cases hi : i < a.bids.length
    · have hget := List.getElem?_eq_getElem (l := attested) (show i < attested.length by omega)
      obtain ⟨proof, hproof⟩ := h.exists_proof hget
      exact ⟨⟨i, attested[i].quantity, attested[i].tick, attested[i].salt, versions i, proof⟩, rfl,
        fun _ => ⟨hget, hproof⟩⟩
    · exact ⟨⟨i, 0, 0, 0, 0, []⟩, rfl, fun hlt => absurd hlt hi⟩
  choose entry hid hentry using hentry
  refine ⟨(List.range a.bids.length).map (fun i => (msg, entry i)), ?_, fun r hr => ?_, fun r hr => ?_⟩
  · rw [List.map_map]
    have hids : (fun r : Round env => r.2.bidId) ∘ (fun i => (msg, entry i)) = id := by
      funext i
      exact hid i
    rw [hids, List.map_id]
  · obtain ⟨i, hi, rfl⟩ := List.mem_map.mp hr
    dsimp only
    rw [hid i]
    exact (hentry i (List.mem_range.mp hi)).1
  · obtain ⟨i, hi, rfl⟩ := List.mem_map.mp hr
    dsimp only
    rw [hid i]
    exact (hentry i (List.mem_range.mp hi)).2

/-- After any run from an accepted configuration that registers the root of the attested plaintexts,
the bids can be presented, and any presentation goes through to settlement exactly when its
plaintexts meet the conditions. -/
theorem recovery_iff {registry : CommitteeRegistry} {cfg : Config} {a : SealedBidAuction}
    (ha : initializeAuction registry cfg = .ok a) (sale quote : ERC20) (calls : List (Msg env × Call))
    {msg : Msg env} {root bidCount : Nat} {signatures : List (List Nat)} {w : World}
    (hreg : step env (exec (step env) ⟨a, registry, sale, quote⟩ calls)
      (msg, .registerRevealRoot root bidCount signatures) = .ok w)
    (hbal : w.quote.balanceOf env.self < 2 ^ 256) {attested : List Plaintext}
    (hroot : Attests env attested root) (hlen : attested.length = w.auction.bids.length) :
    (∃ rounds, Presented env attested w.auction rounds) ∧
      ∀ rounds, Presented env attested w.auction rounds →
        (Recovers env w.auction rounds ↔
          Recoverable env w.auction.config w.auction.bids rounds) := by
  obtain ⟨hfresh, heq⟩ := freshlyRegistered ha sale quote calls hreg
  rw [← heq] at hroot
  exact ⟨presented_exists msg (fun _ => 0) hroot hlen, fun rounds hp => hfresh.presents_iff hbal hp⟩

end Reveal

/-! ### One plaintext off the price grid -/

lemma processAll_ticks {env : Env} {a a' : SealedBidAuction} {rounds : List (Round env)}
    (hok : processAll a rounds = .ok a') : ∀ r ∈ rounds, r.2.tick < a.config.numTicks := by
  unfold processAll at hok
  induction rounds generalizing a with
  | nil => exact fun r hr => absurd hr List.not_mem_nil
  | cons r rounds ih =>
    obtain ⟨a₁, ha₁, hrest⟩ := (foldlM_cons_eq_ok _).mp hok
    intro x hx
    rcases List.mem_cons.mp hx with rfl | hmem
    · obtain ⟨b, hp, -⟩ := processOne_eq_ok.mp (processReveals_singleton.mp ha₁).2
      exact hp.tick_lt
    · have hconfig := (processReveals_sameHoldings ha₁).2.config
      rw [← hconfig]
      exact ih hrest x hmem

/-- The sample sale up to the registration of its root. -/
def sampleClosed : World := exec (step sampleEnv) sampleWorld (sampleCalls.take 5)

def sampleRegister : Msg sampleEnv × Call :=
  (sampleRelay 21, .registerRevealRoot (sampleTree.root pairingHash) 2 [[7]])

theorem recovery_sample : ∃ w, step sampleEnv sampleClosed sampleRegister = .ok w ∧
    (∃ rounds, Presented sampleEnv samplePlaintexts w.auction rounds) ∧
      ∀ rounds, Presented sampleEnv samplePlaintexts w.auction rounds →
        (Recovers sampleEnv w.auction rounds ↔
          Recoverable sampleEnv w.auction.config w.auction.bids rounds) := by
  have hsome : (step sampleEnv sampleClosed sampleRegister).toOption.isSome = true := by decide +kernel
  have hbids : sampleClosed.auction.bids.length = 2 := by decide +kernel
  have hquote : sampleClosed.quote.balanceOf 9 < 2 ^ 256 := by decide +kernel
  cases hreg : step sampleEnv sampleClosed sampleRegister with
  | error e =>
    rw [hreg] at hsome
    exact absurd hsome Bool.false_ne_true
  | ok w =>
    obtain ⟨a', ha', rfl⟩ := World.onAuction_ok hreg
    obtain ⟨-, rfl⟩ := registerRevealRoot_ok ha'
    exact ⟨_, rfl, recovery_iff
      (show initializeAuction sampleRegistry sampleConfig = .ok sampleAuction from rfl) sampleToken
      sampleToken (sampleCalls.take 5) hreg hquote (attests_tree sampleEnv rfl) hbids.symm⟩

/-- The committee decrypted tick 1 for the second bid, and the sale has a single tick. -/
def strayPlaintexts : List Plaintext := [⟨1, 0, 0⟩, ⟨1, 1, 1⟩]

def strayTree : HashTree := .node (.leaf (sampleLeaf 0)) (.leaf (revealLeaf sampleEnv 1 1 1 1))

def strayRegistered : World :=
  exec (step sampleEnv) sampleClosed
    [(sampleRelay 21, .registerRevealRoot (strayTree.root pairingHash) 2 [[7]])]

/-- The attested root is registered, and no presentation of its plaintexts can ever be processed. -/
theorem recovery_fails :
    strayRegistered.auction.state = .revealing ∧ strayRegistered.auction.bids.length = 2 ∧
      Attests sampleEnv strayPlaintexts strayRegistered.auction.revealRoot ∧
      (∃ rounds, Presented sampleEnv strayPlaintexts strayRegistered.auction rounds) ∧
      ∀ rounds, Presented sampleEnv strayPlaintexts strayRegistered.auction rounds →
        ¬Recovers sampleEnv strayRegistered.auction rounds := by
  have hstate : strayRegistered.auction.state = .revealing := by decide +kernel
  have hbids : strayRegistered.auction.bids.length = 2 := by decide +kernel
  have hticks : strayRegistered.auction.config.numTicks = 1 := by decide +kernel
  have hroot : strayRegistered.auction.revealRoot = strayTree.root pairingHash := by decide +kernel
  have hattests : Attests sampleEnv strayPlaintexts strayRegistered.auction.revealRoot := by
    rw [hroot]
    exact attests_tree sampleEnv rfl
  refine ⟨hstate, hbids, hattests, presented_exists (sampleRelay 22) (fun _ => 1) hattests hbids.symm,
    fun rounds hp hrec => ?_⟩
  obtain ⟨a', hok, -⟩ := hrec
  have hone : 1 ∈ rounds.map (fun r => r.2.bidId) := by
    rw [hp.each_bid.mem_iff, hbids]
    decide
  obtain ⟨r, hr, hid⟩ := List.mem_map.mp hone
  have hplain := hp.plaintext r hr
  rw [hid] at hplain
  have htick : r.2.tick = 1 := (congrArg Plaintext.tick (Option.some.inj hplain)).symm
  have hlt := processAll_ticks hok r hr
  omega

end Peal.Auction
