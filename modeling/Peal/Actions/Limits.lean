import Peal.Actions.Quoting
import Peal.Library.Doubles

namespace Peal.Actions
open Peal.Doubles
open Peal.JsStrings (toBigInt)
open Peal.Links (Text Bytes toLowercase)

/-! # The limits of an intent against a venue's proposal -/

/-- A proposal as a venue may have it: its numbers are any that the language has. -/
structure VenueProposal where
  adapterId : Text
  adapterVersion : Text
  quoteId : Text
  buyAmount : Text
  minBuyAmount : Text
  sellAmount : Text
  buyToken : Hex
  sellToken : Hex
  chainId : Double
  approvals : List ProposedApproval
  call : ProposedCall
  expiresAt : Double
  /-- What the route charges in all, in the sell token; it is in the venue's raw answer. -/
  routeFee : Int

/-- The proposal with its numbers rounded, where they are not looked at. -/
def VenueProposal.rounded (v : VenueProposal) : ExecutionProposal where
  adapterId := v.adapterId
  adapterVersion := v.adapterVersion
  quoteId := v.quoteId
  buyAmount := v.buyAmount
  minBuyAmount := v.minBuyAmount
  sellAmount := v.sellAmount
  buyToken := v.buyToken
  sellToken := v.sellToken
  chainId := v.chainId.whole
  approvals := v.approvals
  call := v.call
  expiresAt := v.expiresAt.whole

/-! ### Numbers against whole ones -/

/-- `x === n`. -/
def isNumber : Double → Int → Bool
  | .finite q _, n => q = n
  | _, _ => false

/-- `x <= n`. -/
def atMost : Double → Int → Bool
  | .finite q _, n => q ≤ n
  | .infinite negative, _ => negative
  | .nan, _ => false

/-- `x > n`. -/
def above : Double → Int → Bool
  | .finite q _, n => (n : ℚ) < q
  | .infinite negative, _ => !negative
  | .nan, _ => false

/-! ### The two validators -/

section Validators

variable (printed : Double → Text) (trustedAllowanceTargets : Int → Option (List Text)) (now : Int)

/-- The checks that both adapters make of where a proposal is from and what it is for. -/
def routeIssues (adapterId : Text) (chainMessage : Text) (p : ActionPayload) (v : VenueProposal) : List ValidationIssue :=
  issue (v.adapterId ≠ adapterId) "WRONG_ADAPTER" ("proposal is from ".toList ++ v.adapterId) ++
    issue (isNumber v.chainId p.originChainId = false) "WRONG_CHAIN" chainMessage ++
    issue (eq v.sellToken p.sellToken = false) "WRONG_SELL_TOKEN" ("proposal sells ".toList ++ v.sellToken) ++
    issue (eq v.buyToken p.buyToken = false) "WRONG_BUY_TOKEN" ("proposal buys ".toList ++ v.buyToken)

def expiryIssues (p : ActionPayload) (v : VenueProposal) : List ValidationIssue :=
  issue (atMost v.expiresAt now = true) "QUOTE_EXPIRED" "quote has expired".toList ++
    issue (above v.expiresAt p.deadline = true) "PAST_DEADLINE" "quote outlives the signed deadline".toList

def allowanceTargets (p : ActionPayload) : List Text :=
  ((trustedAllowanceTargets p.originChainId).getD []).map toLowercase

def ZeroEx.validateExecutionProposal (p : ActionPayload) (v : VenueProposal) : ValidationResult :=
  let issues :=
    routeIssues Peal.Actions.ADAPTER_ID ("proposal is for chain ".toList ++ printed v.chainId ++ ", intent is for ".toList ++
      decimal p.originChainId) p v ++
    amountIssues p.toSwapPayload v.rounded ++
    expiryIssues now p v ++
    issue (isAddress v.call.to_ = false) "BAD_TARGET" "call target is not an address".toList ++
    issue (isHexData v.call.data = false) "BAD_CALLDATA" "calldata is not hex".toList ++
    issue (isUint v.call.value = false) "BAD_VALUE" "call value is not a uint".toList ++
    v.approvals.flatMap (approvalIssues (allowanceTargets trustedAllowanceTargets p) p.toSwapPayload)
  ⟨issues.isEmpty, issues⟩

/-- `BigInt` of a number. -/
def numberBigInt (x : Double) : Option Int := if x.isInteger then some x.whole else none

/-- The ceiling that the deployment sets, against the one that the agent signed. -/
def Across.feeIssues (maxFeeBps : Option Double) (p : ActionPayload) : Option (List ValidationIssue) :=
  match maxFeeBps with
  | none => some []
  | some maxFeeBps => do
    let signed ← toBigInt p.sellAmount
    let bps ← numberBigInt maxFeeBps
    let cap := (signed * bps).tdiv 10000
    let maximum ← toBigInt p.maximumFee
    return issue (0 < maximum ∧ maximum < cap) "FEE_TOO_HIGH" ("route fee cap ".toList ++ decimal cap ++
      " exceeds the agent's maximumFee ".toList ++ p.maximumFee)

/-- The comparisons of amounts; the first that is no integer ends them. -/
def Across.amountIssues (maxFeeBps : Option Double) (p : ActionPayload) (v : VenueProposal) : List ValidationIssue :=
  let bad : ValidationIssue := ⟨"BAD_AMOUNT", "proposal amounts are not decimal integers".toList⟩
  match toBigInt v.minBuyAmount, toBigInt p.minimumBuyAmount with
  | some guaranteed, some floor =>
    issue (guaranteed < floor) "BELOW_MINIMUM"
        ("guaranteed ".toList ++ v.minBuyAmount ++ " is under the floor ".toList ++ p.minimumBuyAmount) ++
      match toBigInt v.sellAmount, toBigInt p.sellAmount with
      | some sells, some signed =>
        issue (signed < sells) "WRONG_SELL_AMOUNT"
            ("proposal sells ".toList ++ v.sellAmount ++ ", intent signed ".toList ++ p.sellAmount) ++
          (Across.feeIssues maxFeeBps p).getD [bad]
      | _, _ => [bad]
  | _, _ => [bad]

def Across.validateExecutionProposal (maxFeeBps : Option Double) (p : ActionPayload) (v : VenueProposal) :
    ValidationResult :=
  let issues :=
    routeIssues Across.ADAPTER_ID ("proposal is for chain ".toList ++ printed v.chainId) p v ++
    Across.amountIssues maxFeeBps p v ++
    expiryIssues now p v ++
    v.approvals.flatMap fun a => issue (toLowercase a.spender ∉ allowanceTargets trustedAllowanceTargets p)
      "UNSAFE_ALLOWANCE_TARGET" ("approval spender ".toList ++ a.spender ++ " is not trusted".toList)
  ⟨issues.isEmpty, issues⟩

/-! ### What the agent signed -/

/-- An amount in the text of a payload or proposal is at most another. -/
def AtMost (a b : Text) : Prop := ∃ m n, toBigInt a = some m ∧ toBigInt b = some n ∧ m ≤ n

/-- The proposal keeps to the signed limits. -/
structure WithinLimits (p : ActionPayload) (v : VenueProposal) : Prop where
  chain : ∃ h, v.chainId = .finite p.originChainId h
  sellToken : toLowercase v.sellToken = toLowercase p.sellToken
  buyToken : toLowercase v.buyToken = toLowercase p.buyToken
  guaranteed : AtMost p.minimumBuyAmount v.minBuyAmount
  sells : AtMost v.sellAmount p.sellAmount
  whole : p.allowPartialFill = false → toBigInt v.sellAmount = toBigInt p.sellAmount
  fee : ∃ maximum, toBigInt p.maximumFee = some maximum ∧ v.routeFee ≤ maximum
  expiry : ∃ e h, v.expiresAt = .finite e h ∧ (now : ℚ) < e ∧ e ≤ p.deadline
  approvals : ∀ a ∈ v.approvals, toLowercase a.token = toLowercase p.sellToken ∧
    toLowercase a.spender ∈ allowanceTargets trustedAllowanceTargets p ∧ AtMost a.amount p.sellAmount

/-- What no adapter looks at. -/
structure Unlooked (p : ActionPayload) (v : VenueProposal) : Prop where
  fee : ∃ maximum, toBigInt p.maximumFee = some maximum ∧ v.routeFee ≤ maximum
  expiry : v.expiresAt ≠ .nan

/-- What the bridge's adapter does not look at. -/
structure Across.Unlooked (p : ActionPayload) (v : VenueProposal) : Prop extends Peal.Actions.Unlooked p v where
  whole : p.allowPartialFill = false → toBigInt v.sellAmount = toBigInt p.sellAmount
  approvals : ∀ a ∈ v.approvals, toLowercase a.token = toLowercase p.sellToken ∧ AtMost a.amount p.sellAmount

end Validators

variable {printed : Double → Text} {trustedAllowanceTargets : Int → Option (List Text)} {now : Int}
  {maxFeeBps : Option Double} {p : ActionPayload} {v : VenueProposal}

lemma issue_eq_nil {found : Prop} [Decidable found] {code : String} {message : Text} :
    issue found code message = [] ↔ ¬found := by
  unfold issue
  by_cases h : found
  · rw [if_pos h]
    exact iff_of_false (List.cons_ne_nil _ _) (not_not.mpr h)
  · rw [if_neg h]
    exact iff_of_true rfl h

lemma atMost_iff {a b : Text} {m n : Int} (ha : toBigInt a = some m) (hb : toBigInt b = some n) :
    AtMost a b ↔ m ≤ n := by
  constructor
  · rintro ⟨m', n', ha', hb', hle⟩
    rw [ha] at ha'
    rw [hb] at hb'
    cases ha'
    cases hb'
    exact hle
  · exact fun hle => ⟨m, n, ha, hb, hle⟩

lemma not_atMost {a b : Text} (h : toBigInt a = none ∨ toBigInt b = none) : ¬AtMost a b := by
  rintro ⟨m, n, ha, hb, -⟩
  rcases h with h | h
  · rw [h] at ha
    cases ha
  · rw [h] at hb
    cases hb

lemma eq_iff {a b : Text} : ¬eq a b = false ↔ toLowercase a = toLowercase b := by
  rw [Bool.not_eq_false, eq, beq_iff_eq]

lemma routeIssues_eq_nil {adapterId chainMessage : Text} : routeIssues adapterId chainMessage p v = [] ↔
    v.adapterId = adapterId ∧ (∃ h, v.chainId = .finite p.originChainId h) ∧
      toLowercase v.sellToken = toLowercase p.sellToken ∧ toLowercase v.buyToken = toLowercase p.buyToken := by
  have hchain : ¬isNumber v.chainId p.originChainId = false ↔ ∃ h, v.chainId = .finite p.originChainId h := by
    rw [Bool.not_eq_false]
    constructor
    · intro h
      cases hv : v.chainId with
      | finite q hq =>
        rw [hv, isNumber, decide_eq_true_eq] at h
        subst h
        exact ⟨hq, rfl⟩
      | infinite negative =>
        rw [hv] at h
        cases h
      | nan =>
        rw [hv] at h
        cases h
    · rintro ⟨h, hv⟩
      rw [hv, isNumber, decide_eq_true_eq]
  unfold routeIssues
  simp only [List.append_eq_nil_iff, issue_eq_nil, ne_eq, not_not, eq_iff, hchain, and_assoc]

lemma expiryIssues_eq_nil : expiryIssues now p v = [] ↔ v.expiresAt = .nan ∨
    ∃ e h, v.expiresAt = .finite e h ∧ (now : ℚ) < e ∧ e ≤ p.deadline := by
  unfold expiryIssues
  rw [List.append_eq_nil_iff, issue_eq_nil, issue_eq_nil]
  cases v.expiresAt with
  | finite q h => simp [atMost, above, h]
  | infinite negative => cases negative <;> simp [atMost, above]
  | nan => simp [atMost, above]

lemma amountIssues_eq_nil : amountIssues p.toSwapPayload v.rounded = [] ↔ AtMost v.sellAmount p.sellAmount ∧
    (p.allowPartialFill = false → toBigInt v.sellAmount = toBigInt p.sellAmount) ∧
      AtMost p.minimumBuyAmount v.minBuyAmount := by
  have hsame : v.rounded.sellAmount = v.sellAmount ∧ v.rounded.minBuyAmount = v.minBuyAmount := ⟨rfl, rfl⟩
  unfold amountIssues
  rw [hsame.1, hsame.2]
  cases hsells : toBigInt v.sellAmount with
  | none => exact iff_of_false (List.cons_ne_nil _ _) fun h => not_atMost (.inl hsells) h.1
  | some sells =>
    cases hsigned : toBigInt p.sellAmount with
    | none => exact iff_of_false (List.cons_ne_nil _ _) fun h => not_atMost (.inr hsigned) h.1
    | some signed =>
      dsimp only
      rw [List.append_eq_nil_iff, issue_eq_nil, atMost_iff hsells hsigned, ← and_assoc]
      have hpart : ¬(sells ≠ signed ∧ (p.allowPartialFill = false ∨ signed < sells)) ↔
          sells ≤ signed ∧ (p.allowPartialFill = false → some sells = some signed) := by
        rw [Option.some.injEq]
        cases p.allowPartialFill
        · simp only [true_or, and_true, not_not, forall_const]
          exact ⟨fun h => ⟨h.le, h⟩, fun h => h.2⟩
        · simp only [Bool.true_eq_false, false_or, false_imp_iff, and_true]
          omega
      rw [hpart]
      refine and_congr_right fun _ => ?_
      cases hguaranteed : toBigInt v.minBuyAmount with
      | none => exact iff_of_false (List.cons_ne_nil _ _) (not_atMost (.inr hguaranteed))
      | some guaranteed =>
        cases hfloor : toBigInt p.minimumBuyAmount with
        | none => exact iff_of_false (List.cons_ne_nil _ _) (not_atMost (.inl hfloor))
        | some floor =>
          dsimp only
          rw [issue_eq_nil, not_lt, atMost_iff hfloor hguaranteed]

lemma approvalIssues_eq_nil {trusted : List Text} {a : ProposedApproval} :
    approvalIssues trusted p.toSwapPayload a = [] ↔ toLowercase a.token = toLowercase p.sellToken ∧
      toLowercase a.spender ∈ trusted ∧ AtMost a.amount p.sellAmount := by
  unfold approvalIssues
  rw [List.append_eq_nil_iff, List.append_eq_nil_iff, issue_eq_nil, issue_eq_nil, not_not, eq_iff, and_comm (a := _ ∈ _),
    and_assoc]
  refine and_congr_right fun _ => and_congr_right fun _ => ?_
  cases hamount : toBigInt a.amount with
  | none => exact iff_of_false (List.cons_ne_nil _ _) (not_atMost (.inl hamount))
  | some amount =>
    cases hsigned : toBigInt p.sellAmount with
    | none => exact iff_of_false (List.cons_ne_nil _ _) (not_atMost (.inr hsigned))
    | some signed =>
      dsimp only
      rw [issue_eq_nil, not_lt, atMost_iff hamount hsigned]

lemma Across.amountIssues_eq_nil (h : Across.amountIssues maxFeeBps p v = []) :
    AtMost p.minimumBuyAmount v.minBuyAmount ∧ AtMost v.sellAmount p.sellAmount := by
  unfold Across.amountIssues at h
  split at h
  · rename_i guaranteed floor hguaranteed hfloor
    rw [List.append_eq_nil_iff, issue_eq_nil, not_lt] at h
    refine ⟨⟨floor, guaranteed, hfloor, hguaranteed, h.1⟩, ?_⟩
    have hrest := h.2
    split at hrest
    · rename_i sells signed hsells hsigned
      rw [List.append_eq_nil_iff, issue_eq_nil, not_lt] at hrest
      exact ⟨sells, signed, hsells, hsigned, hrest.1⟩
    · cases hrest
  · cases h

lemma mem_of_flatMap_nil {α β : Type} {as : List α} {f : α → List β} (h : as.flatMap f = []) : ∀ a ∈ as, f a = [] :=
  List.flatMap_eq_nil_iff.mp h

/-- A proposal that an adapter passes keeps to the signed limits exactly when it keeps to those that the adapter does
not look at. -/
theorem limits_enforced (printed : Double → Text) (trustedAllowanceTargets : Int → Option (List Text)) (now : Int)
    (maxFeeBps : Option Double) (p : ActionPayload) (v : VenueProposal) :
    ((ZeroEx.validateExecutionProposal printed trustedAllowanceTargets now p v).ok = true →
      (WithinLimits trustedAllowanceTargets now p v ↔ Unlooked p v)) ∧
    ((Across.validateExecutionProposal printed trustedAllowanceTargets now maxFeeBps p v).ok = true →
      (WithinLimits trustedAllowanceTargets now p v ↔ Across.Unlooked p v)) := by
  have hnumber : v.expiresAt ≠ .nan → (v.expiresAt = .nan ∨
      ∃ e h, v.expiresAt = .finite e h ∧ (now : ℚ) < e ∧ e ≤ p.deadline) →
      ∃ e h, v.expiresAt = .finite e h ∧ (now : ℚ) < e ∧ e ≤ p.deadline := fun hne h => h.resolve_left hne
  have hne : WithinLimits trustedAllowanceTargets now p v → v.expiresAt ≠ .nan := by
    intro hlimits hnan
    obtain ⟨e, h, he, -⟩ := hlimits.expiry
    rw [hnan] at he
    cases he
  constructor
  · intro hok
    unfold ZeroEx.validateExecutionProposal at hok
    simp only [List.isEmpty_iff, List.append_eq_nil_iff, routeIssues_eq_nil, amountIssues_eq_nil, expiryIssues_eq_nil]
      at hok
    obtain ⟨⟨⟨⟨⟨⟨⟨-, hchain, hsell, hbuy⟩, hsells, hwhole, hguaranteed⟩, hexpiry⟩, -⟩, -⟩, -⟩, happrovals⟩ := hok
    refine ⟨fun hlimits => ⟨hlimits.fee, hne hlimits⟩, fun hrest => ?_⟩
    exact ⟨hchain, hsell, hbuy, hguaranteed, hsells, hwhole, hrest.fee, hnumber hrest.expiry hexpiry,
      fun a ha => approvalIssues_eq_nil.mp (mem_of_flatMap_nil happrovals a ha)⟩
  · intro hok
    unfold Across.validateExecutionProposal at hok
    simp only [List.isEmpty_iff, List.append_eq_nil_iff, routeIssues_eq_nil, expiryIssues_eq_nil] at hok
    obtain ⟨⟨⟨⟨-, hchain, hsell, hbuy⟩, hamounts⟩, hexpiry⟩, happrovals⟩ := hok
    obtain ⟨hguaranteed, hsells⟩ := Across.amountIssues_eq_nil hamounts
    constructor
    · intro hlimits
      exact ⟨⟨hlimits.fee, hne hlimits⟩, hlimits.whole, fun a ha =>
        ⟨(hlimits.approvals a ha).1, (hlimits.approvals a ha).2.2⟩⟩
    · intro hrest
      refine ⟨hchain, hsell, hbuy, hguaranteed, hsells, hrest.whole, hrest.fee, hnumber hrest.expiry hexpiry,
        fun a ha => ⟨(hrest.approvals a ha).1, ?_, (hrest.approvals a ha).2⟩⟩
      have htrusted := mem_of_flatMap_nil happrovals a ha
      rwa [issue_eq_nil, not_not] at htrusted

/-! ### Whole numbers -/

/-- A proposal whose numbers are whole. -/
def VenueProposal.ofExecution (e : ExecutionProposal) (routeFee : Int) (hchain : IsDouble e.chainId)
    (hexpiry : IsDouble e.expiresAt) : VenueProposal where
  adapterId := e.adapterId
  adapterVersion := e.adapterVersion
  quoteId := e.quoteId
  buyAmount := e.buyAmount
  minBuyAmount := e.minBuyAmount
  sellAmount := e.sellAmount
  buyToken := e.buyToken
  sellToken := e.sellToken
  chainId := .finite e.chainId hchain
  approvals := e.approvals
  call := e.call
  expiresAt := .finite e.expiresAt hexpiry
  routeFee := routeFee

lemma issue_congr {found found' : Prop} [Decidable found] [Decidable found'] (h : found ↔ found') (code : String)
    (message : Text) : issue found code message = issue found' code message := by
  unfold issue
  by_cases hfound : found
  · rw [if_pos hfound, if_pos (h.mp hfound)]
  · rw [if_neg hfound, if_neg fun h' => hfound (h.mpr h')]

/-- On whole numbers the validator is the one of proposals of integers. -/
theorem validate_ofExecution {cfg : ZeroExConfig} {envelope : IntentEnvelope} {e : ExecutionProposal} {routeFee : Int}
    {hchain : IsDouble e.chainId} {hexpiry : IsDouble e.expiresAt}
    (hprinted : printed (.finite e.chainId hchain) = decimal e.chainId) :
    ZeroEx.validateExecutionProposal printed cfg.trustedAllowanceTargets now p (.ofExecution e routeFee hchain hexpiry) =
      validateExecutionProposal cfg now ⟨envelope, p.toSwapPayload⟩ e := by
  have hchainIssue : ∀ message, issue (isNumber (VenueProposal.ofExecution e routeFee hchain hexpiry).chainId
      p.originChainId = false) "WRONG_CHAIN" message = issue (e.chainId ≠ p.originChainId) "WRONG_CHAIN" message :=
    fun message => by
      refine issue_congr ?_ _ message
      rw [VenueProposal.ofExecution, isNumber, decide_eq_false_iff_not, Int.cast_inj]
  have hlate : ∀ message, issue (atMost (VenueProposal.ofExecution e routeFee hchain hexpiry).expiresAt now = true)
      "QUOTE_EXPIRED" message = issue (e.expiresAt ≤ now) "QUOTE_EXPIRED" message := fun message => by
    refine issue_congr ?_ _ message
    rw [VenueProposal.ofExecution, atMost, decide_eq_true_eq, Int.cast_le]
  have hpast : ∀ message, issue (above (VenueProposal.ofExecution e routeFee hchain hexpiry).expiresAt p.deadline = true)
      "PAST_DEADLINE" message = issue (p.deadline < e.expiresAt) "PAST_DEADLINE" message := fun message => by
    refine issue_congr ?_ _ message
    rw [VenueProposal.ofExecution, above, decide_eq_true_eq, Int.cast_lt]
  unfold ZeroEx.validateExecutionProposal validateExecutionProposal routeIssues expiryIssues
  rw [hchainIssue, hlate, hpast]
  simp only [List.append_assoc]
  rw [show printed (VenueProposal.ofExecution e routeFee hchain hexpiry).chainId = decimal e.chainId from hprinted]
  rfl

/-! ### Proposals for the examples -/

/-- A whole number as the language has it. -/
def double (n : Nat) (h : n < 2 ^ 53) : Double := .finite n (isDouble_natCast h)

def bridgePayload : ActionPayload := { swapPayload with destinationChainId := 10 }

/-- A proposal for the whole amount, with an approval for it. -/
def fairProposal (adapterId : Text) (approved : Text) : VenueProposal where
  adapterId := adapterId
  adapterVersion := "1".toList
  quoteId := "q".toList
  buyAmount := "1000".toList
  minBuyAmount := "950".toList
  sellAmount := "1000".toList
  buyToken := swapPayload.buyToken
  sellToken := swapPayload.sellToken
  chainId := double 1 (by decide)
  approvals := [⟨swapPayload.sellToken, "0x4444444444444444444444444444444444444444".toList, approved,
    ⟨swapPayload.sellToken, "0x".toList, "0".toList, none, none⟩⟩]
  call := ⟨"0x5555555555555555555555555555555555555555".toList, "0x".toList, "0".toList, none, none⟩
  expiresAt := double 230 (by decide)
  routeFee := 4

theorem fair_within_limits : WithinLimits oneChain.trustedAllowanceTargets 200 swapPayload
    (fairProposal ADAPTER_ID "1000".toList) :=
  ((limits_enforced (fun _ => []) oneChain.trustedAllowanceTargets 200 none swapPayload
    (fairProposal ADAPTER_ID "1000".toList)).1 (by decide +kernel)).mpr ⟨⟨10, by decide, by decide⟩, fun h => by cases h⟩

/-- The bridge's adapter passes an approval of more than is sold. -/
theorem overbroad_approval_passes :
    (Across.validateExecutionProposal (fun _ => []) oneChain.trustedAllowanceTargets 200 none bridgePayload
      (fairProposal Across.ADAPTER_ID "5000".toList)).ok = true ∧
    ¬WithinLimits oneChain.trustedAllowanceTargets 200 bridgePayload (fairProposal Across.ADAPTER_ID "5000".toList) := by
  refine ⟨by decide +kernel, fun h => ?_⟩
  have happroval := (h.approvals _ (List.mem_singleton_self _)).2.2
  have hamount : toBigInt "5000".toList = some 5000 := by decide
  have hsigned : toBigInt bridgePayload.sellAmount = some 1000 := by decide
  exact absurd ((atMost_iff hamount hsigned).mp happroval) (by decide)

end Peal.Actions
