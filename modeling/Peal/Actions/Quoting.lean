import Peal.Actions.Lifecycle
import Peal.Actions.ZeroEx

namespace Peal.Actions
open Peal.Fallible Peal.Json
open Peal.JsStrings (toBigInt)
open Peal.Links (Text Bytes toLowercase)

/-! # Asking the venues for quotes -/

structure ActionPayload extends SwapPayload where
  payloadVersion : Int
  destinationChainId : Int
  recipient : Hex
  refundAddress : Hex
  maximumFee : Text
  preferredAdapters : List Text
  excludedAdapters : List Text
  privateSubmissionRequired : Bool
  agentMetadata : Option (List (Text × Text))

/-- What a call of an adapter throws: an error of its own, or one of the language. -/
inductive Thrown where
  | adapter (e : AdapterError)
  | other (text : Text)
  deriving DecidableEq, Repr

def Thrown.text : Thrown → Text
  | .adapter e => "AdapterError: ".toList ++ e.message
  | .other text => text

/-- `throw new AdapterError`. -/
def refusal (code : String) (message : Text) : Thrown := .adapter ⟨code, message⟩

def PrematureQuoteError (state : IntentState) : Thrown :=
  refusal "PREMATURE_QUOTE" ("refusing to contact a liquidity provider from state ".toList ++ state.name ++
    ": ordering must be committed and the batch revealed first".toList)

def assertMayQuote (lc : IntentLifecycle) : Except Thrown Unit :=
  require (lc.mayRequestQuote = true) (PrematureQuoteError lc.current)

/-- `BigInt(text)`. -/
def bigInt (text : Text) : Except Thrown Int :=
  expect (toBigInt text) (.other ("SyntaxError: Cannot convert ".toList ++ text ++ " to a BigInt".toList))

/-- The venue's answer: none, or a response with its body. -/
inductive Body (Quote : Type) where
  | notJson
  | notObject
  | object (quote : Quote)

inductive Answer (Quote : Type) where
  | threw (reason : Text)
  | response (status : Nat) (body : Body Quote)

/-- One attempt: what the clock reads, the answer, and how other code moves the lifecycle while it is awaited. -/
structure Turn (Quote : Type) where
  now : Int
  answer : Answer Quote
  moves : List IntentLifecycle.Move

variable {Quote : Type}

namespace ZeroEx

structure Config extends ZeroExConfig where
  supportedChainIds : List Int
  maxAttempts : Option Int

def DEFAULT_ATTEMPTS : Int := 3

def RETRYABLE : List String := ["NETWORK", "UPSTREAM"]

def supports (cfg : Config) (p : ActionPayload) : Bool :=
  p.originChainId = p.destinationChainId ∧ p.originChainId ∈ cfg.supportedChainIds

def validateIntent (cfg : Config) (now : Int) (p : ActionPayload) : Except Thrown Unit := do
  require (supports cfg p = true) (refusal "UNSUPPORTED" "this adapter does not handle this intent".toList)
  require ((cfg.trustedAllowanceTargets p.originChainId).getD [] ≠ [])
    (refusal "CONFIG" ("no trusted allowance targets configured for chain ".toList ++ decimal p.originChainId))
  require (now < p.deadline) (refusal "EXPIRED" "intent deadline has already passed".toList)
  let sells ← bigInt p.sellAmount
  require (0 < sells) (refusal "BAD_AMOUNT" "sellAmount must be positive".toList)
  let floor ← bigInt p.minimumBuyAmount
  require (0 < floor) (refusal "BAD_AMOUNT" "minimumBuyAmount must be positive".toList)
  require (eq p.sellToken p.buyToken = false) (refusal "BAD_PAIR" "sellToken and buyToken are the same".toList)
  require (ADAPTER_ID ∉ p.excludedAdapters) (refusal "EXCLUDED" "the agent excluded this adapter".toList)

def fetchQuote : Answer Quote → Except Thrown Quote
  | .threw reason => .error (refusal "NETWORK" ("0x request failed: ".toList ++ reason))
  | .response status body => do
    require (¬(status = 429 ∨ 500 ≤ status)) (refusal "UPSTREAM" ("0x returned ".toList ++ decimal status))
    require (200 ≤ status ∧ status ≤ 299) (refusal "QUOTE_REJECTED" ("0x returned ".toList ++ decimal status))
    match body with
    | .notJson => .error (refusal "UPSTREAM" "0x returned a body that is not JSON".toList)
    | .notObject => .error (refusal "UPSTREAM" "0x returned a non-object body".toList)
    | .object quote => .ok quote

/-- Whether another attempt is made; only some errors of the adapter's own end the loop. -/
def retried : Thrown → Bool
  | .adapter e => e.code ∈ RETRYABLE
  | .other _ => true

variable (toProposal : ActionPayload → Quote → Except Thrown ExecutionProposal)

/-- The attempts from the `k`-th on: the lifecycle at each contact with the venue, and what comes of them. -/
def attempts (total : Int) (p : ActionPayload) (turns : Nat → Turn Quote) :
    Nat → Nat → IntentLifecycle → Text → List IntentLifecycle × Except Thrown ExecutionProposal
  | 0, _, _, lastError => ([], .error (refusal "QUOTE_FAILED"
      ("no executable quote after ".toList ++ decimal total ++ " attempts: ".toList ++ lastError)))
  | left + 1, k, lc, _ =>
    if p.deadline ≤ (turns k).now then
      ([], .error (refusal "EXPIRED" "intent deadline passed while quoting".toList))
    else
      match fetchQuote (turns k).answer >>= toProposal p with
      | .ok proposal => ([lc], .ok proposal)
      | .error e =>
        if retried e then
          let (contacts, result) := attempts total p turns left (k + 1) (lc.moved (turns k).moves) e.text
          (lc :: contacts, result)
        else ([lc], .error e)

/-- The lifecycle at each contact with the venue, and the proposal. -/
def getExecutionProposal (cfg : Config) (now : Int) (p : ActionPayload) (lc : IntentLifecycle) (turns : Nat → Turn Quote) :
    List IntentLifecycle × Except Thrown ExecutionProposal :=
  match assertMayQuote lc >>= fun _ => validateIntent cfg now p with
  | .error e => ([], .error e)
  | .ok _ =>
    let total := cfg.maxAttempts.getD DEFAULT_ATTEMPTS
    attempts toProposal total p turns total.toNat 0 lc "undefined".toList

end ZeroEx

namespace Across

def ADAPTER_ID : Text := "across-swap-v1".toList

structure Config where
  enabled : Bool
  supportedRoutes : List Text

def routeKey (origin destination : Int) : Text := decimal origin ++ ':' :: decimal destination

def validateIntent (cfg : Config) (now : Int) (p : ActionPayload) : Except Thrown Unit := do
  require (cfg.enabled = true) (refusal "DISABLED" "the Across adapter is not enabled".toList)
  require (p.originChainId ≠ p.destinationChainId)
    (refusal "UNSUPPORTED" "same-chain intents do not belong to a bridge adapter".toList)
  require (routeKey p.originChainId p.destinationChainId ∈ cfg.supportedRoutes) (refusal "UNSUPPORTED_ROUTE"
    ("route ".toList ++ routeKey p.originChainId p.destinationChainId ++ " is not configured".toList))
  require (isAddress p.refundAddress = true)
    (refusal "BAD_REFUND_ADDRESS" "a cross-chain intent needs a valid refund address".toList)
  require (now < p.deadline) (refusal "EXPIRED" "intent deadline has already passed".toList)
  let floor ← bigInt p.minimumBuyAmount
  require (0 < floor) (refusal "BAD_AMOUNT" "minimumBuyAmount must be positive".toList)
  require (ADAPTER_ID ∉ p.excludedAdapters) (refusal "EXCLUDED" "the agent excluded this adapter".toList)

/-- Whatever the body is, it is taken for a quote. -/
def fetchQuote : Answer Quote → Except Thrown (Body Quote)
  | .threw reason => .error (refusal "NETWORK" ("Across request failed: ".toList ++ reason))
  | .response status body => do
    require (¬(status = 429 ∨ 500 ≤ status)) (refusal "UPSTREAM" ("Across returned ".toList ++ decimal status))
    require (200 ≤ status ∧ status ≤ 299) (refusal "UNSUPPORTED_ROUTE" ("Across returned ".toList ++ decimal status))
    match body with
    | .notJson => .error (refusal "UPSTREAM" "Across returned a body that is not JSON".toList)
    | body => .ok body

variable (toProposal : ActionPayload → Body Quote → Except Thrown ExecutionProposal)

def getExecutionProposal (cfg : Config) (now : Int) (p : ActionPayload) (lc : IntentLifecycle) (answer : Answer Quote) :
    List IntentLifecycle × Except Thrown ExecutionProposal :=
  match assertMayQuote lc >>= fun _ => validateIntent cfg now p with
  | .error e => ([], .error e)
  | .ok _ => ([lc], fetchQuote answer >>= toProposal p)

end Across

/-! ### The history at a contact -/

variable {lc contact : IntentLifecycle}

open IntentLifecycle (Reached Move moved_append)

lemma assertMayQuote_eq_ok {u : Unit} : assertMayQuote lc = .ok u ↔ lc.current = .REVEALED ∨ lc.current = .QUOTING := by
  rw [assertMayQuote, require_eq_ok, IntentLifecycle.mayRequestQuote, decide_eq_true_eq]

lemma gate_opened (h : Reached lc) (hgate : lc.current = .REVEALED ∨ lc.current = .QUOTING) :
    Opened lc.log ∧ lc.current ∉ TERMINAL := by
  refine ⟨h.legal.opened ?_ ?_, ?_⟩ <;> rcases hgate with hgate | hgate <;> rw [hgate] <;> decide

lemma log_moved (lc : IntentLifecycle) (moves : List Move) : lc.log <+: (lc.moved moves).log := by
  induction moves generalizing lc with
  | nil => exact List.prefix_rfl
  | cons m moves ih =>
    refine List.IsPrefix.trans ?_ (ih _)
    dsimp only
    rw [IntentLifecycle.outcome_to]
    split_ifs
    · exact List.prefix_append _ _
    · exact List.prefix_rfl

lemma Opened.extend {log log' : List TransitionRecord} (h : Opened log) (hmore : log <+: log') : Opened log' := by
  obtain ⟨front, committed, between, revealed, back, rfl, hcommitted, hrevealed⟩ := h
  obtain ⟨more, rfl⟩ := hmore
  exact ⟨front, committed, between, revealed, back ++ more, by simp, hcommitted, hrevealed⟩

/-- How other code moves the lifecycle before the `k`-th attempt. -/
def movesBefore (turns : Nat → Turn Quote) (k : Nat) : List Move := (List.range k).flatMap fun i => (turns i).moves

lemma movesBefore_succ (turns : Nat → Turn Quote) (k : Nat) :
    movesBefore turns (k + 1) = movesBefore turns k ++ (turns k).moves := by
  rw [movesBefore, List.range_succ, List.flatMap_append, List.flatMap_singleton]
  rfl

variable {toProposal : ActionPayload → Quote → Except Thrown ExecutionProposal} {p : ActionPayload}
  {turns : Nat → Turn Quote}

lemma attempts_contact {total : Int} {left k : Nat} {start : IntentLifecycle} {lastError : Text} {j : Nat}
    (h : (ZeroEx.attempts toProposal total p turns left k (start.moved (movesBefore turns k)) lastError).1[j]? = some contact) :
    contact = start.moved (movesBefore turns (k + j)) := by
  induction left generalizing k j lastError with
  | zero => cases h
  | succ left ih =>
    rw [ZeroEx.attempts] at h
    have hone : ∀ {lc' : IntentLifecycle}, [lc'][j]? = some contact → j = 0 ∧ contact = lc' := by
      intro lc' hat
      cases j with
      | zero => exact ⟨rfl, (Option.some.inj hat).symm⟩
      | succ j => cases hat
    split_ifs at h with hdeadline
    · cases h
    · split at h
      · obtain ⟨rfl, rfl⟩ := hone h
        rfl
      · split_ifs at h
        · cases j with
          | zero => exact (Option.some.inj h).symm
          | succ j =>
            rw [← moved_append, ← movesBefore_succ] at h
            have hrest := ih h
            rwa [Nat.add_right_comm, Nat.add_assoc] at hrest
        · obtain ⟨rfl, rfl⟩ := hone h
          rfl

/-- A history is a legal path and is told from every other list; a venue is contacted with the order committed and
the batch revealed, and with the intent not ended unless other code ended it between two attempts. -/
theorem quotes_after_reveal :
    (∀ lc, Reached lc → Legal lc.log lc.current ∧ IntentLifecycle.fromHistory lc.intentId lc.log = .ok lc ∧
      ∀ next code clock e lc', Methods.outcome (IntentLifecycle.to_ next code clock) lc = (.error e, lc') → lc' = lc) ∧
    (∀ intentId records, (∃ lc, IntentLifecycle.fromHistory intentId records = .ok lc) ↔ ∃ s, Legal records s) ∧
    (∀ (toProposal : ActionPayload → Quote → Except Thrown ExecutionProposal) cfg now p lc turns k contact,
      Reached lc → (ZeroEx.getExecutionProposal toProposal cfg now p lc turns).1[k]? = some contact →
      contact = lc.moved (movesBefore turns k) ∧ Opened contact.log ∧
        (Unended contact.log ↔ (lc.moved (movesBefore turns k)).isTerminal = false)) ∧
    ∀ (toProposal : ActionPayload → Body Quote → Except Thrown ExecutionProposal) cfg now p lc answer contact,
      Reached lc → contact ∈ (Across.getExecutionProposal toProposal cfg now p lc answer).1 →
      contact = lc ∧ Opened contact.log ∧ Unended contact.log := by
  refine ⟨fun lc h => ⟨h.legal, ?_, ?_⟩, ?_, ?_, ?_⟩
  · exact IntentLifecycle.fromHistory_eq_ok.mpr ⟨h.legal, rfl, rfl⟩
  · intro next code clock e lc' houtcome
    rw [IntentLifecycle.outcome_to] at houtcome
    split_ifs at houtcome
    · cases houtcome
    · exact (Prod.mk.inj houtcome).2.symm
  · intro intentId records
    constructor
    · rintro ⟨lc, hload⟩
      exact ⟨lc.current, (IntentLifecycle.fromHistory_eq_ok.mp hload).1⟩
    · rintro ⟨s, hlegal⟩
      exact ⟨⟨intentId, s, records⟩, IntentLifecycle.fromHistory_eq_ok.mpr ⟨hlegal, rfl, rfl⟩⟩
  · intro toProposal cfg now p lc turns k contact hreached hcontact
    rw [ZeroEx.getExecutionProposal] at hcontact
    split at hcontact
    · cases hcontact
    · rename_i hok
      obtain ⟨_, hgate, -⟩ := bind_eq_ok.mp hok
      have hopened := gate_opened hreached (assertMayQuote_eq_ok.mp hgate)
      have hmoved : contact = lc.moved (movesBefore turns (0 + k)) := attempts_contact hcontact
      rw [Nat.zero_add] at hmoved
      refine ⟨hmoved, ?_, ?_⟩
      · rw [hmoved]
        exact hopened.1.extend (log_moved lc _)
      · rw [hmoved, (hreached.moved _).legal.unended_iff, IntentLifecycle.isTerminal, decide_eq_false_iff_not]
  · intro toProposal cfg now p lc answer contact hreached hcontact
    rw [Across.getExecutionProposal] at hcontact
    split at hcontact
    · cases hcontact
    · rename_i hok
      obtain ⟨_, hgate, -⟩ := bind_eq_ok.mp hok
      have hopened := gate_opened hreached (assertMayQuote_eq_ok.mp hgate)
      obtain rfl := List.mem_singleton.mp hcontact
      exact ⟨rfl, hopened.1, hreached.legal.unended_iff.mpr hopened.2⟩

/-! ### A retry after a cancellation -/

def revealedLifecycle : IntentLifecycle := (IntentLifecycle.new "intent_1".toList).moved
  ([.SEALED, .SUBMITTED, .VALIDATED, .BATCHED, .ORDER_COMMITTED, .COLLECTING_SHARES, .THRESHOLD_REACHED,
    .REVEALED].map fun s => ⟨s, none, 100⟩)

lemma revealedLifecycle_reached : Reached revealedLifecycle := (Reached.fresh _).moved _

def swapPayload : ActionPayload where
  originChainId := 1
  sellToken := "0x1111111111111111111111111111111111111111".toList
  buyToken := "0x2222222222222222222222222222222222222222".toList
  sellAmount := "1000".toList
  minimumBuyAmount := "900".toList
  deadline := 500
  allowPartialFill := false
  payloadVersion := 1
  destinationChainId := 1
  recipient := "0x3333333333333333333333333333333333333333".toList
  refundAddress := "0x3333333333333333333333333333333333333333".toList
  maximumFee := "10".toList
  preferredAdapters := []
  excludedAdapters := []
  privateSubmissionRequired := false
  agentMetadata := none

def oneChain : ZeroEx.Config := ⟨⟨fun _ => some ["0x4444444444444444444444444444444444444444".toList]⟩, [1], none⟩

/-- No answer comes, and the agent cancels while it is awaited. -/
def cancellingTurn (_ : Nat) : Turn Unit := ⟨200, .threw "timeout".toList, [⟨.CANCELLED, none, 200⟩]⟩

def noProposal (_ : ActionPayload) (_ : Unit) : Except Thrown ExecutionProposal := .error (.other [])

theorem first_quote_opened : ∃ contact,
    (ZeroEx.getExecutionProposal noProposal oneChain 200 swapPayload revealedLifecycle cancellingTurn).1[0]? = some contact ∧
      Opened contact.log ∧ Unended contact.log := by
  have hcontact : (ZeroEx.getExecutionProposal noProposal oneChain 200 swapPayload revealedLifecycle
      cancellingTurn).1[0]? = some revealedLifecycle := by decide +kernel
  obtain ⟨-, hopened, hunended⟩ := quotes_after_reveal.2.2.1 noProposal oneChain 200 swapPayload revealedLifecycle
    cancellingTurn 0 revealedLifecycle revealedLifecycle_reached hcontact
  exact ⟨_, hcontact, hopened, hunended.mpr (by decide)⟩

/-- A cancelled intent is quoted again. -/
theorem cancelled_quoted : Reached revealedLifecycle ∧ ∃ contact,
    (ZeroEx.getExecutionProposal noProposal oneChain 200 swapPayload revealedLifecycle cancellingTurn).1[1]? = some contact ∧
      ¬Unended contact.log := by
  refine ⟨revealedLifecycle_reached, revealedLifecycle.moved [⟨.CANCELLED, none, 200⟩], by decide +kernel, ?_⟩
  rw [(revealedLifecycle_reached.move _).legal.unended_iff]
  decide

end Peal.Actions
