import Peal.Actions.Intent
import Peal.Library.Fallible
import Peal.Library.JsStrings
import Peal.Library.Encoding
import Peal.Library.Rows

namespace Peal.Actions
open Peal.Fallible Peal.Json
open Peal.JsStrings (toBigInt)
open Peal.Links (Text Bytes toLowercase)

/-! # Executing a proposal of the 0x adapter -/

structure ProposedCall where
  to_ : Hex
  data : Hex
  value : Text
  gas : Option Text
  gasPrice : Option Text
  deriving DecidableEq, Repr

structure ProposedApproval where
  token : Hex
  spender : Hex
  amount : Text
  call : ProposedCall
  deriving DecidableEq, Repr

structure ExecutionProposal where
  adapterId : Text
  adapterVersion : Text
  quoteId : Text
  buyAmount : Text
  minBuyAmount : Text
  sellAmount : Text
  buyToken : Hex
  sellToken : Hex
  chainId : Int
  approvals : List ProposedApproval
  call : ProposedCall
  expiresAt : Int
  deriving DecidableEq, Repr

structure ValidationIssue where
  code : String
  message : Text
  deriving DecidableEq, Repr

structure ValidationResult where
  ok : Bool
  issues : List ValidationIssue
  deriving DecidableEq, Repr

structure ExecutionAuthorization where
  intentId : Text
  quoteHash : Text
  callHash : Text
  signature : Hex
  submissionMode : Text
  deriving DecidableEq, Repr

structure ExecutionHandle where
  executionId : Text
  originTransactionHash : Option Text
  deriving DecidableEq, Repr

structure AdapterError where
  code : String
  message : Text
  deriving DecidableEq, Repr

structure ZeroExConfig where
  trustedAllowanceTargets : Int → Option (List Text)

def ADAPTER_ID : Text := "zerox-swap-v2".toList

def isUint (v : Text) : Bool := !v.isEmpty && v.all Char.isDigit

def eq (a b : Text) : Bool := toLowercase a == toLowercase b

/-! ### What an authorization names -/

def ProposedApproval.body (a : ProposedApproval) : Value :=
  .obj [ ("token".toList, .str (toLowercase a.token)),
    ("spender".toList, .str (toLowercase a.spender)),
    ("amount".toList, .str a.amount) ]

def quoteBody (p : ExecutionProposal) : Value :=
  .obj [ ("adapterId".toList, .str p.adapterId),
    ("chainId".toList, .num p.chainId),
    ("sellToken".toList, .str (toLowercase p.sellToken)),
    ("buyToken".toList, .str (toLowercase p.buyToken)),
    ("sellAmount".toList, .str p.sellAmount),
    ("minBuyAmount".toList, .str p.minBuyAmount),
    ("to".toList, .str (toLowercase p.call.to_)),
    ("data".toList, .str p.call.data),
    ("value".toList, .str p.call.value),
    ("approvals".toList, .arr (p.approvals.map ProposedApproval.body)) ]

def callBody (p : ExecutionProposal) : Value :=
  .obj [ ("to".toList, .str (toLowercase p.call.to_)),
    ("data".toList, .str p.call.data),
    ("value".toList, .str p.call.value) ]

section

variable (sha256Hex : Bytes → Text)

def quoteHash (p : ExecutionProposal) : Text := sha256Hex (utf8 (canonicalize (quoteBody p)))

def callHash (p : ExecutionProposal) : Text := sha256Hex (utf8 (canonicalize (callBody p)))

end

/-! ### Validation -/

def issue (found : Prop) [Decidable found] (code : String) (message : Text) : List ValidationIssue :=
  if found then [⟨code, message⟩] else []

/-- The comparisons of amounts; the first amount that is no integer ends them. -/
def amountIssues (p : SwapPayload) (proposal : ExecutionProposal) : List ValidationIssue :=
  let bad : ValidationIssue := ⟨"BAD_AMOUNT", "proposal amounts are not decimal integers".toList⟩
  match toBigInt proposal.sellAmount, toBigInt p.sellAmount with
  | some sells, some signed =>
    issue (sells ≠ signed ∧ (p.allowPartialFill = false ∨ signed < sells)) "WRONG_SELL_AMOUNT"
        ("proposal sells ".toList ++ proposal.sellAmount ++ ", intent signed ".toList ++ p.sellAmount) ++
      match toBigInt proposal.minBuyAmount, toBigInt p.minimumBuyAmount with
      | some guaranteed, some floor =>
        issue (guaranteed < floor) "BELOW_MINIMUM"
          ("guaranteed ".toList ++ proposal.minBuyAmount ++ " is under the signed floor ".toList ++ p.minimumBuyAmount)
      | _, _ => [bad]
  | _, _ => [bad]

def approvalIssues (trusted : List Text) (p : SwapPayload) (a : ProposedApproval) : List ValidationIssue :=
  issue (toLowercase a.spender ∉ trusted) "UNSAFE_ALLOWANCE_TARGET"
      ("approval spender ".toList ++ a.spender ++ " is not trusted".toList) ++
    issue (eq a.token p.sellToken = false) "WRONG_APPROVAL_TOKEN" ("approval is for ".toList ++ a.token) ++
    match toBigInt a.amount, toBigInt p.sellAmount with
    | some amount, some signed =>
      issue (signed < amount) "OVERBROAD_APPROVAL"
        ("approval of ".toList ++ a.amount ++ " exceeds the ".toList ++ p.sellAmount ++ " being sold".toList)
    | _, _ => [⟨"BAD_AMOUNT", "approval amount is not a decimal integer".toList⟩]

section

variable (sha256Hex : Bytes → Text) (cfg : ZeroExConfig) (now : Int)

def trustedTargets (p : SwapPayload) : List Text :=
  ((cfg.trustedAllowanceTargets p.originChainId).getD []).map toLowercase

def validateExecutionProposal (intent : RevealedIntent) (proposal : ExecutionProposal) : ValidationResult :=
  let p := intent.payload
  let issues :=
    issue (proposal.adapterId ≠ ADAPTER_ID) "WRONG_ADAPTER" ("proposal is from ".toList ++ proposal.adapterId) ++
    issue (proposal.chainId ≠ p.originChainId) "WRONG_CHAIN"
      ("proposal is for chain ".toList ++ decimal proposal.chainId ++ ", intent is for ".toList ++
        decimal p.originChainId) ++
    issue (eq proposal.sellToken p.sellToken = false) "WRONG_SELL_TOKEN"
      ("proposal sells ".toList ++ proposal.sellToken) ++
    issue (eq proposal.buyToken p.buyToken = false) "WRONG_BUY_TOKEN" ("proposal buys ".toList ++ proposal.buyToken) ++
    amountIssues p proposal ++
    issue (proposal.expiresAt ≤ now) "QUOTE_EXPIRED" "quote has expired".toList ++
    issue (p.deadline < proposal.expiresAt) "PAST_DEADLINE" "quote outlives the signed deadline".toList ++
    issue (isAddress proposal.call.to_ = false) "BAD_TARGET" "call target is not an address".toList ++
    issue (isHexData proposal.call.data = false) "BAD_CALLDATA" "calldata is not hex".toList ++
    issue (isUint proposal.call.value = false) "BAD_VALUE" "call value is not a uint".toList ++
    proposal.approvals.flatMap (approvalIssues (trustedTargets cfg p) p)
  ⟨issues.isEmpty, issues⟩

/-- No path submits: what passes every check is handed to another component. -/
def execute (intent : RevealedIntent) (proposal : ExecutionProposal) (authorization : ExecutionAuthorization) :
    Except AdapterError ExecutionHandle := do
  let check := validateExecutionProposal cfg now intent proposal
  require (check.ok = true)
    ⟨"VALIDATION_FAILED", [','].intercalate (check.issues.map fun i => i.code.toList)⟩
  require (authorization.quoteHash = quoteHash sha256Hex proposal ∧ authorization.callHash = callHash sha256Hex proposal)
    ⟨"AUTHORIZATION_MISMATCH", "authorization does not cover this proposal".toList⟩
  require (authorization.intentId = intent.envelope.intentId)
    ⟨"AUTHORIZATION_MISMATCH", "authorization is for a different intent".toList⟩
  .error ⟨"NOT_IMPLEMENTED",
    "ZeroExAdapter does not broadcast; pass the validated proposal to a TransactionSubmissionProvider".toList⟩

/-- Every check of `execute` is passed. -/
def Passes (intent : RevealedIntent) (proposal : ExecutionProposal) (authorization : ExecutionAuthorization) : Prop :=
  execute sha256Hex cfg now intent proposal authorization = .error ⟨"NOT_IMPLEMENTED",
    "ZeroExAdapter does not broadcast; pass the validated proposal to a TransactionSubmissionProvider".toList⟩

instance (intent : RevealedIntent) (proposal : ExecutionProposal) (authorization : ExecutionAuthorization) :
    Decidable (Passes sha256Hex cfg now intent proposal authorization) :=
  inferInstanceAs (Decidable (_ = _))

end

/-! ### Effects -/

/-- A transaction as the chain executes it. -/
structure Effect where
  target : Text
  data : Text
  value : Option Int
  deriving DecidableEq, Repr

def ProposedCall.effect (c : ProposedCall) : Effect := ⟨toLowercase c.to_, toLowercase c.data, toBigInt c.value⟩

structure Effects where
  main : Effect
  approvals : List Effect
  deriving DecidableEq, Repr

def ExecutionProposal.effects (p : ExecutionProposal) : Effects :=
  ⟨p.call.effect, p.approvals.map fun a => a.call.effect⟩

/-- An argument of a call: thirty-two bytes in hex. -/
def abiWord (digits : Text) : Text := List.replicate (64 - digits.length) '0' ++ digits

/-- The transaction `approve(spender, amount)` on the token. -/
def ProposedApproval.approval (a : ProposedApproval) : Effect where
  target := toLowercase a.token
  data := "0x095ea7b3".toList ++ abiWord ((toLowercase a.spender).drop 2) ++
    abiWord (Nat.toDigits 16 ((toBigInt a.amount).getD 0).toNat)
  value := some 0

/-! ### What the checks bind -/

lemma passes_iff {sha256Hex : Bytes → Text} {cfg : ZeroExConfig} {now : Int} {intent : RevealedIntent}
    {p : ExecutionProposal} {a : ExecutionAuthorization} :
    Passes sha256Hex cfg now intent p a ↔
      (validateExecutionProposal cfg now intent p).ok = true ∧ a.quoteHash = quoteHash sha256Hex p ∧
        a.callHash = callHash sha256Hex p ∧ a.intentId = intent.envelope.intentId := by
  unfold Passes execute
  by_cases hvalid : (validateExecutionProposal cfg now intent p).ok = true
  · by_cases hhash : a.quoteHash = quoteHash sha256Hex p ∧ a.callHash = callHash sha256Hex p
    · by_cases hintent : a.intentId = intent.envelope.intentId
      · simp [require, hvalid, hhash, hintent, bind, Except.bind]
      · simp [require, hvalid, hhash, hintent, bind, Except.bind]
    · have hnot : ¬(a.quoteHash = quoteHash sha256Hex p ∧ a.callHash = callHash sha256Hex p ∧
          a.intentId = intent.envelope.intentId) := fun h => hhash ⟨h.1, h.2.1⟩
      simp [require, hvalid, hhash, hnot, bind, Except.bind]
  · simp [require, hvalid, bind, Except.bind]

lemma sortKeys_quoteBody (p : ExecutionProposal) :
    sortKeys (quoteBody p) = .obj
      [ ("adapterId".toList, .str p.adapterId),
        ("approvals".toList, .arr (p.approvals.map fun a => sortKeys a.body)),
        ("buyToken".toList, .str (toLowercase p.buyToken)),
        ("chainId".toList, .num p.chainId),
        ("data".toList, .str p.call.data),
        ("minBuyAmount".toList, .str p.minBuyAmount),
        ("sellAmount".toList, .str p.sellAmount),
        ("sellToken".toList, .str (toLowercase p.sellToken)),
        ("to".toList, .str (toLowercase p.call.to_)),
        ("value".toList, .str p.call.value) ] := by
  have hitems : sortItems (p.approvals.map ProposedApproval.body) = p.approvals.map fun a => sortKeys a.body := by
    rw [sortItems_eq_map, List.map_map]
    rfl
  rw [← hitems]
  rfl

lemma sortKeys_body (a : ProposedApproval) :
    sortKeys a.body = .obj
      [ ("amount".toList, .str a.amount),
        ("spender".toList, .str (toLowercase a.spender)),
        ("token".toList, .str (toLowercase a.token)) ] := rfl

lemma quoteHash_binds {sha256Hex : Bytes → Text} (hsha : Function.Injective sha256Hex) {p q : ExecutionProposal}
    (h : quoteHash sha256Hex p = quoteHash sha256Hex q) :
    p.call.effect = q.call.effect ∧
      p.approvals.map (fun a => (toLowercase a.token, toLowercase a.spender, a.amount)) =
        q.approvals.map fun a => (toLowercase a.token, toLowercase a.spender, a.amount) := by
  have htext := sortKeys_eq_of_canonicalize (utf8_injective (hsha h))
  rw [sortKeys_quoteBody, sortKeys_quoteBody] at htext
  simp only [Value.obj.injEq, List.cons.injEq, Prod.mk.injEq, Value.str.injEq, Value.arr.injEq] at htext
  obtain ⟨-, ⟨-, happrovals⟩, -, -, ⟨-, hdata⟩, -, -, -, ⟨-, hto⟩, ⟨-, hvalue⟩, -⟩ := htext
  refine ⟨?_, ?_⟩
  · unfold ProposedCall.effect
    rw [hto, hdata, hvalue]
  · refine Rows.map_eq_of_map_eq ?_ happrovals
    intro a b hab
    rw [sortKeys_body, sortKeys_body] at hab
    simp only [Value.obj.injEq, List.cons.injEq, Prod.mk.injEq, Value.str.injEq] at hab
    obtain ⟨⟨-, hamount⟩, ⟨-, hspender⟩, ⟨-, htoken⟩, -⟩ := hab
    rw [htoken, hspender, hamount]

/-- The proposal with other calldata in its first approval. -/
def ExecutionProposal.reroute (p : ExecutionProposal) (data : Hex) : ExecutionProposal :=
  match p.approvals with
  | [] => p
  | a :: rest => { p with approvals := { a with call := { a.call with data := data } } :: rest }

lemma passes_reroute {sha256Hex : Bytes → Text} {cfg : ZeroExConfig} {now : Int} {intent : RevealedIntent}
    {p : ExecutionProposal} {a : ExecutionAuthorization} {data : Hex} (h : Passes sha256Hex cfg now intent p a) :
    Passes sha256Hex cfg now intent (p.reroute data) a := by
  obtain ⟨hvalid, hquote, hcall, hintent⟩ := passes_iff.mp h
  unfold ExecutionProposal.reroute
  split
  case h_1 => exact h
  case h_2 first rest happrovals =>
    refine passes_iff.mpr ⟨?_, ?_, hcall, hintent⟩
    · rw [← hvalid]
      unfold validateExecutionProposal
      rw [happrovals]
      rfl
    · rw [hquote]
      unfold quoteHash quoteBody
      rw [happrovals]
      rfl

lemma reroute_effects_ne {p : ExecutionProposal} {first : ProposedApproval} {rest : List ProposedApproval}
    (h : p.approvals = first :: rest) {data : Hex} (hdata : toLowercase data ≠ toLowercase first.call.data) :
    (p.reroute data).effects ≠ p.effects := by
  intro heq
  have happrovals := congrArg Effects.approvals heq
  unfold ExecutionProposal.reroute at happrovals
  rw [h] at happrovals
  simp only [ExecutionProposal.effects, List.map_cons, h, List.cons.injEq] at happrovals
  exact hdata (congrArg Effect.data happrovals.1)

/-- An authorization fixes what a proposal does exactly when the proposal asks for no approval: two proposals with
approvals pass under one signature with different calls in them. -/
theorem authorization_binds_iff {sha256Hex : Bytes → Text} (hsha : Function.Injective sha256Hex) {cfg : ZeroExConfig}
    {now : Int} {intent : RevealedIntent} {p : ExecutionProposal} {a : ExecutionAuthorization}
    (h : Passes sha256Hex cfg now intent p a) :
    (∀ now' q, Passes sha256Hex cfg now' intent q a →
      q.effects = p.effects ∧ ∀ approval ∈ q.approvals, approval.call.effect = approval.approval) ↔
    p.approvals = [] := by
  constructor
  · intro hbound
    by_contra hne
    obtain ⟨first, rest, happrovals⟩ := List.exists_cons_of_ne_nil hne
    obtain ⟨data, hdata⟩ : ∃ data : Hex, toLowercase data ≠ toLowercase first.call.data := by
      by_cases hempty : toLowercase first.call.data = "0x".toList
      · exact ⟨"0x00".toList, by rw [hempty]; decide⟩
      · exact ⟨"0x".toList, fun heq => hempty (heq.symm.trans (by decide))⟩
    exact reroute_effects_ne happrovals hdata (hbound now _ (passes_reroute h)).1
  · intro hnone now' q hq
    obtain ⟨-, hquote, -, -⟩ := passes_iff.mp h
    obtain ⟨-, hquote', -, -⟩ := passes_iff.mp hq
    obtain ⟨hmain, happrovals⟩ := quoteHash_binds hsha (hquote'.symm.trans hquote)
    have hempty : q.approvals = [] := by
      rw [hnone] at happrovals
      exact List.map_eq_nil_iff.mp happrovals
    refine ⟨?_, by simp [hempty]⟩
    unfold ExecutionProposal.effects
    rw [hmain, hempty, hnone]

/-! ### A proposal with an approval -/

/-- An injective stand-in for the hash. -/
def listHash (bytes : Bytes) : Text := render (.arr (bytes.map fun b : Nat => Value.num b))

lemma listHash_injective : Function.Injective listHash := by
  intro a b h
  have hitems : a.map (fun b : Nat => Value.num b) = b.map fun b : Nat => Value.num b :=
    Value.arr.inj (render_injective h)
  refine List.map_injective_iff.mpr ?_ hitems
  intro m n hmn
  simpa using hmn

def sampleToken : Hex := "0x".toList ++ List.replicate 40 'a'

def sampleTarget : Hex := "0x".toList ++ List.replicate 40 'b'

def sampleConfig : ZeroExConfig where
  trustedAllowanceTargets := fun _ => some [sampleTarget]

def sampleIntent : RevealedIntent where
  envelope := {
    protocolVersion := 1
    intentId := "int_1".toList
    encryptionKeyId := List.replicate 64 'c'
    ciphertextHash := List.replicate 64 'd'
    nonce := "n".toList
    createdAt := 10
    expiresAt := 100
    pseudonymousSigner := "0x".toList ++ List.replicate 40 'e'
    executionDomain := 1
    signature := none }
  payload := {
    originChainId := 1
    sellToken := sampleToken
    buyToken := sampleTarget
    sellAmount := "50".toList
    minimumBuyAmount := "10".toList
    deadline := 90
    allowPartialFill := false }

def sampleSwap : ProposedCall where
  to_ := sampleTarget
  data := "0x01".toList
  value := "0".toList
  gas := none
  gasPrice := none

/-- A quote that needs no allowance. -/
def sampleProposal : ExecutionProposal where
  adapterId := ADAPTER_ID
  adapterVersion := "1".toList
  quoteId := "q".toList
  buyAmount := "12".toList
  minBuyAmount := "11".toList
  sellAmount := "50".toList
  buyToken := sampleTarget
  sellToken := sampleToken
  chainId := 1
  approvals := []
  call := sampleSwap
  expiresAt := 60

/-- The same quote with the allowance the adapter itself proposes. -/
def sampleApproved : ExecutionProposal :=
  { sampleProposal with
    approvals := [⟨sampleToken, sampleTarget, "50".toList, ⟨sampleToken, "0x".toList, "0".toList, none, none⟩⟩] }

def sampleAuthorization (p : ExecutionProposal) : ExecutionAuthorization where
  intentId := "int_1".toList
  quoteHash := quoteHash listHash p
  callHash := callHash listHash p
  signature := "0x".toList
  submissionMode := "private".toList

lemma sample_passes {p : ExecutionProposal} (h : (validateExecutionProposal sampleConfig 40 sampleIntent p).ok = true) :
    Passes listHash sampleConfig 40 sampleIntent p (sampleAuthorization p) :=
  passes_iff.mpr ⟨h, rfl, rfl, rfl⟩

theorem authorization_binds_sample :
    (∀ now' q, Passes listHash sampleConfig now' sampleIntent q (sampleAuthorization sampleProposal) →
      q.effects = sampleProposal.effects ∧ ∀ approval ∈ q.approvals, approval.call.effect = approval.approval) ↔
    sampleProposal.approvals = [] :=
  authorization_binds_iff listHash_injective (sample_passes (by decide))

/-- Two proposals that differ in what an approval sends pass under one authorization. -/
theorem approval_call_unbound :
    ¬∀ (sha256Hex : Bytes → Text), Function.Injective sha256Hex →
      ∀ (cfg : ZeroExConfig) (now : Int) (intent : RevealedIntent) (p q : ExecutionProposal)
        (a : ExecutionAuthorization), Passes sha256Hex cfg now intent p a → Passes sha256Hex cfg now intent q a →
        p.effects = q.effects ∧ ∀ approval ∈ p.approvals, approval.call.effect = approval.approval := by
  intro hclaim
  have hp := sample_passes (show (validateExecutionProposal sampleConfig 40 sampleIntent sampleApproved).ok = true
    by decide)
  obtain ⟨heffects, -⟩ := hclaim listHash listHash_injective sampleConfig 40 sampleIntent sampleApproved
    (sampleApproved.reroute "0x01".toList) _ hp (passes_reroute hp)
  revert heffects
  decide

end Peal.Actions
