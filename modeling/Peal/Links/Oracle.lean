import Peal.Links.DepositId

namespace Peal.Links
open Peal.Fallible

/-! # A validator's check of a proposed mint against its own chain view -/

structure Log where
  address : Text
  topics : List Text
  data : Text
  blockNumber : Text
  blockHash : Text
  transactionHash : Text
  logIndex : Text
  removed : Bool
  deriving DecidableEq, Repr

structure DepositEvent where
  id : Nat
  token : Text
  sender : Text
  amount : Nat
  receiptHex : Text
  blockNumber : Nat
  blockHash : Text
  txHash : Text
  logIndex : Nat
  deriving DecidableEq, Repr

def hexToU64 (s : Text) : Except String Nat :=
  expect (parseU64 16 (trimHexPrefix s)) "rpc decode: not a u64"

def wordToU128 (word : Bytes) : Except String Nat := do
  require (word.length = 32 ∧ ∀ b ∈ word.take 16, b = 0) "rpc decode: amount does not fit u128"
  return fromBeBytes (word.drop 16)

def topicToAddress (topic : Text) : Except String Text := do
  require ((trimHexPrefix topic).length = 64) "rpc decode: topic length"
  return "0x".toList ++ toLowercase ((trimHexPrefix topic).drop 24)

def decodeHex (s : Text) : Except String Bytes :=
  expect (hexDecode (trimHexPrefix s)) "rpc decode: bad hex"

def decodeDeposit (log : Log) : Except String DepositEvent :=
  match log.topics with
  | [_, id, token, sender] => do
    let data ← decodeHex log.data
    require (data.length = 64) "rpc decode: deposit log data"
    let idBytes ← decodeHex id
    return {
      id := ← wordToU128 idBytes
      token := ← topicToAddress token
      sender := ← topicToAddress sender
      amount := ← wordToU128 (data.take 32)
      receiptHex := hexEncode (data.drop 32)
      blockNumber := ← hexToU64 log.blockNumber
      blockHash := toLowercase log.blockHash
      txHash := toLowercase log.transactionHash
      logIndex := ← hexToU64 log.logIndex }
  | _ => .error "rpc decode: deposit log topics"

structure NamespaceConfig where
  chainId : Nat
  rpcUrl : Text
  tokenAddress : Text
  gateway : Text
  confirmations : Nat
  enabled : Bool
  deriving DecidableEq, Repr

/-- The answers of a validator's RPC endpoint. -/
structure Rpc where
  blockNumber : Except String Nat
  transactionLogs : Text → Except String (Option (Nat × List Log))

/-- The first log at an index of its block. -/
def logAt (logs : List Log) (index : Nat) : Option Log :=
  logs.find? fun l => parseU64 16 (trimHexPrefix l.logIndex) = some index

/-- The comparison of the named log with the intent the proof was made for. -/
def matchesIntent (ns : NamespaceConfig) (env : MintEnvelope) (txHash : Text) (log : Log) : Bool :=
  if toLowercase log.address ≠ toLowercase ns.gateway ∨ log.removed = true then false
  else match decodeDeposit log with
  | .error _ => false
  | .ok ev =>
    match frFromHex ev.receiptHex with
    | none => false
    | some receipt =>
      ev.token = toLowercase ns.tokenAddress ∧ ev.amount = env.intent.amount ∧
        receipt = env.intent.receipt ∧ toLowercase ev.txHash = toLowercase txHash

def check (ns : NamespaceConfig) (rpc : Rpc) (env : MintEnvelope) : Except String Bool :=
  match splitThree ':' env.depositId with
  | none => .ok false
  | some (chain, txHash, logIndex) =>
    if parseU64 10 chain ≠ some ns.chainId then .ok false
    else match parseU64 10 logIndex with
    | none => .ok false
    | some index =>
      if ns.enabled = false ∨ ns.rpcUrl = [] ∨ ns.gateway = [] then .ok false
      else do
        let head ← rpc.blockNumber
        match ← rpc.transactionLogs txHash with
        | none => return false
        | some (block, logs) =>
          if head < block + ns.confirmations then return false
          match logAt logs index with
          | none => return false
          | some log => return matchesIntent ns env txHash log

/-- The oracle of a node that serves the namespaces `served`. -/
def confirmed (served : Namespace → Option NamespaceConfig) (rpc : Rpc) (ns : Namespace)
    (env : MintEnvelope) : Except String Bool :=
  match served ns with
  | some cfg => check cfg rpc env
  | none => .ok false

lemma decodeDeposit_ok {log : Log} {ev : DepositEvent} (h : decodeDeposit log = .ok ev) :
    ev.txHash = toLowercase log.transactionHash ∧
      parseU64 16 (trimHexPrefix log.logIndex) = some ev.logIndex := by
  unfold decodeDeposit at h
  split at h
  · simp only [bind_eq_ok, pure_eq_ok] at h
    obtain ⟨_, _, _, _, _, _, _, _, _, _, _, _, _, _, _, _, index, hindex, rfl⟩ := h
    exact ⟨rfl, expect_eq_ok.mp hindex⟩
  · cases h

lemma matchesIntent_eq_true {ns : NamespaceConfig} {env : MintEnvelope} {txHash : Text} {log : Log}
    (h : matchesIntent ns env txHash log = true) :
    toLowercase log.address = toLowercase ns.gateway ∧ log.removed = false ∧
      ∃ ev, decodeDeposit log = .ok ev ∧ ev.amount = env.intent.amount ∧
        ev.txHash = toLowercase txHash := by
  unfold matchesIntent at h
  split at h
  · cases h
  · rename_i hgate
    push Not at hgate
    obtain ⟨haddress, hremoved⟩ := hgate
    split at h
    · cases h
    · rename_i ev hev
      split at h
      · cases h
      · obtain ⟨-, hamount, -, hhash⟩ := of_decide_eq_true h
        rw [(decodeDeposit_ok hev).1, toLowercase_toLowercase, ← (decodeDeposit_ok hev).1] at hhash
        exact ⟨haddress, Bool.eq_false_iff.mpr hremoved, ev, hev, hamount, hhash⟩

/-- An approved mint names a log entry of its gateway that carries its amount. -/
theorem check_names {ns : NamespaceConfig} {rpc : Rpc} {env : MintEnvelope}
    (h : check ns rpc env = .ok true) :
    ∃ e txHash block logs log ev, eventOf env.depositId = some e ∧ e.chainId = ns.chainId ∧
      e.txHash = toLowercase txHash ∧ rpc.transactionLogs txHash = .ok (some (block, logs)) ∧
      log ∈ logs ∧ toLowercase log.address = toLowercase ns.gateway ∧ log.removed = false ∧
      decodeDeposit log = .ok ev ∧ ev.txHash = e.txHash ∧ ev.logIndex = e.logIndex ∧
      ev.amount = env.intent.amount := by
  unfold check at h
  cases hsplit : splitThree ':' env.depositId with
  | none => rw [hsplit] at h; cases h
  | some parts =>
    obtain ⟨chain, txHash, logIndex⟩ := parts
    rw [hsplit] at h
    simp only at h
    split at h
    · cases h
    · rename_i hchain
      cases hindex : parseU64 10 logIndex with
      | none => rw [hindex] at h; cases h
      | some index =>
        rw [hindex] at h
        simp only at h
        split at h
        · cases h
        · simp only [bind_eq_ok] at h
          obtain ⟨head, -, answer, hanswer, h⟩ := h
          cases answer with
          | none => cases h
          | some found =>
            obtain ⟨block, logs⟩ := found
            simp only at h
            split at h
            · cases h
            · cases hlog : logAt logs index with
              | none => rw [hlog] at h; cases h
              | some log =>
                rw [hlog] at h
                obtain ⟨haddress, hremoved, ev, hev, hamount, hhash⟩ :=
                  matchesIntent_eq_true (Except.ok.inj h)
                have hat := List.find?_some hlog
                rw [decide_eq_true_eq, (decodeDeposit_ok hev).2, Option.some.injEq] at hat
                refine ⟨⟨ns.chainId, toLowercase txHash, index⟩, txHash, block, logs, log, ev, ?_, rfl, rfl,
                  hanswer, List.mem_of_find?_eq_some hlog, haddress, hremoved, hev, hhash, hat, hamount⟩
                push Not at hchain
                simp [eventOf, hsplit, hchain, hindex]

end Peal.Links
