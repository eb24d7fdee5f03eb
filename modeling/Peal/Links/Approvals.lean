import Peal.Links.Retries

namespace Peal.Links.Account
open Peal.Fallible Peal.Runs

/-! # One approval, one payment -/

/-- What the wallet signed for a payment, leaving out the chain. -/
def Sent.message (x : Sent) : Option IntentMessage :=
  x.approval.bind fun approval => (paymentIntentTypedData approval.intent 0).toOption

/-- Each operation made with an approval is made at the version its intent names, counting the account's operations
from `base` on. -/
def AtVersions (base : Nat) (operations : List (Option Sent)) : Prop :=
  ∀ (i : Nat) (x : Sent) (approval : PaymentApproval), operations[i]? = some (some x) → x.approval = some approval →
    approval.intent.accountStateVersion = ((base + i : Nat) : Int)

/-- The ledger has accepted no two sends on one signed intent, and each at the version its intent names. -/
structure ApprovedOnce (base : Nat) (s : Payer) : Prop where
  once : (s.accepted.filterMap Sent.message).Nodup
  versions : AtVersions base s.operations

/-- A payment whose approval names another version than the wallet's does not pass the checks. -/
def AtVersion (c : Crypto) (prover : Prover) (v : Viem) (s : Payer) : Event → Prop
  | .pay target intentId (some approval) m =>
    approval.intent.accountStateVersion ≠ (s.journal.wallet.history.length : Int) →
    ∃ e, payUnlocked c prover v s.namespaceHex s.profile s.requests s.journal.wallet s.journal.ledger.inst target
      intentId (some approval) m = .error e
  | _ => True

variable {c : Crypto} {prover : Prover} {v : Viem} {serves : Namespace → Bool} {first : Wallet} {s : Payer}
  {lines : List Line}

lemma atVersions_append {base : Nat} {operations : List (Option Sent)} {o : Option Sent}
    (h : AtVersions base operations) (ho : ∀ x ∈ o, ∀ approval ∈ x.approval,
      approval.intent.accountStateVersion = ((base + operations.length : Nat) : Int)) : AtVersions base (operations ++ [o]) := by
  intro i x approval hx happroval
  rcases Nat.lt_trichotomy i operations.length with hlt | rfl | hgt
  · rw [List.getElem?_append_left hlt] at hx
    exact h i x approval hx happroval
  · rw [List.getElem?_concat_length] at hx
    exact ho x (Option.some.inj hx) approval happroval
  · rw [List.getElem?_eq_none (by simp; omega)] at hx
    cases hx

lemma message_version {x : Sent} {message : IntentMessage} (h : x.message = some message) :
    ∃ approval, x.approval = some approval ∧ approval.intent.accountStateVersion = message.accountStateVersion := by
  obtain ⟨approval, happroval, htyped⟩ := Option.bind_eq_some_iff.mp h
  refine ⟨approval, happroval, ?_⟩
  rw [toOption_eq_some] at htyped
  simp only [paymentIntentTypedData, bind_eq_ok, pure_eq_ok] at htyped
  obtain ⟨amount, -, hash, -, ns, -, nonce, -, rfl⟩ := htyped
  rfl

lemma AtVersions.once {base : Nat} {operations : List (Option Sent)} (h : AtVersions base operations) :
    ((operations.filterMap id).filterMap Sent.message).Nodup := by
  induction operations using List.reverseRecOn with
  | nil => exact List.nodup_nil
  | append_singleton operations o ih =>
    have hbefore : AtVersions base operations := by
      intro i x approval hx
      obtain ⟨hi, -⟩ := List.getElem?_eq_some_iff.mp hx
      exact h i x approval (by rw [List.getElem?_append_left hi]; exact hx)
    have hsplit : ((operations ++ [o]).filterMap id).filterMap Sent.message =
        (operations.filterMap id).filterMap Sent.message ++ (o.bind Sent.message).toList := by
      cases o with
      | none => simp [List.filterMap_append]
      | some x => cases hx : x.message <;> simp [List.filterMap_append, hx]
    rw [hsplit]
    refine List.nodup_append.mpr ⟨ih hbefore, by cases o.bind Sent.message <;> simp, ?_⟩
    rintro message hmessage _ hlast rfl
    obtain ⟨x, rfl, hx⟩ := Option.bind_eq_some_iff.mp (Option.mem_toList.mp hlast)
    obtain ⟨y, hy, hymessage⟩ := List.mem_filterMap.mp hmessage
    have hin : some y ∈ operations := by simpa using hy
    obtain ⟨i, hi, hget⟩ := List.getElem_of_mem hin
    obtain ⟨approval, happroval, hversion⟩ := message_version hx
    obtain ⟨approval', happroval', hversion'⟩ := message_version hymessage
    have hnow := h operations.length x approval List.getElem?_concat_length happroval
    have hthen := hbefore i y approval' (by rw [List.getElem?_eq_getElem hi, hget]) happroval'
    rw [hversion] at hnow
    rw [hversion', hnow] at hthen
    omega

lemma atVersion_keeps {event : Event} (h : AtVersion c prover v s event) :
    Keeps c prover v first (fun ℓ => AtVersions first.history.length ℓ.operations) s lines event := by
  cases event with
  | pay target intentId approval m =>
    intro requests w x hpay ℓ hat hℓ _
    obtain ⟨-, -, rfl, -⟩ := payUnlocked_ok hpay
    refine atVersions_append hℓ ?_
    rintro _ ⟨⟩ approval happroval
    rw [← hat.length]
    by_contra hother
    rw [Option.mem_def.mp happroval] at h hpay
    obtain ⟨e, he⟩ := h hother
    rw [hpay] at he
    cases he
  | _ => trivial

section Sample

def payerAddress : Text := "0x00000000000000000000000000000000000000bb".toList

/-- The receiver's profile, as the directory resolved it. -/
def payee : ProfileTarget where
  namespaceHex := checkoutRequest.namespaceHex
  account := checkoutRequest.receiverAccount
  encKey := checkoutRequest.receiverEncKey
  wallet := "0x00000000000000000000000000000000000000aa".toList
  profileHash := List.replicate 64 '7'
  amount := "500".toList
  reference := none

def payeeIntent : PaymentIntent where
  amount := payee.amount
  recipientProfileHash := payee.profileHash
  requestId := []
  namespaceHex := checkoutRequest.namespaceHex
  accountStateVersion := 0
  nonce := List.replicate 64 '9'
  expiry := 1800

def payeeApproval : PaymentApproval := ⟨payeeIntent, "0x51".toList⟩

/-- The payer's wallet has signed the one intent. -/
def oneSignature : Viem where
  recoverTypedDataAddress typed signature :=
    if (paymentIntentTypedData payeeIntent 1).toOption = some typed ∧ signature = payeeApproval.signature then
      some payerAddress else none
  publicClient := none

def approvedStep : Payer → Event → Except PayError Payer :=
  step sampleCrypto sampleProver oneSignature PaymentRequests.servesAll

def boundProfile : BoundProfile := ⟨payerAddress, 1⟩

def approvedStart : Payer :=
  Payer.start sampleCrypto checkoutRequest.namespaceHex (some boundProfile) PaymentRequests.empty fundedWallet fundedLedger

def approvedPay (m : Moment) : Event := .pay (.profile payee) "intent-2".toList (some payeeApproval) m

def firstApproval : Moment := momentOf approvedStart 4 5

/-- A payment that is accepted, answered and saved. -/
def firstApproved : List Event := acceptance oneSignature approvedStart approvedPay firstApproval ++
  [.journal (.accepted (submitted oneSignature approvedStart approvedPay firstApproval) 0 1300), .journal .save]

def paid : Payer := exec approvedStep approvedStart firstApproved

/-- The approval of the first payment presented again. -/
def secondApproved : List Event := acceptance oneSignature paid approvedPay (momentOf paid 6 7)

lemma firstApproved_drawn : DrawnOnce sampleCrypto sampleProver oneSignature PaymentRequests.servesAll approvedStart
    firstApproved := by
  have hseen : (exec approvedStep approvedStart firstApproved).seen.Nodup := by decide +kernel
  exact hseen

lemma firstApproved_version : Along approvedStep (AtVersion sampleCrypto sampleProver oneSignature) approvedStart
    firstApproved :=
  ⟨fun hother => absurd rfl hother, trivial, trivial, trivial, trivial, trivial, trivial, trivial⟩

end Sample

end Peal.Links.Account
