import Peal.Links.Lineage

namespace Peal.Links.Account
open Peal.Fallible Peal.Runs

/-! # A checkout tried again -/

/-- The request and the intent a payment is for. -/
def Sent.order (x : Sent) : Option (Text × Text) :=
  if x.details.requestId = [] then none else some (x.details.requestId, x.intentId)

/-- The ledger has accepted at most one send for each request and intent. -/
def PaidOnce (s : Payer) : Prop := (s.accepted.filterMap Sent.order).Nodup

instance (s : Payer) : Decidable (PaidOnce s) := inferInstanceAs (Decidable (List.Nodup _))

/-- The wallet has recorded a send for the request and the intent. -/
def Recorded (s : Payer) (requestId intentId : Text) : Prop :=
  ∃ y ∈ s.sends, y.details.requestId = requestId ∧ y.intentId = intentId ∧
    y.opening ∈ s.journal.wallet.sentOpenings.map Prod.snd

/-- A payment whose send the wallet has recorded does not pass the checks once more. -/
def Anew (c : Crypto) (prover : Prover) (v : Viem) (s : Payer) : Event → Prop
  | .pay (.request r) intentId approval m => Recorded s r.manifest.requestId intentId →
    ∃ e, payUnlocked c prover v s.namespaceHex s.profile s.requests s.journal.wallet s.journal.ledger.inst (.request r)
      intentId approval m = .error e
  | _ => True

variable {c : Crypto} {prover : Prover} {v : Viem} {serves : Namespace → Bool} {first : Wallet} {s : Payer}
  {lines : List Line}

/-- The line has no request and intent twice. -/
def Line.PaysOnce (ℓ : Line) : Prop := ((ℓ.operations.filterMap id).filterMap Sent.order).Nodup

lemma paysOnce_plain {ℓ : Line} (com : Fr) (h : ℓ.PaysOnce) : Line.PaysOnce ⟨com, ℓ.operations ++ [none]⟩ := by
  have hsame : (ℓ.operations ++ [none]).filterMap id = ℓ.operations.filterMap id := by
    simp [List.filterMap_append]
  show (((ℓ.operations ++ [none]).filterMap id).filterMap Sent.order).Nodup
  rw [hsame]
  exact h

lemma order_eq_some {x : Sent} {requestId intentId : Text} (h : x.order = some (requestId, intentId)) :
    x.details.requestId = requestId ∧ x.intentId = intentId := by
  unfold Sent.order at h
  split_ifs at h
  exact Prod.mk.inj (Option.some.inj h)

lemma anew_keeps {event : Event} (h : Anew c prover v s event) :
    Keeps c prover v first Line.PaysOnce s lines event := by
  cases event with
  | pay target intentId approval m =>
    intro requests w x hpay ℓ hat hℓ hmembers
    obtain ⟨hdetails, hintent, -⟩ := payUnlocked_ok hpay
    have hsplit : ((ℓ.operations ++ [some x]).filterMap id).filterMap Sent.order =
        (ℓ.operations.filterMap id).filterMap Sent.order ++ x.order.toList := by
      cases horder : x.order <;> simp [List.filterMap_append, horder]
    show (((ℓ.operations ++ [some x]).filterMap id).filterMap Sent.order).Nodup
    rw [hsplit]
    cases target with
    | profile p =>
      have hnone : x.order = none := by
        simp only [targetDetails, bind_eq_ok, pure_eq_ok] at hdetails
        obtain ⟨-, -, -, -, hd⟩ := hdetails
        rw [Sent.order, ← hd]
        rfl
      rw [hnone, Option.toList_none, List.append_nil]
      exact hℓ
    | request r =>
      have hrequest : x.details.requestId = r.manifest.requestId := by
        simp only [targetDetails, bind_eq_ok, pure_eq_ok] at hdetails
        obtain ⟨-, -, -, -, -, -, -, -, hd⟩ := hdetails
        rw [← hd]
      -- the wallet standing at the line has the openings of all its payments
      have hunrecorded : ¬Recorded s r.manifest.requestId intentId := by
        intro hrecorded
        obtain ⟨e, he⟩ := h hrecorded
        rw [hpay] at he
        cases he
      refine List.nodup_append.mpr ⟨hℓ, by cases x.order <;> simp, ?_⟩
      rintro o ho _ ho' rfl
      obtain ⟨y, hy, hyo⟩ := List.mem_filterMap.mp ho
      have hin : some y ∈ ℓ.operations := by simpa using hy
      have hxo : x.order = some o := Option.mem_toList.mp ho'
      obtain ⟨hreq, hint⟩ := order_eq_some hyo
      obtain ⟨hreq', hint'⟩ := order_eq_some hxo
      exact hunrecorded ⟨y, hmembers y hin, hreq.trans (hreq'.symm.trans hrequest), hint.trans (hint'.symm.trans hintent),
        hat.recorded y hin⟩
  | _ => trivial

section Sample

def fundedWallet : Wallet := { sampleWallet with balance := 1000 }

/-- The ledger after the wallet's deposit was claimed. -/
def fundedLedger : Ledger :=
  sampleRegistered.updateAccount fundedWallet.account (fundedWallet.commitment sampleCrypto) 1

def checkoutManifest : RequestManifest :=
  { PaymentRequests.sampleManifest with namespaceId := 5, receiverAccount := accountId sampleCrypto 5 4 }

def checkoutRequest : PaymentRequest where
  manifest := checkoutManifest
  namespaceHex := hexEncode (Wire.array32 5)
  receiverAccount := frToHex (accountId sampleCrypto 5 4)
  receiverEncKey := hexEncode (Wire.array32 3)
  amount := "500".toList
  status := "active".toList

def checkoutRow : PaymentRequests.Row where
  namespaceId := 5
  ownerAddress := "0xaa".toList
  receiver := checkoutManifest.receiverAccount
  manifest := checkoutManifest
  status := .active
  fulfilledAt := none
  ack := none
  reservedBy := none
  reservedUntil := none
  createdAt := 1000
  updatedAt := 1000

def noViem : Viem := ⟨fun _ _ => none, none⟩

def checkoutStart : Payer :=
  Payer.start sampleCrypto checkoutRequest.namespaceHex none
    (PaymentRequests.empty.put PaymentRequests.sampleId checkoutRow) fundedWallet fundedLedger

/-- The circuit of a send to the request's receiver. -/
def circuitOf (s : Payer) (m : Moment) : OpCircuit :=
  match s.journal.wallet.prepareSend sampleCrypto sampleProver sampleInstance 500 checkoutManifest.receiverAccount m.root
      none m.prepared m.rNew m.rReceipt with
  | .ok (_, x) => x
  | .error _ => sampleCircuit

def momentOf (s : Payer) (rNew rReceipt : Fr) : Moment :=
  ⟨1200000, 1200000, 1200, 1200, s.journal.ledger.tree.root sampleCrypto, rNew, rReceipt⟩

/-- A payment from its checks to its submission. -/
def submission (s : Payer) (pay : Moment → Event) (m : Moment) : List Event :=
  [pay m, .journal (.prove 9 (circuitOf s m)), .journal .save, .journal .submit]

/-- The operation a payment submits. -/
def submitted (viem : Viem) (s : Payer) (pay : Moment → Event) (m : Moment) : OpEnvelope :=
  ((exec (step sampleCrypto sampleProver viem PaymentRequests.servesAll) s
    (submission s pay m)).journal.wallet.pending.bind PendingOp.envelope).getD sampleEnvelope

/-- The submitted operation is accepted. -/
def acceptance (viem : Viem) (s : Payer) (pay : Moment → Event) (m : Moment) : List Event :=
  submission s pay m ++ [.journal (.finalized (submitted viem s pay m))]

def checkoutStep : Payer → Event → Except PayError Payer :=
  step sampleCrypto sampleProver noViem PaymentRequests.servesAll

def checkout (m : Moment) : Event := .pay (.request checkoutRequest) "intent-1".toList none m

def firstMoment : Moment := momentOf checkoutStart 4 5

/-- The payment is accepted and its answer lost; the page is loaded again and reconciles. -/
def firstCheckout : List Event := acceptance noViem checkoutStart checkout firstMoment ++
  [.journal .crash, .journal .read, .journal (.settle 1300), .journal .save]

def reconciled : Payer := exec checkoutStep checkoutStart firstCheckout

def secondMoment : Moment := momentOf reconciled 6 7

/-- The same checkout once more, after the reconciliation. -/
def secondCheckout : List Event := acceptance noViem reconciled checkout secondMoment

lemma firstCheckout_drawn : DrawnOnce sampleCrypto sampleProver noViem PaymentRequests.servesAll checkoutStart
    firstCheckout := by
  have hseen : (exec checkoutStep checkoutStart firstCheckout).seen.Nodup := by decide +kernel
  exact hseen

lemma firstCheckout_anew : Along checkoutStep (Anew sampleCrypto sampleProver noViem) checkoutStart firstCheckout := by
  refine ⟨?_, trivial, trivial, trivial, trivial, trivial, trivial, trivial, trivial, trivial⟩
  rintro ⟨y, hy, -⟩
  cases hy

end Sample

end Peal.Links.Account
