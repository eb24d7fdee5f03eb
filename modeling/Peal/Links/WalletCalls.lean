import Peal.Links.Settlement
import Peal.Links.Delivery

namespace Peal.Links
open Peal.Fallible Peal.Runs

/-! # Runs of a wallet's own calls

With no second copy of the wallet and no answer under way: each call finds the wallet as the last one left
it. -/

inductive WalletCall where
  | markRegistered
  | prepareSend (amount : Nat) (recipient root : Fr) (reference : Option Text) (now : Nat) (rNew rReceipt : Fr)
  | prepareWithdrawal (amount : Nat) (root : Fr) (recipient : Text) (now : Nat) (rNew rReceipt : Fr)
  | prepareReceive (idx : Nat) (witness : ReceiptWitness) (now : Nat) (rNew rDummy : Fr)
  | provePending (keysCircuitId : Nat) (circuit : OpCircuit)
  | commitPending (position now : Nat)
  | abortPending
  | reconcile (ledgerCom : Fr) (position : Option Nat) (now : Nat)
  | addReceipt (position : Nat) (opening : ReceiptOpening) (reference : Option Text) (now : Nat)
  | verifyReceipt (idx : Nat) (witness : ReceiptWitness)
  | prepareDeposit (keysCircuitId amount : Nat) (reference : Option Text) (now : Nat) (randomness : Fr)
  | depositMinted (receipt : Fr) (position now : Nat)
  deriving DecidableEq, Repr

section Steps

variable (c : Crypto) (prover : Prover) (inst : Instance)

namespace Wallet

def create (circuitId : Nat) (namespaceId : Namespace) (pubkey : Nat) (randomness : Fr) : Wallet where
  circuitId := circuitId
  namespaceId := namespaceId
  pubkey := pubkey
  account := accountId c namespaceId pubkey
  balance := 0
  randomness := randomness
  claimed := ⟨inst.nullDepth, []⟩
  registered := false
  pending := none
  receipts := []
  history := []
  seq := 0
  knownRoots := []
  pendingDeposits := []
  sentOpenings := []

/-- A send to the burn identifier, with the EVM recipient as its reference. -/
def prepareWithdrawal (w : Wallet) (amount : Nat) (root : Fr) (recipient : Text) (now : Nat)
    (rNew rReceipt : Fr) : Except Error (Wallet × OpCircuit) := do
  require (isEvmAddress recipient = true) (.wallet "recipient is not an EVM address")
  w.prepareSend c prover inst amount (withdrawReceiver c) root
    (some ("withdraw:".toList ++ recipient.map Char.toLower)) now rNew rReceipt

end Wallet

def walletStep (w : Wallet) : WalletCall → Except Error Wallet
  | .markRegistered => .ok { w with registered := true }
  | .prepareSend amount recipient root reference now rNew rReceipt =>
    (w.prepareSend c prover inst amount recipient root reference now rNew rReceipt).map Prod.fst
  | .prepareWithdrawal amount root recipient now rNew rReceipt =>
    (w.prepareWithdrawal c prover inst amount root recipient now rNew rReceipt).map Prod.fst
  | .prepareReceive idx witness now rNew rDummy =>
    (w.prepareReceive c prover inst idx witness now rNew rDummy).map Prod.fst
  | .provePending keysCircuitId circuit => (w.provePending prover keysCircuitId circuit).map Prod.fst
  | .commitPending position now => w.commitPending position now
  | .abortPending => .ok w.abortPending
  | .reconcile ledgerCom position now => (w.reconcile c ledgerCom position now).map Prod.fst
  | .addReceipt position opening reference now => .ok (w.addReceipt c position opening reference now).1
  | .verifyReceipt idx witness => (w.verifyReceipt c idx witness).map Prod.fst
  | .prepareDeposit keysCircuitId amount reference now randomness => do
    require (keysCircuitId = w.circuitId) (.wallet "keys are for a different circuit")
    return (w.prepareDeposit c amount reference now randomness).1
  | .depositMinted receipt position now =>
    (expect (w.depositMinted c receipt position now) (.wallet "no such deposit")).map Prod.fst

end Steps

/-- The calls that resolve a pending operation. -/
def Settles : WalletCall → Prop
  | .commitPending .. | .abortPending | .reconcile .. => True
  | _ => False

/-- What no call changes while an operation is pending, but those that resolve it. -/
structure Holds (w w' : Wallet) : Prop where
  balance : w'.balance = w.balance
  claimed : w'.claimed = w.claimed
  randomness : w'.randomness = w.randomness
  pending : ∀ p, w.pending = some p → ∃ env, w'.pending = some { p with envelope := env }

variable {c : Crypto} {prover : Prover} {inst : Instance} {w w' : Wallet} {p : PendingOp}

namespace Holds

lemma refl (w : Wallet) : Holds w w := ⟨rfl, rfl, rfl, fun p hp => ⟨p.envelope, hp⟩⟩

lemma trans {w'' : Wallet} (h : Holds w w') (h' : Holds w' w'') : Holds w w'' := by
  refine ⟨h'.balance.trans h.balance, h'.claimed.trans h.claimed, h'.randomness.trans h.randomness, ?_⟩
  intro p hp
  obtain ⟨env, hp'⟩ := h.pending p hp
  obtain ⟨env', hp''⟩ := h'.pending _ hp'
  exact ⟨env', hp''⟩

lemma of_same (hbalance : w'.balance = w.balance) (hclaimed : w'.claimed = w.claimed)
    (hrandomness : w'.randomness = w.randomness) (hpending : w'.pending = w.pending) : Holds w w' :=
  ⟨hbalance, hclaimed, hrandomness, fun p hp => ⟨p.envelope, hpending.trans hp⟩⟩

lemma addReceipt (w : Wallet) (position : Nat) (opening : ReceiptOpening) (reference : Option Text) (now : Nat) :
    Holds w (w.addReceipt c position opening reference now).1 := by
  unfold Wallet.addReceipt
  split
  · exact refl w
  · exact of_same rfl rfl rfl rfl

lemma provePending {keysCircuitId : Nat} {x : OpCircuit} {env : OpEnvelope}
    (h : w.provePending prover keysCircuitId x = .ok (w', env)) : Holds w w' := by
  unfold Wallet.provePending at h
  simp only [bind_eq_ok, require_eq_ok, expect_eq_ok, pure_eq_ok, Prod.mk.injEq] at h
  obtain ⟨q, hq, -, -, -, -, rfl, -⟩ := h
  refine ⟨rfl, rfl, rfl, ?_⟩
  intro p hp
  obtain rfl := Option.some.inj (hq.symm.trans hp)
  exact ⟨_, rfl⟩

lemma depositMinted {receipt : Fr} {position now idx : Nat}
    (h : w.depositMinted c receipt position now = some (w', idx)) : Holds w w' := by
  unfold Wallet.depositMinted at h
  split at h
  · cases h
  · next i _ =>
    obtain ⟨d, -, hd⟩ := Option.map_eq_some_iff.mp h
    have hw' : w' = (Wallet.addReceipt c { w with pendingDeposits := w.pendingDeposits.eraseIdx i } position
        d.opening d.reference now).1 := (congrArg Prod.fst hd).symm
    have hremoved : Holds w { w with pendingDeposits := w.pendingDeposits.eraseIdx i } := of_same rfl rfl rfl rfl
    rw [hw']
    exact hremoved.trans (addReceipt _ _ _ _ _)

end Holds

lemma prepareSend_busy {amount : Nat} {recipient root : Fr} {reference : Option Text} {now : Nat}
    {rNew rReceipt : Fr} {x : OpCircuit} (hbusy : w.pending ≠ none)
    (h : w.prepareSend c prover inst amount recipient root reference now rNew rReceipt = .ok (w', x)) : False := by
  unfold Wallet.prepareSend Wallet.requireIdle at h
  simp only [bind_eq_ok, require_eq_ok] at h
  obtain ⟨-, hidle, -⟩ := h
  exact hbusy hidle

lemma prepareReceive_busy {idx : Nat} {witness : ReceiptWitness} {now : Nat} {rNew rDummy : Fr} {x : OpCircuit}
    (hbusy : w.pending ≠ none)
    (h : w.prepareReceive c prover inst idx witness now rNew rDummy = .ok (w', x)) : False := by
  unfold Wallet.prepareReceive Wallet.requireIdle at h
  simp only [bind_eq_ok, require_eq_ok] at h
  obtain ⟨-, hidle, -⟩ := h
  exact hbusy hidle

lemma walletStep_holds (hbusy : w.pending ≠ none) {call : WalletCall} (hcall : ¬Settles call)
    (h : walletStep c prover inst w call = .ok w') : Holds w w' := by
  cases call with
  | markRegistered =>
    cases h
    exact .of_same rfl rfl rfl rfl
  | prepareSend amount recipient root reference now rNew rReceipt =>
    obtain ⟨⟨w₁, x⟩, hprepare, -⟩ := exceptMap_eq_ok.mp h
    exact (prepareSend_busy hbusy hprepare).elim
  | prepareWithdrawal amount root recipient now rNew rReceipt =>
    obtain ⟨⟨w₁, x⟩, hprepare, -⟩ := exceptMap_eq_ok.mp h
    obtain ⟨-, -, hsend⟩ := bind_eq_ok.mp hprepare
    exact (prepareSend_busy hbusy hsend).elim
  | prepareReceive idx witness now rNew rDummy =>
    obtain ⟨⟨w₁, x⟩, hprepare, -⟩ := exceptMap_eq_ok.mp h
    exact (prepareReceive_busy hbusy hprepare).elim
  | provePending keysCircuitId circuit =>
    obtain ⟨⟨w₁, env⟩, hprove, rfl⟩ := exceptMap_eq_ok.mp h
    exact .provePending hprove
  | commitPending position now => exact (hcall trivial).elim
  | abortPending => exact (hcall trivial).elim
  | reconcile ledgerCom position now => exact (hcall trivial).elim
  | addReceipt position opening reference now =>
    cases h
    exact .addReceipt w position opening reference now
  | verifyReceipt idx witness =>
    obtain ⟨⟨w₁, ok⟩, hverify, rfl⟩ := exceptMap_eq_ok.mp h
    obtain ⟨r, -, -, hw₁⟩ := verifyReceipt_ok hverify
    rw [hw₁]
    exact .of_same rfl rfl rfl rfl
  | prepareDeposit keysCircuitId amount reference now randomness =>
    unfold walletStep at h
    simp only [bind_eq_ok, pure_eq_ok] at h
    obtain ⟨-, -, rfl⟩ := h
    exact .of_same rfl rfl rfl rfl
  | depositMinted receipt position now =>
    obtain ⟨⟨w₁, idx⟩, hminted, rfl⟩ := exceptMap_eq_ok.mp h
    exact .depositMinted (expect_eq_ok.mp hminted)

lemma holds_exec (hp : w.pending = some p) {calls : List WalletCall} (hcalls : ∀ call ∈ calls, ¬Settles call) :
    Holds w (exec (walletStep c prover inst) w calls) := by
  induction calls using List.reverseRecOn with
  | nil => exact .refl w
  | append_singleton calls call ih =>
    have hbefore := ih fun call hcall => hcalls call (List.mem_append_left _ hcall)
    obtain ⟨env, hpending⟩ := hbefore.pending p hp
    rw [exec_concat]
    apply advance_induct (walletStep c prover inst) hbefore
    intro w' hstep
    refine hbefore.trans (walletStep_holds ?_ (hcalls call (by simp)) hstep)
    rw [hpending]
    exact Option.some_ne_none _

/-! ## What every run keeps -/

/-- What a pending operation rests on. -/
def Rests (w : Wallet) (p : PendingOp) : Prop :=
  match p.kind with
  | .send amount _ _ _ => amount ≤ w.balance
  | .receive position amount => w.balance + amount < 2 ^ 64 ∧
    p.claimedAfter = some ⟨w.claimed.depth, w.claimed.positions ++ [position]⟩

/-- What holds of a wallet between its calls. -/
structure InOrder (c : Crypto) (w : Wallet) : Prop where
  commits : ∀ r ∈ w.receipts, r.receipt = receiptCommitment c r.opening
  bounded : w.balance < 2 ^ 64
  positions : (w.receipts.map (·.position)).Nodup
  marked : ∀ r ∈ w.receipts, r.status = .claimed → w.claimed.contains r.position = true
  pending : ∀ p, w.pending = some p → Rests w p

lemma Rests.of_same (h : Rests w p) (hbalance : w'.balance = w.balance) (hclaimed : w'.claimed = w.claimed)
    (env : Option OpEnvelope) : Rests w' { p with envelope := env } := by
  unfold Rests at h ⊢
  rw [hbalance, hclaimed]
  exact h

lemma setStatus_positions (w : Wallet) (idx : Nat) (st : ReceiptStatus) :
    (w.setStatus idx st).receipts.map (·.position) = w.receipts.map (·.position) := by
  apply List.ext_getElem?
  intro i
  unfold Wallet.setStatus
  rw [List.getElem?_map, List.getElem?_modify, List.getElem?_map]
  cases w.receipts[i]? with
  | none => rfl
  | some r =>
    simp only [Option.map_eq_map, Option.map_some]
    split <;> rfl

lemma mem_setStatus {idx : Nat} {st : ReceiptStatus} {r : HeldReceipt} (h : r ∈ (w.setStatus idx st).receipts) :
    r ∈ w.receipts ∨ ∃ r₀, w.receipts[idx]? = some r₀ ∧ r = { r₀ with status := st } := by
  obtain ⟨i, hi⟩ := List.mem_iff_getElem?.mp h
  unfold Wallet.setStatus at hi
  rw [List.getElem?_modify] at hi
  obtain ⟨r₀, hr₀, rfl⟩ := Option.map_eq_some_iff.mp hi
  by_cases hidx : idx = i
  · rw [if_pos hidx]
    exact .inr ⟨r₀, hidx ▸ hr₀, rfl⟩
  · rw [if_neg hidx]
    exact .inl (List.mem_of_getElem? hr₀)

lemma setStatusAt_eq (hpositions : (w.receipts.map (·.position)).Nodup) {idx : Nat} {r : HeldReceipt}
    (hr : w.receipts[idx]? = some r) (st : ReceiptStatus) : w.setStatusAt r.position st = w.setStatus idx st := by
  unfold Wallet.setStatusAt
  cases hfind : w.receipts.findIdx? (fun r' => r'.position = r.position) with
  | none =>
    have := List.findIdx?_eq_none_iff.mp hfind r (List.mem_of_getElem? hr)
    simp at this
  | some i =>
    obtain ⟨hi, hposition, -⟩ := List.findIdx?_eq_some_iff_getElem.mp hfind
    obtain ⟨hidx, rfl⟩ := List.getElem?_eq_some_iff.mp hr
    have hsame : i = idx := by
      have hi' : i < (w.receipts.map (·.position)).length := by simpa using hi
      have hidx' : idx < (w.receipts.map (·.position)).length := by simpa using hidx
      apply (@List.Nodup.getElem_inj_iff _ _ hpositions i hi' idx hidx').mp
      simpa using hposition
    rw [hsame]

lemma setStatusAt_cases (w : Wallet) (position : Nat) (st : ReceiptStatus) :
    w.setStatusAt position st = w ∨ ∃ idx r, w.receipts[idx]? = some r ∧ r.position = position ∧
      w.setStatusAt position st = w.setStatus idx st := by
  unfold Wallet.setStatusAt
  cases hfind : w.receipts.findIdx? (fun r => r.position = position) with
  | none => exact .inl rfl
  | some idx =>
    obtain ⟨hidx, hposition, -⟩ := List.findIdx?_eq_some_iff_getElem.mp hfind
    exact .inr ⟨idx, _, List.getElem?_eq_getElem hidx, of_decide_eq_true hposition, rfl⟩

namespace InOrder

lemma restatus (h : InOrder c w) (hcommits : ∀ r ∈ w'.receipts, r.receipt = receiptCommitment c r.opening)
    (hbounded : w'.balance < 2 ^ 64)
    (hpositions : w'.receipts.map (·.position) = w.receipts.map (·.position))
    (hmarked : ∀ r ∈ w'.receipts, r.status = .claimed → w'.claimed.contains r.position = true)
    (hpending : ∀ p, w'.pending = some p → Rests w' p) : InOrder c w' :=
  ⟨hcommits, hbounded, by rw [hpositions]; exact h.positions, hmarked, hpending⟩

lemma setStatus_commits (h : InOrder c w) (idx : Nat) (st : ReceiptStatus) :
    ∀ r ∈ (w.setStatus idx st).receipts, r.receipt = receiptCommitment c r.opening := by
  intro r hr
  rcases mem_setStatus hr with hold | ⟨r₀, hr₀, rfl⟩
  · exact h.commits r hold
  · exact h.commits r₀ (List.mem_of_getElem? hr₀)

lemma setStatus_marked (h : InOrder c w) {idx : Nat} {st : ReceiptStatus} {claimed : ClaimedSet}
    (hclaimed : ∀ q, w.claimed.contains q = true → claimed.contains q = true)
    (hst : st = .claimed → ∀ r, w.receipts[idx]? = some r → claimed.contains r.position = true) :
    ∀ r ∈ (w.setStatus idx st).receipts, r.status = .claimed → claimed.contains r.position = true := by
  intro r hr hstatus
  rcases mem_setStatus hr with hold | ⟨r₀, hr₀, rfl⟩
  · exact hclaimed _ (h.marked r hold hstatus)
  · exact hst hstatus r₀ hr₀

variable (c inst) in
lemma create (circuitId : Nat) (namespaceId : Namespace) (pubkey : Nat) (randomness : Fr) :
    InOrder c (Wallet.create c inst circuitId namespaceId pubkey randomness) :=
  ⟨fun r hr => absurd hr List.not_mem_nil, Nat.two_pow_pos 64, List.nodup_nil, fun r hr => absurd hr List.not_mem_nil, fun p hp => by cases hp⟩

lemma prepareSend (h : InOrder c w) {amount : Nat} {recipient root : Fr} {reference : Option Text} {now : Nat}
    {rNew rReceipt : Fr} {x : OpCircuit}
    (hprepare : w.prepareSend c prover inst amount recipient root reference now rNew rReceipt = .ok (w', x)) :
    InOrder c w' := by
  unfold Wallet.prepareSend Wallet.requireIdle at hprepare
  simp only [bind_eq_ok, require_eq_ok, pure_eq_ok, Prod.mk.injEq] at hprepare
  obtain ⟨-, -, -, -, -, henough, rfl, -⟩ := hprepare
  refine ⟨h.commits, h.bounded, h.positions, h.marked, ?_⟩
  intro p hp
  obtain rfl := Option.some.inj hp
  exact henough

lemma prepareReceive (h : InOrder c w) {idx : Nat} {witness : ReceiptWitness} {now : Nat} {rNew rDummy : Fr}
    {x : OpCircuit} (hprepare : w.prepareReceive c prover inst idx witness now rNew rDummy = .ok (w', x)) :
    InOrder c w' := by
  unfold Wallet.prepareReceive Wallet.requireIdle ClaimedSet.insert at hprepare
  simp only [bind_eq_ok, require_eq_ok, expect_eq_ok, pure_eq_ok, Prod.mk.injEq] at hprepare
  obtain ⟨-, -, -, -, held, -, -, -, -, -, -, -, -, hroom, ⟨after, insertion⟩, ⟨-, -, -, -, rfl, -⟩, rfl, -⟩ :=
    hprepare
  refine h.restatus (h.setStatus_commits idx .claiming) h.bounded (setStatus_positions w idx .claiming)
    (h.setStatus_marked (fun _ hq => hq) fun hst => by cases hst) ?_
  intro p hp
  obtain rfl := Option.some.inj hp
  exact ⟨hroom, rfl⟩

lemma provePending (h : InOrder c w) {keysCircuitId : Nat} {x : OpCircuit} {env : OpEnvelope}
    (hprove : w.provePending prover keysCircuitId x = .ok (w', env)) : InOrder c w' := by
  unfold Wallet.provePending at hprove
  simp only [bind_eq_ok, require_eq_ok, expect_eq_ok, pure_eq_ok, Prod.mk.injEq] at hprove
  obtain ⟨q, hq, -, -, -, -, rfl, -⟩ := hprove
  refine ⟨h.commits, h.bounded, h.positions, h.marked, ?_⟩
  intro p hp
  obtain rfl := Option.some.inj hp
  exact (h.pending q hq).of_same rfl rfl _

lemma committed (h : InOrder c w) (hp : w.pending = some p) (position now : Nat) :
    InOrder c (w.committed p position now) := by
  have hrests := h.pending p hp
  unfold Rests at hrests
  unfold Wallet.committed
  cases hkind : p.kind with
  | send amount recipient opening reference =>
    exact ⟨h.commits, lt_of_le_of_lt (Nat.sub_le _ _) h.bounded, h.positions, h.marked, fun q hq => by cases hq⟩
  | receive claimedPos amount =>
    rw [hkind] at hrests
    obtain ⟨hroom, hafter⟩ := hrests
    have hgrows : ∀ q, w.claimed.contains q = true → (p.claimedAfter.getD w.claimed).contains q = true := by
      intro q hq
      unfold ClaimedSet.contains at hq ⊢
      rw [hafter, Option.getD_some, List.contains_iff_mem, List.mem_append]
      exact .inl (List.contains_iff_mem.mp hq)
    have hnew : (p.claimedAfter.getD w.claimed).contains claimedPos = true := by
      unfold ClaimedSet.contains
      rw [hafter, Option.getD_some, List.contains_iff_mem, List.mem_append]
      exact .inr (List.mem_singleton_self _)
    dsimp only
    rcases setStatusAt_cases w claimedPos .claimed with hsame | ⟨idx, r, hr, rfl, hset⟩
    · rw [hsame]
      exact h.restatus h.commits hroom rfl (fun r hr hst => hgrows _ (h.marked r hr hst)) fun q hq => by cases hq
    · rw [hset]
      refine h.restatus (h.setStatus_commits idx .claimed) hroom (setStatus_positions w idx .claimed) (h.setStatus_marked hgrows ?_)
        fun q hq => by cases hq
      intro _ r' hr'
      obtain rfl := Option.some.inj (hr.symm.trans hr')
      exact hnew

lemma abortPending (h : InOrder c w) : InOrder c w.abortPending := by
  unfold Wallet.abortPending
  split
  · rename_i position amount _ _ _ _ _ _ _ _ _
    rcases setStatusAt_cases w position .unclaimed with hsame | ⟨idx, r, hr, rfl, hset⟩
    · rw [hsame]
      exact ⟨h.commits, h.bounded, h.positions, h.marked, fun q hq => by cases hq⟩
    · rw [hset]
      exact h.restatus (h.setStatus_commits idx .unclaimed) h.bounded (setStatus_positions w idx .unclaimed)
        (h.setStatus_marked (fun _ hq => hq) fun hst => by cases hst) fun q hq => by cases hq
  · exact ⟨h.commits, h.bounded, h.positions, h.marked, fun q hq => by cases hq⟩

lemma addReceipt (h : InOrder c w) (position : Nat) (opening : ReceiptOpening) (reference : Option Text)
    (now : Nat) : InOrder c (w.addReceipt c position opening reference now).1 := by
  unfold Wallet.addReceipt
  cases hfind : w.receipts.findIdx? (fun r => r.position = position) with
  | some i => exact h
  | none =>
    have hfresh : ∀ r ∈ w.receipts, r.position ≠ position := by
      intro r hr
      have := List.findIdx?_eq_none_iff.mp hfind r hr
      exact of_decide_eq_false this
    refine ⟨?_, h.bounded, ?_, ?_, h.pending⟩
    · intro r hr
      rcases List.mem_append.mp hr with hold | hnew
      · exact h.commits r hold
      · rw [List.mem_singleton.mp hnew]
    · show ((w.receipts ++ [_]).map _).Nodup
      rw [List.map_append, List.nodup_append]
      refine ⟨h.positions, List.nodup_singleton _, ?_⟩
      intro q hq q' hq'
      obtain ⟨r, hr, rfl⟩ := List.mem_map.mp hq
      rw [List.map_singleton, List.mem_singleton] at hq'
      rw [hq']
      exact hfresh r hr
    · intro r hr hstatus
      rcases List.mem_append.mp hr with hold | hnew
      · exact h.marked r hold hstatus
      · rw [List.mem_singleton.mp hnew] at hstatus
        cases hstatus

lemma verifyReceipt (h : InOrder c w) {idx : Nat} {witness : ReceiptWitness} {ok : Bool}
    (hverify : w.verifyReceipt c idx witness = .ok (w', ok)) : InOrder c w' := by
  unfold Wallet.verifyReceipt at hverify
  simp only [bind_eq_ok, expect_eq_ok] at hverify
  obtain ⟨r, -, hverify⟩ := hverify
  by_cases hv : w.receiptVerifies c r witness = true
  · rw [if_pos hv, pure_eq_ok, Prod.mk.injEq] at hverify
    obtain ⟨rfl, -⟩ := hverify
    exact h.restatus (h.setStatus_commits idx .unclaimed) h.bounded (setStatus_positions w idx .unclaimed)
      (h.setStatus_marked (fun _ hq => hq) fun hst => by cases hst) h.pending
  · rw [if_neg hv, pure_eq_ok, Prod.mk.injEq] at hverify
    obtain ⟨rfl, -⟩ := hverify
    exact h.restatus (h.setStatus_commits idx .invalid) h.bounded (setStatus_positions w idx .invalid)
      (h.setStatus_marked (fun _ hq => hq) fun hst => by cases hst) h.pending

lemma depositMinted (h : InOrder c w) {receipt : Fr} {position now idx : Nat}
    (hminted : w.depositMinted c receipt position now = some (w', idx)) : InOrder c w' := by
  unfold Wallet.depositMinted at hminted
  split at hminted
  · cases hminted
  · next i _ =>
    obtain ⟨d, -, hd⟩ := Option.map_eq_some_iff.mp hminted
    have hw' : w' = (Wallet.addReceipt c { w with pendingDeposits := w.pendingDeposits.eraseIdx i } position
        d.opening d.reference now).1 := (congrArg Prod.fst hd).symm
    have hremoved : InOrder c { w with pendingDeposits := w.pendingDeposits.eraseIdx i } :=
      ⟨h.commits, h.bounded, h.positions, h.marked, h.pending⟩
    rw [hw']
    exact hremoved.addReceipt _ _ _ _

lemma commitPending (h : InOrder c w) {position now : Nat} (hcommit : w.commitPending position now = .ok w') :
    InOrder c w' := by
  unfold Wallet.commitPending at hcommit
  simp only [bind_eq_ok, expect_eq_ok, pure_eq_ok] at hcommit
  obtain ⟨p, hp, rfl⟩ := hcommit
  exact h.committed hp position now

lemma reconcile (h : InOrder c w) {ledgerCom : Fr} {position : Option Nat} {now : Nat} {result : Reconciled}
    (hreconcile : w.reconcile c ledgerCom position now = .ok (w', result)) : InOrder c w' := by
  unfold Wallet.reconcile at hreconcile
  split at hreconcile
  · cases hreconcile
    exact h
  · split_ifs at hreconcile
    · simp only [bind_eq_ok, expect_eq_ok, pure_eq_ok, Prod.mk.injEq] at hreconcile
      obtain ⟨pos, -, w₁, hcommit, rfl, -⟩ := hreconcile
      exact h.commitPending hcommit
    · cases hreconcile
      exact h.abortPending
    · cases hreconcile
      exact h

lemma step (h : InOrder c w) {call : WalletCall} (hstep : walletStep c prover inst w call = .ok w') :
    InOrder c w' := by
  cases call with
  | markRegistered =>
    cases hstep
    exact ⟨h.commits, h.bounded, h.positions, h.marked, h.pending⟩
  | prepareSend amount recipient root reference now rNew rReceipt =>
    obtain ⟨⟨w₁, x⟩, hprepare, rfl⟩ := exceptMap_eq_ok.mp hstep
    exact h.prepareSend hprepare
  | prepareWithdrawal amount root recipient now rNew rReceipt =>
    obtain ⟨⟨w₁, x⟩, hprepare, rfl⟩ := exceptMap_eq_ok.mp hstep
    obtain ⟨-, -, hsend⟩ := bind_eq_ok.mp hprepare
    exact h.prepareSend hsend
  | prepareReceive idx witness now rNew rDummy =>
    obtain ⟨⟨w₁, x⟩, hprepare, rfl⟩ := exceptMap_eq_ok.mp hstep
    exact h.prepareReceive hprepare
  | provePending keysCircuitId circuit =>
    obtain ⟨⟨w₁, env⟩, hprove, rfl⟩ := exceptMap_eq_ok.mp hstep
    exact h.provePending hprove
  | commitPending position now => exact h.commitPending hstep
  | abortPending =>
    cases hstep
    exact h.abortPending
  | reconcile ledgerCom position now =>
    obtain ⟨⟨w₁, result⟩, hreconcile, rfl⟩ := exceptMap_eq_ok.mp hstep
    exact h.reconcile hreconcile
  | addReceipt position opening reference now =>
    cases hstep
    exact h.addReceipt position opening reference now
  | verifyReceipt idx witness =>
    obtain ⟨⟨w₁, ok⟩, hverify, rfl⟩ := exceptMap_eq_ok.mp hstep
    exact h.verifyReceipt hverify
  | prepareDeposit keysCircuitId amount reference now randomness =>
    unfold walletStep at hstep
    simp only [bind_eq_ok, pure_eq_ok] at hstep
    obtain ⟨-, -, rfl⟩ := hstep
    exact ⟨h.commits, h.bounded, h.positions, h.marked, h.pending⟩
  | depositMinted receipt position now =>
    obtain ⟨⟨w₁, idx⟩, hminted, rfl⟩ := exceptMap_eq_ok.mp hstep
    exact h.depositMinted (expect_eq_ok.mp hminted)

end InOrder

variable (c prover inst) in
lemma inOrder_exec (circuitId : Nat) (namespaceId : Namespace) (pubkey : Nat) (randomness : Fr)
    (calls : List WalletCall) :
    InOrder c (exec (walletStep c prover inst) (Wallet.create c inst circuitId namespaceId pubkey randomness) calls) :=
  exec_invariant _ (fun _ _ _ h hstep => h.step hstep) (.create c inst circuitId namespaceId pubkey randomness) calls

/-! ## What comes of a prepared operation -/

/-- `w'` holds the operation `p` that was prepared in `w`: accepted, it leaves a wallet of that balance that
opens the new commitment; dropped, it leaves what `w` had. -/
structure ComesTo (c : Crypto) (w w' : Wallet) (p : PendingOp) (balance : Nat) : Prop where
  untouched : w'.balance = w.balance ∧ w'.claimed = w.claimed ∧ w'.randomness = w.randomness
  accepted : ∀ position now, ∃ w'', w'.commitPending position now = .ok w'' ∧ w''.pending = none ∧
    w''.commitment c = p.comNew ∧ w''.balance = balance
  dropped : w'.abortPending.pending = none ∧ w'.abortPending.balance = w.balance ∧
    w'.abortPending.claimed = w.claimed ∧ w'.abortPending.randomness = w.randomness

lemma setStatusAt_fields (w : Wallet) (position : Nat) (st : ReceiptStatus) :
    (w.setStatusAt position st).balance = w.balance ∧ (w.setStatusAt position st).claimed = w.claimed ∧
      (w.setStatusAt position st).randomness = w.randomness := by
  rcases setStatusAt_cases w position st with hsame | ⟨idx, -, -, -, hset⟩
  · rw [hsame]
    exact ⟨rfl, rfl, rfl⟩
  · rw [hset]
    exact ⟨rfl, rfl, rfl⟩

lemma abortPending_fields (w : Wallet) : w.abortPending.pending = none ∧ w.abortPending.balance = w.balance ∧
    w.abortPending.claimed = w.claimed ∧ w.abortPending.randomness = w.randomness := by
  unfold Wallet.abortPending
  split
  · exact ⟨rfl, setStatusAt_fields w _ .unclaimed⟩
  · exact ⟨rfl, rfl, rfl, rfl⟩

/-- The balance that a pending operation leads to. -/
def Wallet.balanceAfter (w : Wallet) (p : PendingOp) : Nat :=
  match p.kind with
  | .send amount _ _ _ => w.balance - amount
  | .receive _ amount => w.balance + amount

lemma committed_fields (w : Wallet) (p : PendingOp) (position now : Nat) :
    (w.committed p position now).pending = none ∧ (w.committed p position now).balance = w.balanceAfter p := by
  unfold Wallet.committed Wallet.balanceAfter
  cases p.kind with
  | send amount recipient opening reference => exact ⟨rfl, rfl⟩
  | receive claimedPos amount => exact ⟨rfl, rfl⟩

lemma Holds.comesTo (h : Holds w w') (hp : w.pending = some p)
    (hopening : ∀ position now, (w.committed p position now).commitment c = p.comNew) :
    ComesTo c w w' p (w.balanceAfter p) := by
  obtain ⟨env, hpending⟩ := h.pending p hp
  have hbalance : w'.balanceAfter { p with envelope := env } = w.balanceAfter p := by
    unfold Wallet.balanceAfter
    rw [h.balance]
  have hcommitment : ∀ position now, (w'.committed { p with envelope := env } position now).commitment c =
      (w.committed p position now).commitment c := by
    intro position now
    rw [commitment_committed, commitment_committed, h.balance, h.claimed]
  refine ⟨⟨h.balance, h.claimed, h.randomness⟩, ?_, ?_⟩
  · intro position now
    obtain ⟨hidle, hafter⟩ := committed_fields w' { p with envelope := env } position now
    refine ⟨w'.committed { p with envelope := env } position now, ?_, hidle, ?_, hafter.trans hbalance⟩
    · unfold Wallet.commitPending
      rw [hpending]
      rfl
    · exact (hcommitment position now).trans (hopening position now)
  · obtain ⟨hidle, hsame, hclaimed, hrandomness⟩ := abortPending_fields w'
    exact ⟨hidle, hsame.trans h.balance, hclaimed.trans h.claimed, hrandomness.trans h.randomness⟩

lemma abortPending_proved {keysCircuitId : Nat} {x : OpCircuit} {env : OpEnvelope}
    (h : w.provePending prover keysCircuitId x = .ok (w', env)) : w'.abortPending = w.abortPending := by
  unfold Wallet.provePending at h
  simp only [bind_eq_ok, require_eq_ok, expect_eq_ok, pure_eq_ok, Prod.mk.injEq] at h
  obtain ⟨q, hq, -, -, -, -, rfl, -⟩ := h
  unfold Wallet.abortPending
  rw [hq]
  obtain ⟨kind, comOld, comNew, rNew, receiptOut, root, claimedAfter, envelope, createdAt⟩ := q
  cases kind with
  | send amount recipient opening reference => rfl
  | receive position amount =>
    dsimp only
    unfold Wallet.setStatusAt
    dsimp only
    cases w.receipts.findIdx? (fun r => r.position = position) <;> rfl

lemma prepareSend_spec (hs : prover.Sound c) {amount : Nat} {recipient root : Fr} {reference : Option Text}
    {now : Nat} {rNew rReceipt : Fr} {x : OpCircuit}
    (h : w.prepareSend c prover inst amount recipient root reference now rNew rReceipt = .ok (w', x)) :
    amount ≤ w.balance ∧ w'.abortPending = w ∧ ∃ p, Prepared c w w' p ∧ Holds w w' ∧
      w'.balanceAfter p = w.balance - amount := by
  obtain ⟨p, hp⟩ := prepareSend_ok hs h
  unfold Wallet.prepareSend Wallet.requireIdle at h
  simp only [bind_eq_ok, require_eq_ok, pure_eq_ok, Prod.mk.injEq] at h
  obtain ⟨-, hidle, -, -, -, henough, rfl, -⟩ := h
  refine ⟨henough, ?_, p, hp, ⟨rfl, rfl, rfl, fun q hq => absurd (hidle.symm.trans hq) (by simp)⟩, ?_⟩
  · obtain ⟨circuitId, namespaceId, pubkey, account, balance, randomness, claimed, registered, pending⟩ := w
    obtain rfl : pending = none := hidle
    rfl
  · obtain rfl := Option.some.inj hp.pending
    rfl

lemma prepareReceive_spec (hs : prover.Sound c) (hpositions : (w.receipts.map (·.position)).Nodup) {idx : Nat}
    {witness : ReceiptWitness} {now : Nat} {rNew rDummy : Fr} {x : OpCircuit}
    (h : w.prepareReceive c prover inst idx witness now rNew rDummy = .ok (w', x)) :
    ∃ held, w.receipts[idx]? = some held ∧ w.balance + held.opening.amount < 2 ^ 64 ∧
      w'.abortPending = w.setStatus idx .unclaimed ∧ ∃ p, Prepared c w w' p ∧ Holds w w' ∧
      w'.balanceAfter p = w.balance + held.opening.amount := by
  obtain ⟨p, hp⟩ := prepareReceive_ok hs h
  unfold Wallet.prepareReceive Wallet.requireIdle at h
  simp only [bind_eq_ok, require_eq_ok, expect_eq_ok, pure_eq_ok, Prod.mk.injEq] at h
  obtain ⟨-, hidle, -, -, held, hheld, -, -, -, -, -, -, -, hroom, ⟨after, insertion⟩, -, rfl, -⟩ := h
  refine ⟨held, hheld, hroom, ?_, p, hp, ⟨rfl, rfl, rfl, fun q hq => absurd (hidle.symm.trans hq) (by simp)⟩, ?_⟩
  · generalize hw' : ({ w.setStatus idx .claiming with pending := some _ } : Wallet) = w'
    have hmarked : w'.receipts[idx]? = some { held with status := .claiming } := by
      rw [← hw']
      show (w.receipts.modify idx _)[idx]? = _
      rw [List.getElem?_modify, hheld]
      simp
    have hnodup : (w'.receipts.map (·.position)).Nodup := by
      rw [← hw']
      show ((w.setStatus idx .claiming).receipts.map _).Nodup
      rw [setStatus_positions]
      exact hpositions
    have hset : w'.setStatusAt held.position .unclaimed = w'.setStatus idx .unclaimed :=
      setStatusAt_eq hnodup hmarked .unclaimed
    have habort : w'.abortPending = { w'.setStatusAt held.position .unclaimed with pending := none } := by
      rw [← hw']
      rfl
    have hreceipts : (w'.setStatus idx .unclaimed).receipts = (w.setStatus idx .unclaimed).receipts := by
      rw [← hw']
      exact List.modify_modify_eq _ _ _ _
    obtain ⟨circuitId, namespaceId, pubkey, account, balance, randomness, claimed, registered, pending⟩ := w
    obtain rfl : pending = none := hidle
    rw [habort, hset, ← hw']
    rw [← hw'] at hreceipts
    exact congrArg (fun receipts => Wallet.mk circuitId namespaceId pubkey account balance randomness claimed
      registered none receipts _ _ _ _ _) hreceipts
  · obtain rfl := Option.some.inj hp.pending
    rfl

lemma Prepared.comesTo (hp : Prepared c w w' p) (hkept : Holds w w') {calls : List WalletCall}
    (hcalls : ∀ call ∈ calls, ¬Settles call) :
    ComesTo c w (exec (walletStep c prover inst) w' calls) p (w'.balanceAfter p) := by
  have hopening : ∀ position now, (w'.committed p position now).commitment c = p.comNew := hp.opening
  have hholds : Holds w' (exec (walletStep c prover inst) w' calls) := holds_exec hp.pending hcalls
  have hend := hholds.comesTo hp.pending hopening
  obtain ⟨⟨hbalance, hclaimed, hrandomness⟩, haccepted, hidle, hsame, hclaimed', hrandomness'⟩ := hend
  exact ⟨⟨hbalance.trans hkept.balance, hclaimed.trans hkept.claimed, hrandomness.trans hkept.randomness⟩,
    haccepted, hidle, hsame.trans hkept.balance, hclaimed'.trans hkept.claimed,
    hrandomness'.trans hkept.randomness⟩

/-- In every wallet that calls lead to: an operation prepared in it comes to what it was prepared for, with
whatever calls in between, balances stay within 64 bits, and dropping the operation gives the wallet back, but
for the status of a receipt that was to be claimed. -/
theorem journal_resolves (hs : prover.Sound c) (circuitId : Nat) (namespaceId : Namespace) (pubkey : Nat)
    (randomness : Fr) (calls : List WalletCall) :
    let w := exec (walletStep c prover inst) (.create c inst circuitId namespaceId pubkey randomness) calls
    w.balance < 2 ^ 64 ∧
      (∀ amount recipient root reference now rNew rReceipt w₁ x,
        w.prepareSend c prover inst amount recipient root reference now rNew rReceipt = .ok (w₁, x) →
        amount ≤ w.balance ∧ w₁.abortPending = w ∧
        (∀ key x' w₂ env, w₁.provePending prover key x' = .ok (w₂, env) → w₂.abortPending = w) ∧
        ∃ p, w₁.pending = some p ∧ ∀ during, (∀ call ∈ during, ¬Settles call) →
          ComesTo c w (exec (walletStep c prover inst) w₁ during) p (w.balance - amount)) ∧
      (∀ idx witness now rNew rDummy w₁ x,
        w.prepareReceive c prover inst idx witness now rNew rDummy = .ok (w₁, x) →
        ∃ held, w.receipts[idx]? = some held ∧ w.balance + held.opening.amount < 2 ^ 64 ∧
        w₁.abortPending = w.setStatus idx .unclaimed ∧
        (∀ key x' w₂ env, w₁.provePending prover key x' = .ok (w₂, env) →
          w₂.abortPending = w.setStatus idx .unclaimed) ∧
        ∃ p, w₁.pending = some p ∧ ∀ during, (∀ call ∈ during, ¬Settles call) →
          ComesTo c w (exec (walletStep c prover inst) w₁ during) p (w.balance + held.opening.amount)) := by
  intro w
  have hw : InOrder c w := inOrder_exec c prover inst circuitId namespaceId pubkey randomness calls
  refine ⟨hw.bounded, ?_, ?_⟩
  · intro amount recipient root reference now rNew rReceipt w₁ x hprepare
    obtain ⟨henough, habort, p, hp, hkept, hbalance⟩ := prepareSend_spec hs hprepare
    refine ⟨henough, habort, fun key x' w₂ env hprove => (abortPending_proved hprove).trans habort, p, hp.pending, ?_⟩
    intro during hduring
    rw [← hbalance]
    exact hp.comesTo hkept hduring
  · intro idx witness now rNew rDummy w₁ x hprepare
    obtain ⟨held, hheld, hroom, habort, p, hp, hkept, hbalance⟩ := prepareReceive_spec hs hw.positions hprepare
    refine ⟨held, hheld, hroom, habort, fun key x' w₂ env hprove => (abortPending_proved hprove).trans habort, p,
      hp.pending, ?_⟩
    intro during hduring
    rw [← hbalance]
    exact hp.comesTo hkept hduring

/-! ### A dropped claim -/

/-- The wallet has been sent the opening of a receipt that it has not verified. -/
def sentCalls : List WalletCall := [.markRegistered, .addReceipt 0 samplePayment none 1]

def sentWallet : Wallet :=
  exec (walletStep sampleCrypto sampleProver sampleInstance)
    (.create sampleCrypto sampleInstance 9 5 7 3) sentCalls

def sentWitness : ReceiptWitness :=
  let leaves := [receiptCommitment sampleCrypto samplePayment]
  let path := AppendTree.pathAt (treeNode sampleCrypto) 0 leaves 1 2 0
  ⟨⟨path.map Prod.fst, path.map Prod.snd⟩, AppendTree.nodeAt (treeNode sampleCrypto) 0 leaves 1 2 0⟩

def sentClaim : Except Error (Wallet × OpCircuit) :=
  sentWallet.prepareReceive sampleCrypto sampleProver sampleInstance 0 sentWitness 2 4 5

theorem journal_resolves_sample : ∃ w x held, sentClaim = .ok (w, x) ∧ sentWallet.receipts[0]? = some held ∧
    sentWallet.balance + held.opening.amount < 2 ^ 64 ∧
    w.abortPending = sentWallet.setStatus 0 .unclaimed := by
  have hclaim : (sentClaim.map fun _ => ()) = .ok () := by decide +kernel
  obtain ⟨⟨w, x⟩, hprepared, -⟩ := exceptMap_eq_ok.mp hclaim
  obtain ⟨held, hheld, hroom, habort, -⟩ :=
    (journal_resolves sampleProver_sound 9 5 7 3 sentCalls).2.2 0 sentWitness 2 4 5 w x hprepared
  exact ⟨w, x, held, hprepared, hheld, hroom, habort⟩

/-- The receipt was only discovered when its claim was prepared, and counts as verified when it is dropped. -/
theorem abort_forgets_status : (sentWallet.receipts.map (·.status)) = [.discovered] ∧
    ∃ w x w' env, sentClaim = .ok (w, x) ∧ w.provePending sampleProver 9 x = .ok (w', env) ∧
      w'.abortPending.receipts.map (·.status) = [.unclaimed] ∧ w'.abortPending ≠ sentWallet := by
  have hrun : sentWallet.receipts.map (·.status) = [.discovered] ∧
      ((sentClaim.bind fun r => r.1.provePending sampleProver 9 r.2).map fun r =>
        r.1.abortPending.receipts.map (·.status)) = .ok [.unclaimed] := by
    decide +kernel
  obtain ⟨hbefore, hafter⟩ := hrun
  obtain ⟨⟨w', env⟩, hproved, hstatus⟩ := exceptMap_eq_ok.mp hafter
  obtain ⟨⟨w, x⟩, hprepared, hprove⟩ := bind_eq_ok.mp hproved
  refine ⟨hbefore, w, x, w', env, hprepared, hprove, hstatus, ?_⟩
  intro hsame
  rw [hsame, hbefore] at hstatus
  cases hstatus

end Peal.Links
