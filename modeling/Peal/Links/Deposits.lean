import Peal.Links.Recorded

namespace Peal.Links
open Peal.Fallible Peal.Programs Peal.Programs.Prog Peal.Runs

/-! # The deposits of a node: its product store next to its ledger -/

structure Books where
  product : Product
  ledger : Ledger
  deriving DecidableEq, Repr

/-- What becomes of a mint that is submitted: it is answered, or the wait for its answer ends or is cut off,
the ledger having processed it or not. -/
inductive MintFate where
  | answered
  | timedOut (processed : Bool)
  | crashed (processed : Bool)
  deriving DecidableEq, Repr

def timeoutError : Error := .storage "consensus did not finalize the operation in time"

namespace Books

variable (c : Crypto)

/-- The ledger after it has processed a mint, accepted or not. -/
def processed (b : Books) (env : MintEnvelope) : Books :=
  match b.ledger.mint c env with
  | .ok (l, _) => { b with ledger := l }
  | .error _ => b

def submitMint (fate : MintFate) (env : MintEnvelope) : Prog Books Error Nat := fun b =>
  match fate with
  | .answered =>
    match b.ledger.mint c env with
    | .ok (l, r) => (.done r.position, { b with ledger := l })
    | .error e => (.failed e, b)
  | .timedOut p => (.failed timeoutError, if p = true then b.processed c env else b)
  | .crashed p => (.crashed, if p = true then b.processed c env else b)

def updateProduct {ε : Type} (f : Product → Product) : Prog Books ε Unit :=
  modify fun b => { b with product := f b.product }

variable (a : Answers) (ns : NamespaceConfig)

def creditIntent (fate : MintFate) (receipt : Fr) (depositId : Text) : Prog Books Problem Nat := do
  rescue (answer (a.store (.intentStatus depositId))) fun e => fail (.internal e)
  let b ← get
  match b.product.intentRow (frToHex receipt) with
  | none => fail ⟨"unknown_intent", "no registered intent for this receipt".toList⟩
  | some row =>
    if row.status = .pending then do
      let position ← rescue (submitMint c fate ⟨row.intent, depositId⟩) fun e => fail (.ofError e)
      rescue (answer (a.store (.markMinted depositId))) fun e => fail (.internal e)
      updateProduct (·.markMinted (frToHex receipt) depositId position)
      return position
    else fail ⟨"already_minted", "this intent was already credited".toList⟩

def credit (fate : MintFate) (receiptLe depositId : Text) (amount : Nat) : Prog Books Text Bool := do
  answer (a.store (.intentOf depositId))
  let b ← get
  match b.product.intentOf receiptLe with
  | none => return false
  | some intent =>
    if intent.amount = amount then
      match frFromHex receiptLe with
      | none => fail "bad receipt".toList
      | some receipt =>
        rescue (do let _ ← creditIntent c a fate receipt depositId; return true) fun p =>
          if p.code = "already_minted" then fail "already credited".toList else fail p.detail
    else fail ("wrong_amount: chain ".toList ++ Nat.toDigits 10 amount ++ ", intent ".toList ++
      Nat.toDigits 10 intent.amount)

def judgeCredit (fate : MintFate) (ev : DepositEvent) : Prog Books Text (Option DepositStatus) :=
  rescue
    (do
      let credited ← credit c a fate ev.receiptHex (ev.depositId ns.chainId) ev.amount
      return if credited then some .credited else some .unregistered)
    fun e =>
      if contains e "wrong_amount".toList then return some .wrongAmount
      else if contains e "already".toList then return some .credited
      else return none

def judge (fate : MintFate) (ev : DepositEvent) : Prog Books Text (Option DepositStatus) :=
  if ev.token ≠ toLowercase ns.tokenAddress then return some .wrongToken
  else if frFromHex ev.receiptHex = none then return some .badReceipt
  else judgeCredit c a ns fate ev

/-- What the watcher does with one deposit log of the range it scans. -/
def scanDeposit (fate : MintFate) (log : Log) : Prog Books Text Unit :=
  if log.removed = true then return ()
  else match decodeDeposit log with
  | .error _ => return ()
  | .ok ev => do
    match ← judge c a ns fate ev with
    | none => return ()
    | some status => do
      let depositId := ev.depositId ns.chainId
      answer (a.store (.observe depositId))
      updateProduct (·.observe ⟨depositId, ev.receiptHex, ev.amount, ev.sender, ev.token, ev.blockNumber, status⟩)

inductive Action where
  | registerIntent (a : Answers) (intent : DepositIntent)
  | deposit (a : Answers) (fate : MintFate) (log : Log)
  | devMint (a : Answers) (fate : MintFate) (receipt : Fr) (depositId : Text)
  | ledger (envelope : Envelope)
  | restart

variable (namespaceId circuitId : Nat)

/-- A request, a deposit the watcher comes to, or an envelope that reaches the ledger another way. Whatever
fails or crashes leaves what was written before. -/
def step (b : Books) : Action → Except Problem Books
  | .registerIntent a intent => .ok { b with product := (registerIntent a c namespaceId circuitId intent b.product).2 }
  | .deposit a fate log => .ok (scanDeposit c a ns fate log b).2
  | .devMint a fate receipt depositId => .ok (creditIntent c a fate receipt depositId b).2
  | .ledger envelope =>
    match b.ledger.transition c envelope with
    | .ok (l, _) => .ok { b with ledger := l }
    | .error e => .error (.ofError e)
  | .restart => .ok b

def start (inst : Instance) (cfg : LedgerConfig) : Books := ⟨Product.empty, Ledger.fresh c inst cfg⟩

end Books

section Mirrored

variable {c : Crypto} {a : Answers} {ns : NamespaceConfig} {l : Ledger}

/-- The ledger's answers to the mints the watcher submits. -/
def Books.answering (c : Crypto) (a : Answers) (fate : MintFate) (l : Ledger) : Answers :=
  { a with mint := fun env => (Books.submitMint c fate env ⟨Product.empty, l⟩).1 }

namespace Books

lemma submitMint_mirrors (fate : MintFate) (env : MintEnvelope) :
    Mirrors product id (fun b => b.ledger = l) (submitMint c fate env) (answer ((answering c a fate l).mint env))
      fun _ => True := by
  refine ⟨?_, ?_, fun _ _ => trivial⟩
  · rintro b rfl
    unfold answering submitMint answer
    dsimp only
    cases fate with
    | answered => cases b.ledger.mint c env <;> rfl
    | timedOut p => rfl
    | crashed p => rfl
  · rintro b rfl
    have hprocessed : (b.processed c env).product = b.product := by
      unfold processed
      cases b.ledger.mint c env <;> rfl
    unfold submitMint answer
    cases fate with
    | answered => cases b.ledger.mint c env <;> rfl
    | timedOut p => cases p <;> simp [hprocessed]
    | crashed p => cases p <;> simp [hprocessed]

lemma updateProduct_mirrors {ε : Type} {P : Books → Prop} (f : Product → Product) :
    Mirrors product id P (updateProduct f : Prog Books ε Unit) (modify f) fun _ => True :=
  mirrors_modify fun _ _ => ⟨rfl, trivial⟩

lemma asked_mirrors {P : Books → Prop} (op : Statement) (fate : MintFate) :
    Mirrors product id P (rescue (answer (a.store op)) fun e => fail (.internal e) : Prog Books Problem Unit)
      (rescue (answer ((answering c a fate l).store op)) fun e => fail (.internal e)) P :=
  mirrors_rescue (mirrors_answer _) fun _ => mirrors_fail _

lemma creditIntent_mirrors (fate : MintFate) (receipt : Fr) (depositId : Text) :
    Mirrors product id (fun b => b.ledger = l) (creditIntent c a fate receipt depositId)
      (Links.creditIntent (answering c a fate l) receipt depositId) fun _ => True := by
  unfold creditIntent Links.creditIntent
  apply mirrors_bind (asked_mirrors _ fate) _ (fun _ _ => trivial)
  intro _
  apply mirrors_get
  intro b hb
  cases hrow : b.product.intentRow (frToHex receipt) with
  | none => exact (mirrors_fail _).weaken (fun _ hs => hs) fun _ _ => trivial
  | some row =>
    by_cases hpending : row.status = .pending
    · simp only [hpending, if_true]
      apply mirrors_bind (mirrors_rescue (submitMint_mirrors fate _) fun _ => mirrors_fail _) _ (fun _ _ => trivial)
      intro position
      apply mirrors_bind (asked_mirrors _ fate) _ (fun _ _ => trivial)
      intro _
      apply mirrors_bind (updateProduct_mirrors _) _ (fun _ _ => trivial)
      exact fun _ => mirrors_pure position
    · simp only [hpending, if_false]
      exact (mirrors_fail _).weaken (fun _ hs => hs) fun _ _ => trivial

lemma credit_mirrors (fate : MintFate) (receiptLe depositId : Text) (amount : Nat) :
    Mirrors product id (fun b => b.ledger = l) (credit c a fate receiptLe depositId amount)
      (Links.credit (answering c a fate l) receiptLe depositId amount) fun _ => True := by
  unfold credit Links.credit
  apply mirrors_bind (mirrors_answer _) _ (fun _ _ => trivial)
  intro _
  apply mirrors_get
  intro b hb
  cases hintent : b.product.intentOf receiptLe with
  | none => exact (mirrors_pure false).weaken (fun _ hs => hs) fun _ _ => trivial
  | some intent =>
    by_cases hamount : intent.amount = amount
    · simp only [hamount, if_true]
      cases frFromHex receiptLe with
      | none => exact (mirrors_fail _).weaken (fun _ hs => hs) fun _ _ => trivial
      | some receipt =>
        apply mirrors_rescue
        · exact mirrors_bind (creditIntent_mirrors fate receipt depositId) (fun _ => mirrors_pure true) fun _ _ => trivial
        · intro p
          split_ifs <;> exact mirrors_fail _
    · simp only [hamount, if_false]
      exact (mirrors_fail _).weaken (fun _ hs => hs) fun _ _ => trivial

lemma judge_mirrors (fate : MintFate) (ev : DepositEvent) :
    Mirrors product Prod.fst (fun b => b.ledger = l) (judge c a ns fate ev)
      (Links.judge (answering c a fate l) ns ev) fun _ => True := by
  have hpure : ∀ {P : Books → Prop} (status : Option DepositStatus) (n : Nat), Mirrors product Prod.fst P
      (pure status : Prog Books Text (Option DepositStatus)) (pure (status, n)) fun _ => True :=
    fun status n => (mirrors_pure (status, n)).weaken (fun _ hs => hs) fun _ _ => trivial
  unfold judge Links.judge
  split_ifs
  · exact hpure _ _
  · exact hpure _ _
  · unfold judgeCredit Links.judgeCredit
    apply mirrors_rescue
    · apply mirrors_bind (credit_mirrors fate _ _ _) _ (fun _ _ => trivial)
      intro credited
      cases credited <;> exact hpure _ _
    · intro e
      split_ifs <;> exact hpure _ _

/-- What the watcher does with a deposit's log is what it does when the ledger answers its mints. -/
theorem scanDeposit_mirrors (fate : MintFate) (log : Log) (n : Nat) :
    Mirrors product (fun _ => ()) (fun b => b.ledger = l) (scanDeposit c a ns fate log)
      (Links.scanDeposit (answering c a fate l) ns n log) fun _ => True := by
  have hdone : ∀ {P : Books → Prop} (n : Nat), Mirrors product (fun _ => ()) P
      (pure () : Prog Books Text Unit) (pure n) fun _ => True :=
    fun n => (mirrors_pure n).weaken (fun _ hs => hs) fun _ _ => trivial
  unfold scanDeposit Links.scanDeposit
  split_ifs
  · exact hdone n
  cases decodeDeposit log with
  | error e => exact hdone n
  | ok ev =>
    apply mirrors_bind (judge_mirrors fate ev) _ (fun _ _ => trivial)
    rintro ⟨status, more⟩
    cases status with
    | none => exact hdone n
    | some status =>
      apply mirrors_bind (mirrors_answer _) _ (fun _ _ => trivial)
      exact fun _ => ⟨fun _ _ => rfl, fun _ _ => rfl, fun _ _ => trivial⟩

end Books

end Mirrored

/-- The ledger holds a receipt at a position that it minted for a deposit. -/
def Ledger.MintedAt (l : Ledger) (receipt : Fr) (depositId : Text) (position : Nat) : Prop :=
  ∃ d ∈ l.store.deposits, d.depositId = depositId ∧ d.receipt = receipt ∧
    ∃ r ∈ l.store.receipts, r.opSeq = d.opSeq ∧ r.position = position

namespace Books

/-- What a depositor is told is what the ledger did: a deposit is credited when the ledger minted it, and an
intent is minted, with its position, when the ledger minted its receipt there. -/
structure Agree (b : Books) : Prop where
  credited : ∀ row ∈ b.product.observed, row.status = .credited ↔ b.ledger.credited row.depositId = true
  minted : ∀ row ∈ b.product.intents, ∀ depositId position,
    (row.status = .minted ∧ row.depositId = some depositId ∧ row.position = some position) ↔
      b.ledger.MintedAt row.intent.receipt depositId position
  placed : ∀ row ∈ b.product.intents, row.status = .minted →
    ∃ depositId position, row.depositId = some depositId ∧ row.position = some position

end Books

end Peal.Links
