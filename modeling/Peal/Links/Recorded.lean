import Peal.Links.MintOnce
import Peal.Links.Watcher

namespace Peal.Links
open Peal.Fallible Peal.Programs Peal.Programs.Prog Peal.Runs

/-! # A deposit below the watcher's cursor is on record -/

/-- The logs of a gateway deployed in the start block, in the blocks that end up on the chain. -/
structure CanonicalChain (chainId startBlock : Nat) where
  logs : Nat → List Log
  deployed : ∀ b, ∀ log ∈ logs b, startBlock ≤ b ∧ 0 < b
  kept : ∀ b, ∀ log ∈ logs b, log.removed = false
  oneEvent : ∀ b, ∀ log ∈ logs b, ∀ b', ∀ log' ∈ logs b', ∀ ev ev', decodeDeposit log = .ok ev →
    decodeDeposit log' = .ok ev' → ev.depositId chainId = ev'.depositId chainId → ev = ev'

def CanonicalChain.between {chainId startBlock : Nat} (chain : CanonicalChain chainId startBlock) (first last : Nat) : List Log :=
  (List.range' first (last + 1 - first)).flatMap chain.logs

/-- The endpoint shows the chain as it stays, at the depth the watcher waits for. -/
def Answers.Honest (a : Answers) (ns : NamespaceConfig) {startBlock : Nat}
    (chain : CanonicalChain ns.chainId startBlock) : Prop :=
  ∀ head first last logs, a.head = .done head → a.deposits first last = .done logs →
    last + ns.confirmations ≤ head → logs = chain.between first last

/-- No error text of the store or the ledger reads like the watcher's own. -/
structure Answers.Plain (a : Answers) : Prop where
  store : ∀ op e, a.store op = .failed e →
    contains e "wrong_amount".toList = false ∧ contains e "already".toList = false
  mint : ∀ env e, a.mint env = .failed e → contains (Problem.ofError e).detail "wrong_amount".toList = false

/-- A deposit of the namespace's token to a well-formed receipt. -/
def Creditable (ns : NamespaceConfig) (ev : DepositEvent) : Prop :=
  ev.token = toLowercase ns.tokenAddress ∧ frFromHex ev.receiptHex ≠ none

/-- What there is to say of a deposit for good. A deposit recorded as waiting for its intent goes on
waiting: nothing looks at it again once the intent arrives. -/
def Settled (ns : NamespaceConfig) (intents : Text → Option DepositIntent) (ev : DepositEvent) :
    DepositStatus → Prop
  | .credited => ∃ intent, intents ev.receiptHex = some intent ∧ intent.amount = ev.amount
  | .unregistered => False
  | .wrongToken => ev.token ≠ toLowercase ns.tokenAddress
  | .badReceipt => frFromHex ev.receiptHex = none
  | .wrongAmount => ∃ intent, intents ev.receiptHex = some intent ∧ intent.amount ≠ ev.amount

def Recorded (ns : NamespaceConfig) (ev : DepositEvent) (s : Product) : Prop :=
  ∃ row ∈ s.observed, row.depositId = ev.depositId ns.chainId ∧ Settled ns s.intentOf ev row.status

section Store

variable {s s₀ : Product}

/-- Everything but what has become of the intents and the withdrawals. -/
structure SameBooks (s₀ s : Product) : Prop where
  cursor : s.cursor = s₀.cursor
  observed : s.observed = s₀.observed
  intents : s.intentOf = s₀.intentOf

lemma intentOf_markMinted (s : Product) (receipt depositId : Text) (position : Nat) :
    (s.markMinted receipt depositId position).intentOf = s.intentOf := by
  funext r
  unfold Product.intentOf Product.intentRow Product.markMinted
  rw [List.find?_map]
  have hsame : (fun row : IntentRow => decide (row.receipt = r)) ∘ (fun row =>
      if row.receipt = receipt then
        { row with status := .minted, depositId := some depositId, position := some position }
      else row) = fun row => decide (row.receipt = r) := by
    funext row
    by_cases h : row.receipt = receipt <;> simp [h]
  rw [hsame, Option.map_map]
  congr 1
  funext row
  by_cases h : row.receipt = receipt <;> simp [h]

lemma SameBooks.markMinted (h : SameBooks s₀ s) (receipt depositId : Text) (position : Nat) :
    SameBooks s₀ (s.markMinted receipt depositId position) :=
  ⟨h.cursor, h.observed, (intentOf_markMinted s receipt depositId position).trans h.intents⟩

lemma intentOf_insertIntent {row : IntentRow} {receipt : Text} {intent : DepositIntent}
    (h : s.intentOf receipt = some intent) :
    (s.insertIntent row).intentOf receipt = some intent := by
  obtain ⟨found, hfound, rfl⟩ := Option.map_eq_some_iff.mp h
  unfold Product.intentOf Product.intentRow Product.insertIntent at *
  rw [List.find?_append, hfound]
  rfl

end Store

section Deposit

variable {ns : NamespaceConfig} {ev : DepositEvent}

lemma Settled.mono {intents intents' : Text → Option DepositIntent} {status : DepositStatus}
    (h : Settled ns intents ev status)
    (hmore : ∀ intent, intents ev.receiptHex = some intent → intents' ev.receiptHex = some intent) :
    Settled ns intents' ev status := by
  cases status with
  | credited =>
    obtain ⟨intent, hintent, hamount⟩ := h
    exact ⟨intent, hmore intent hintent, hamount⟩
  | unregistered => exact h
  | wrongToken => exact h
  | badReceipt => exact h
  | wrongAmount =>
    obtain ⟨intent, hintent, hamount⟩ := h
    exact ⟨intent, hmore intent hintent, hamount⟩

lemma Recorded.mono {s s' : Product} (h : Recorded ns ev s) (hobserved : s'.observed = s.observed)
    (hmore : ∀ intent, s.intentOf ev.receiptHex = some intent → s'.intentOf ev.receiptHex = some intent) :
    Recorded ns ev s' := by
  obtain ⟨row, hrow, hid, hsettled⟩ := h
  exact ⟨row, hobserved ▸ hrow, hid, hsettled.mono hmore⟩

lemma Settled.due {intents : Text → Option DepositIntent} {status : DepositStatus}
    (h : Settled ns intents ev status) (hcreditable : Creditable ns ev) : intents ev.receiptHex ≠ none := by
  cases status with
  | credited =>
    obtain ⟨intent, hintent, -⟩ := h
    rw [hintent]
    exact Option.some_ne_none intent
  | unregistered => exact h.elim
  | wrongToken => exact absurd hcreditable.1 h
  | badReceipt => exact absurd h hcreditable.2
  | wrongAmount =>
    obtain ⟨intent, hintent, -⟩ := h
    rw [hintent]
    exact Option.some_ne_none intent

lemma recorded_observe {s : Product} {row : ObservedDeposit}
    (hid : row.depositId = ev.depositId ns.chainId) (h : Settled ns s.intentOf ev row.status) :
    Recorded ns ev (s.observe row) := by
  unfold Recorded Product.observe
  by_cases hany : s.observed.any (fun r => r.depositId = row.depositId) = true
  · simp only [hany, if_true]
    obtain ⟨old, hold, heq⟩ := List.any_eq_true.mp hany
    have heq := of_decide_eq_true heq
    refine ⟨{ old with status := row.status }, ?_, heq.trans hid, h⟩
    apply List.mem_map.mpr
    exact ⟨old, hold, if_pos heq⟩
  · simp only [hany]
    exact ⟨row, List.mem_append_right _ (List.mem_singleton_self row), hid, h⟩

lemma Recorded.observe_other {s : Product} (h : Recorded ns ev s) {row : ObservedDeposit}
    (hid : row.depositId ≠ ev.depositId ns.chainId) : Recorded ns ev (s.observe row) := by
  obtain ⟨old, hold, heq, hsettled⟩ := h
  refine ⟨old, ?_, heq, hsettled⟩
  unfold Product.observe
  by_cases hany : s.observed.any (fun r => r.depositId = row.depositId) = true
  · simp only [hany, if_true]
    apply List.mem_map.mpr
    exact ⟨old, hold, if_neg (fun hsame => hid (hsame.symm.trans heq))⟩
  · simp only [hany]
    exact List.mem_append_left _ hold

end Deposit

section Credit

variable {a : Answers} {ns : NamespaceConfig} {s₀ : Product}

/-- How crediting a registered intent is refused. -/
def CreditRefused (a : Answers) (intent : DepositIntent) (depositId : Text) (p : Problem) : Prop :=
  p.code = "already_minted" ∨
  (∃ e, (a.store (.intentStatus depositId) = .failed e ∨ a.store (.markMinted depositId) = .failed e) ∧
    p = .internal e) ∨
  ∃ e, a.mint ⟨intent, depositId⟩ = .failed e ∧ p = .ofError e

lemma creditIntent_yields {receipt : Fr} {intent : DepositIntent} {depositId : Text}
    (hintent : s₀.intentOf (frToHex receipt) = some intent) :
    Yields (SameBooks s₀) (creditIntent a receipt depositId) (fun _ => True)
      (CreditRefused a intent depositId) := by
  unfold creditIntent
  apply yields_bind (D := fun _ => True)
  · exact yields_reworded (fun _ _ => trivial) (fun e he => Or.inr (Or.inl ⟨e, Or.inl he, rfl⟩))
  intro _ _
  apply yields_get
  intro s hs
  have hrow := congrFun hs.intents (frToHex receipt)
  rw [hintent] at hrow
  obtain ⟨row, hfound, rfl⟩ := Option.map_eq_some_iff.mp hrow
  rw [hfound]
  by_cases hpending : row.status = .pending
  · simp only [hpending, if_true]
    apply yields_bind (D := fun _ => True)
    · exact yields_reworded (fun _ _ => trivial) (fun e he => Or.inr (Or.inr ⟨e, he, rfl⟩))
    intro position _
    apply yields_bind (D := fun _ => True)
    · exact yields_reworded (fun _ _ => trivial) (fun e he => Or.inr (Or.inl ⟨e, Or.inr he, rfl⟩))
    intro _ _
    apply yields_bind (D := fun _ => True)
    · exact yields_modify (fun s hs => hs.markMinted _ _ _) trivial
    · exact fun _ _ => yields_pure trivial
  · simp only [hpending, if_false]
    exact yields_fail (Or.inl rfl)

/-- How an attempted credit fails. -/
def CreditFails (a : Answers) (intents : Text → Option DepositIntent) (receiptLe depositId : Text)
    (amount : Nat) (e : Text) : Prop :=
  a.store (.intentOf depositId) = .failed e ∨
  ∃ intent, intents receiptLe = some intent ∧
    (intent.amount ≠ amount ∧ contains e "wrong_amount".toList = true ∨
    intent.amount = amount ∧ ∃ p, CreditRefused a intent depositId p ∧
      e = if p.code = "already_minted" then "already credited".toList else p.detail)

lemma wrongAmount_text (rest : Text) : contains ("wrong_amount: chain ".toList ++ rest) "wrong_amount".toList = true := by
  unfold contains
  rw [decide_eq_true_eq]
  exact ⟨[], ": chain ".toList ++ rest, rfl⟩

lemma credit_yields {receiptLe depositId : Text} {amount : Nat} {receipt : Fr}
    (hreceipt : frFromHex receiptLe = some receipt) (hcanonical : frToHex receipt = receiptLe) :
    Yields (SameBooks s₀) (credit a receiptLe depositId amount)
      (fun found => match found with
        | true => ∃ intent, s₀.intentOf receiptLe = some intent ∧ intent.amount = amount
        | false => s₀.intentOf receiptLe = none)
      (CreditFails a s₀.intentOf receiptLe depositId amount) := by
  unfold credit
  apply yields_bind (D := fun _ => True)
  · exact yields_answer (fun _ _ => trivial) (fun e he => Or.inl he)
  intro _ _
  apply yields_get
  intro s hs
  rw [hs.intents]
  cases hintent : s₀.intentOf receiptLe with
  | none => exact yields_pure rfl
  | some intent =>
    by_cases hamount : intent.amount = amount
    · simp only [hamount, if_true, hreceipt]
      apply yields_rescue (F := CreditRefused a intent depositId)
      · apply yields_bind
        · exact creditIntent_yields (hcanonical ▸ hintent)
        · exact fun _ _ => yields_pure ⟨intent, rfl, hamount⟩
      · intro p hp
        by_cases hcode : p.code = "already_minted"
        · rw [if_pos hcode]
          exact yields_fail (Or.inr ⟨intent, hintent, Or.inr ⟨hamount, p, hp, (if_pos hcode).symm⟩⟩)
        · rw [if_neg hcode]
          exact yields_fail (Or.inr ⟨intent, hintent, Or.inr ⟨hamount, p, hp, (if_neg hcode).symm⟩⟩)
    · simp only [hamount, if_false]
      apply yields_fail
      rw [List.append_assoc, List.append_assoc]
      exact Or.inr ⟨intent, hintent, Or.inl ⟨hamount, wrongAmount_text _⟩⟩

/-- The credit of a deposit ends in an error that leaves it to another attempt. -/
def Retried (a : Answers) (ns : NamespaceConfig) (s : Product) (ev : DepositEvent) : Prop :=
  (∃ e, a.store (.intentOf (ev.depositId ns.chainId)) = .failed e) ∨
  ∃ intent, s.intentOf ev.receiptHex = some intent ∧ intent.amount = ev.amount ∧
    ((∃ e, a.store (.intentStatus (ev.depositId ns.chainId)) = .failed e ∨
      a.store (.markMinted (ev.depositId ns.chainId)) = .failed e) ∨
    ∃ e, a.mint ⟨intent, ev.depositId ns.chainId⟩ = .failed e ∧
      contains (Problem.ofError e).detail "already".toList = false)

/-- What the watcher makes of a deposit. -/
def Judged (a : Answers) (ns : NamespaceConfig) (s : Product) (ev : DepositEvent) :
    Option DepositStatus → Prop
  | none => Creditable ns ev ∧ Retried a ns s ev
  | some status => Settled ns s.intentOf ev status ∨ Creditable ns ev ∧ s.intentOf ev.receiptHex = none

lemma creditFails_retried {ev : DepositEvent} (hplain : a.Plain) {e : Text}
    (h : CreditFails a s₀.intentOf ev.receiptHex (ev.depositId ns.chainId) ev.amount e) :
    (contains e "wrong_amount".toList = true ∧ Settled ns s₀.intentOf ev .wrongAmount) ∨
    (contains e "wrong_amount".toList = false ∧ contains e "already".toList = true ∧
      Settled ns s₀.intentOf ev .credited) ∨
    (contains e "wrong_amount".toList = false ∧ contains e "already".toList = false ∧
      Retried a ns s₀ ev) := by
  rcases h with he | ⟨intent, hintent, ⟨hamount, htext⟩ | ⟨hamount, p, hp, rfl⟩⟩
  · obtain ⟨hwrong, halready⟩ := hplain.store _ _ he
    exact Or.inr (Or.inr ⟨hwrong, halready, Or.inl ⟨e, he⟩⟩)
  · exact Or.inl ⟨htext, intent, hintent, hamount⟩
  · by_cases hcode : p.code = "already_minted"
    · rw [if_pos hcode]
      exact Or.inr (Or.inl ⟨by decide, by decide, intent, hintent, hamount⟩)
    · rw [if_neg hcode]
      rcases hp with hminted | ⟨e, he, rfl⟩ | ⟨e, he, rfl⟩
      · exact absurd hminted hcode
      · have htext : contains e "wrong_amount".toList = false ∧ contains e "already".toList = false :=
          he.elim (hplain.store _ _) (hplain.store _ _)
        exact Or.inr (Or.inr ⟨htext.1, htext.2, Or.inr ⟨intent, hintent, hamount, Or.inl ⟨e, he⟩⟩⟩)
      · have hwrong := hplain.mint _ _ he
        by_cases halready : contains (Problem.ofError e).detail "already".toList = true
        · exact Or.inr (Or.inl ⟨hwrong, halready, intent, hintent, hamount⟩)
        · rw [Bool.not_eq_true] at halready
          exact Or.inr (Or.inr ⟨hwrong, halready,
            Or.inr ⟨intent, hintent, hamount, Or.inr ⟨e, he, halready⟩⟩⟩)

lemma decodeDeposit_receipt {log : Log} {ev : DepositEvent} (h : decodeDeposit log = .ok ev) {receipt : Fr}
    (hreceipt : frFromHex ev.receiptHex = some receipt) : frToHex receipt = ev.receiptHex := by
  unfold decodeDeposit at h
  split at h
  · simp only [bind_eq_ok, pure_eq_ok] at h
    obtain ⟨data, hdata, _, _, _, _, _, _, _, _, _, _, _, _, _, _, _, _, rfl⟩ := h
    apply frToHex_frFromHex _ hreceipt
    intro b hb
    exact hexDecode_lt (expect_eq_ok.mp hdata) b (List.mem_of_mem_drop hb)
  · cases h

lemma judge_yields {log : Log} {ev : DepositEvent} (hplain : a.Plain) (hev : decodeDeposit log = .ok ev) :
    Yields (SameBooks s₀) (judge a ns ev) (fun r => Judged a ns s₀ ev r.1) (fun _ => False) := by
  unfold judge
  by_cases htoken : ev.token = toLowercase ns.tokenAddress
  · rw [if_neg (not_not_intro htoken)]
    cases hreceipt : frFromHex ev.receiptHex with
    | none => exact yields_pure (Or.inl hreceipt)
    | some receipt =>
      have hsome : frFromHex ev.receiptHex ≠ none := by
        rw [hreceipt]
        exact Option.some_ne_none receipt
      rw [if_neg (Option.some_ne_none receipt)]
      unfold judgeCredit
      apply yields_rescue
        (F := CreditFails a s₀.intentOf ev.receiptHex (ev.depositId ns.chainId) ev.amount)
      · apply yields_bind (credit_yields hreceipt (decodeDeposit_receipt hev hreceipt))
        intro found hfound
        cases found with
        | true => exact yields_pure (Or.inl hfound)
        | false => exact yields_pure (Or.inr ⟨⟨htoken, hsome⟩, hfound⟩)
      · intro e he
        rcases creditFails_retried hplain he with ⟨hwrong, h⟩ | ⟨hwrong, halready, h⟩ | ⟨hwrong, halready, h⟩
        · rw [hwrong]
          exact yields_pure (Or.inl h)
        · rw [hwrong, halready]
          exact yields_pure (Or.inl h)
        · rw [hwrong, halready]
          exact yields_pure ⟨⟨htoken, hsome⟩, h⟩
  · rw [if_pos htoken]
    exact yields_pure (Or.inl htoken)

end Credit

section Scan

variable {a : Answers} {ns : NamespaceConfig} {log : Log} {ev : DepositEvent} {s t : Product}

/-- All that scanning one log can do. -/
structure Scanned (a : Answers) (ns : NamespaceConfig) (log : Log) (s : Product)
    (o : Outcome Text Nat) (t : Product) : Prop where
  cursor : t.cursor = s.cursor
  intents : t.intentOf = s.intentOf
  observed : (t.observed = s.observed ∧ ∀ n, o = .done n →
      log.removed = true ∨ ∀ ev, decodeDeposit log = .ok ev → Creditable ns ev ∧ Retried a ns s ev) ∨
    ∃ ev row, decodeDeposit log = .ok ev ∧ row.depositId = ev.depositId ns.chainId ∧
      Judged a ns s ev (some row.status) ∧ t.observed = (s.observe row).observed

lemma scanDeposit_ends (ns : NamespaceConfig) (hplain : a.Plain) (log : Log) (s : Product) (n : Nat) :
    Triple (fun t => t = s) (scanDeposit a ns n log) (Scanned a ns log s) := by
  unfold scanDeposit
  by_cases hremoved : log.removed = true
  · rw [if_pos hremoved]
    exact ⟨fun t ht => ⟨ht ▸ rfl, ht ▸ rfl, Or.inl ⟨ht ▸ rfl, fun _ _ => Or.inl hremoved⟩⟩⟩
  rw [if_neg hremoved]
  cases hev : decodeDeposit log with
  | error e =>
    refine ⟨fun t ht => ⟨ht ▸ rfl, ht ▸ rfl, Or.inl ⟨ht ▸ rfl, fun _ _ => Or.inr fun ev hok => ?_⟩⟩⟩
    rw [hev] at hok
    cases hok
  | ok ev =>
    have hunseen : ∀ t, SameBooks s t → ∀ o : Outcome Text Nat, (∀ n, o ≠ .done n) → Scanned a ns log s o t :=
      fun t ht o ho => ⟨ht.cursor, ht.intents, Or.inl ⟨ht.observed, fun n hn => absurd hn (ho n)⟩⟩
    have hjudge : Triple (fun t => t = s) (judge a ns ev)
        (fun o t => SameBooks s t ∧ Reports (fun r => Judged a ns s ev r.1) (fun _ => False) o) := by
      apply triple_weaken (judge_yields hplain hev) _ (fun _ _ h => h)
      rintro t rfl
      exact ⟨rfl, rfl, rfl⟩
    apply triple_bind hjudge
    · rintro ⟨status, more⟩
      cases status with
      | none =>
        constructor
        rintro t ⟨ht, hretried⟩
        refine ⟨ht.cursor, ht.intents, Or.inl ⟨ht.observed, fun _ _ => Or.inr fun ev' hev' => ?_⟩⟩
        rw [hev] at hev'
        exact Except.ok.inj hev' ▸ hretried
      | some status =>
        apply triple_answer
        · intro _ _
          constructor
          rintro t ⟨ht, hjudged⟩
          refine ⟨ht.cursor, ht.intents, Or.inr ⟨ev, ⟨ev.depositId ns.chainId, ev.receiptHex, ev.amount,
            ev.sender, ev.token, ev.blockNumber, status⟩, hev, rfl, hjudged, ?_⟩⟩
          show (t.observe _).observed = _
          unfold Product.observe
          rw [ht.observed]
        · exact fun e t ht => hunseen t ht.1 _ (fun _ h => nomatch h)
        · exact fun t ht => hunseen t ht.1 _ (fun _ h => nomatch h)
    · exact fun e t ht => ht.2.elim
    · exact fun t ht => hunseen t ht.1 _ (fun _ h => nomatch h)

lemma Scanned.recorded {o : Outcome Text Nat} (h : Scanned a ns log s o t)
    (hone : ∀ ev', decodeDeposit log = .ok ev' → ev'.depositId ns.chainId = ev.depositId ns.chainId → ev' = ev)
    (hrecorded : Recorded ns ev s) : Recorded ns ev t := by
  have hmore : ∀ intent, s.intentOf ev.receiptHex = some intent → t.intentOf ev.receiptHex = some intent :=
    fun _ hintent => h.intents ▸ hintent
  obtain ⟨hsame, -⟩ | ⟨ev', row, hev', hid, hjudged, hrow⟩ := h.observed
  · exact hrecorded.mono hsame hmore
  · apply Recorded.mono _ hrow hmore
    by_cases heq : row.depositId = ev.depositId ns.chainId
    · obtain rfl := hone ev' hev' (hid.symm.trans heq)
      rcases hjudged with hsettled | ⟨hcreditable, hnone⟩
      · exact recorded_observe hid hsettled
      · obtain ⟨_, _, _, hold⟩ := hrecorded
        exact absurd hnone (hold.due hcreditable)
    · exact hrecorded.observe_other heq

lemma Scanned.records {n : Nat} (h : Scanned a ns log s (.done n) t) (hkept : log.removed = false)
    (hev : decodeDeposit log = .ok ev)
    (hdue : Creditable ns ev → s.intentOf ev.receiptHex ≠ none ∧ ¬Retried a ns s ev) :
    Recorded ns ev t := by
  obtain ⟨-, hstop⟩ | ⟨ev', row, hev', hid, hjudged, hrow⟩ := h.observed
  · rcases hstop n rfl with hremoved | hagain
    · rw [hkept] at hremoved
      cases hremoved
    · obtain ⟨hcreditable, hretried⟩ := hagain ev hev
      exact absurd hretried (hdue hcreditable).2
  · rw [hev] at hev'
    obtain rfl := Except.ok.inj hev'
    rcases hjudged with hsettled | ⟨hcreditable, hnone⟩
    · exact (recorded_observe hid hsettled).mono hrow (fun _ hintent => h.intents ▸ hintent)
    · exact absurd hnone (hdue hcreditable).1

/-- What holds of the state after any part of a scan. -/
structure Passed (ns : NamespaceConfig) (log : Log) (s t : Product) : Prop where
  cursor : t.cursor = s.cursor
  intents : t.intentOf = s.intentOf
  recorded : ∀ ev, decodeDeposit log = .ok ev → Recorded ns ev s → Recorded ns ev t

/-- Nothing stands between a scanned deposit and its place on record. -/
structure Due (a : Answers) (ns : NamespaceConfig) (s : Product) (log : Log) (ev : DepositEvent) : Prop where
  kept : log.removed = false
  decodes : decodeDeposit log = .ok ev
  credited : Creditable ns ev → s.intentOf ev.receiptHex ≠ none ∧ ¬Retried a ns s ev

/-- The calls after a range's deposits were scanned are all answered. -/
structure Answers.Concludes (a : Answers) (below last : Nat) : Prop where
  withdrawals : ∃ logs, a.withdrawals (below + 1) last = .done logs
  lastHash : ∃ hash, a.lastHash last = .done hash
  saveCursor : a.store .saveCursor = .done ()

/-- Either the cursor stays, or it moves to the end of the range and a deposit that was due is on record. -/
structure ScanEnds (a : Answers) (ns : NamespaceConfig) (below last : Nat) (log : Log) (s t : Product) :
    Prop where
  intents : t.intentOf = s.intentOf
  recorded : ∀ ev, decodeDeposit log = .ok ev → Recorded ns ev s → Recorded ns ev t
  cursor : t.cursor = s.cursor ∨ ∃ hash logs, t.cursor = some (last, hash) ∧ a.Concludes below last ∧
    a.deposits (below + 1) last = .done logs ∧
    ∀ ev, log ∈ logs → Due a ns s log ev → Recorded ns ev t

/-- The logs of the chain that carry the deposit id of one are that one. -/
def SoleEvent (ns : NamespaceConfig) (logs : List Log) (log : Log) : Prop :=
  ∀ l ∈ logs, ∀ ev ev', decodeDeposit log = .ok ev → decodeDeposit l = .ok ev' →
    ev'.depositId ns.chainId = ev.depositId ns.chainId → ev' = ev

lemma Passed.scanEnds {below last : Nat} (h : Passed ns log s t) : ScanEnds a ns below last log s t :=
  ⟨h.intents, h.recorded, Or.inl h.cursor⟩

lemma Passed.next {logs : List Log} {l : Log} {u : Product} {o : Outcome Text Nat} (h : Passed ns log s t)
    (hl : l ∈ logs) (hnext : Scanned a ns l t o u) (hsole : SoleEvent ns logs log) : Passed ns log s u :=
  ⟨hnext.cursor.trans h.cursor, hnext.intents.trans h.intents, fun ev hev hrecorded =>
    hnext.recorded (fun ev' hev' => hsole l hl ev ev' hev hev') (h.recorded ev hev hrecorded)⟩

lemma Due.passed (h : Due a ns s log ev) (hpassed : Passed ns log s t) : Due a ns t log ev := by
  refine ⟨h.kept, h.decodes, ?_⟩
  unfold Retried
  rw [hpassed.intents]
  exact h.credited

lemma scanDeposits_ends (hplain : a.Plain) {logs : List Log} (hsole : SoleEvent ns logs log) :
    Triple (Passed ns log s) (logs.foldlM (scanDeposit a ns) 0) fun o t =>
      Passed ns log s t ∧ ∀ n, o = .done n → ∀ ev, log ∈ logs → Due a ns s log ev → Recorded ns ev t := by
  have hround : ∀ n, ∀ l ∈ logs, Keeps (Passed ns log s) (scanDeposit a ns n l) := by
    intro n l hl
    constructor
    intro t ht
    exact ht.next hl ((scanDeposit_ends ns hplain l t n).ends t rfl) hsole
  by_cases hdue : log ∈ logs ∧ ∃ ev, Due a ns s log ev
  · obtain ⟨hmem, ev, hev⟩ := hdue
    have hloop : Triple (Passed ns log s) (logs.foldlM (scanDeposit a ns) 0) fun o t =>
        Passed ns log s t ∧ ∀ n, o = .done n → Recorded ns ev t := by
      apply triple_foldlM_mem hmem hround
      · intro n l hl
        constructor
        rintro t ⟨ht, hrecorded⟩
        have hscanned := (scanDeposit_ends ns hplain l t n).ends t rfl
        exact ⟨ht.next hl hscanned hsole,
          hscanned.recorded (fun ev' hev' => hsole l hl ev ev' hev.decodes hev') hrecorded⟩
      · intro n
        constructor
        intro t ht
        have hscanned := (scanDeposit_ends ns hplain log t n).ends t rfl
        refine ⟨ht.next hmem hscanned hsole, fun m hm => ?_⟩
        rw [hm] at hscanned
        have hdue' := hev.passed ht
        exact hscanned.records hdue'.kept hdue'.decodes hdue'.credited
    apply triple_weaken hloop (fun _ h => h)
    intro o t h
    refine ⟨h.1, fun n hn ev' _ hev' => ?_⟩
    have hsame : ev = ev' := Except.ok.inj (hev.decodes.symm.trans hev'.decodes)
    exact hsame ▸ h.2 n hn
  · apply triple_weaken (keeps_foldlM hround 0) (fun _ h => h)
    exact fun o t h => ⟨h, fun n _ ev hmem hd => absurd ⟨hmem, ev, hd⟩ hdue⟩

lemma confirmWithdrawn_keeps {I : Product → Prop} (hI : ∀ t withdrawalId txHash, I t →
    I (t.confirmWithdrawal withdrawalId txHash)) (l : Log) : Keeps I (confirmWithdrawn a l) := by
  unfold confirmWithdrawn
  cases decodeWithdrawn l with
  | error e => exact keeps_pure ()
  | ok wev => exact keeps_bind (keeps_answer _) fun _ => keeps_modify fun t ht => hI t _ _ ht

lemma scan_ends (hplain : a.Plain) {below last : Nat}
    (hsole : ∀ logs, a.deposits (below + 1) last = .done logs → SoleEvent ns logs log) :
    Triple (Passed ns log s) (scan a ns below last) fun _ => ScanEnds a ns below last log s := by
  have hstay : ∀ t, Passed ns log s t → ScanEnds a ns below last log s t := fun t ht => ht.scanEnds
  unfold scan
  apply triple_answer _ (fun _ => hstay) hstay
  intro logs hlogs
  apply triple_bind (scanDeposits_ends hplain (hsole logs hlogs))
  · intro credited
    apply triple_weaken
      (P := fun t => Passed ns log s t ∧ ∀ ev, log ∈ logs → Due a ns s log ev → Recorded ns ev t)
      _ (fun t h => ⟨h.1, h.2 credited rfl⟩) (fun _ _ h => h)
    apply triple_answer _ (fun _ t ht => hstay t ht.1) (fun t ht => hstay t ht.1)
    intro wlogs hwlogs
    apply triple_bind (keeps_foldlM (fun _ l _ => confirmWithdrawn_keeps (fun t _ _ ht =>
      ⟨⟨ht.1.cursor, ht.1.intents, ht.1.recorded⟩, ht.2⟩) l) ())
    · intro _
      apply triple_answer _ (fun _ t ht => hstay t ht.1) (fun t ht => hstay t ht.1)
      intro hash hhash
      apply triple_answer _ (fun _ t ht => hstay t ht.1) (fun t ht => hstay t ht.1)
      intro _ hsave
      constructor
      rintro t ⟨ht, hrecorded⟩
      have hconcludes : a.Concludes below last := ⟨⟨wlogs, hwlogs⟩, ⟨hash, hhash⟩, hsave⟩
      exact ⟨ht.intents, ht.recorded, Or.inr ⟨_, logs, rfl, hconcludes, hlogs, hrecorded⟩⟩
    · exact fun _ t ht => hstay t ht.1
    · exact fun t ht => hstay t ht.1
  · exact fun _ t ht => hstay t ht.1
  · exact fun t ht => hstay t ht.1

end Scan

section Range

variable {a : Answers} {ns : NamespaceConfig} {startBlock : Nat} {s : Product}

lemma reorgCheck_yields (cursor : Nat × Text) {I : Product → Prop} :
    Yields I (reorgCheck a ns cursor) (fun below => below ≤ cursor.1 ∧ (cursor.2 = [] → below = cursor.1))
      (fun _ => True) := by
  unfold reorgCheck
  by_cases hhash : cursor.2 ≠ [] ∧ 0 < cursor.1
  · rw [if_pos hhash]
    apply yields_bind (yields_answer (fun _ _ => trivial) (fun _ _ => trivial))
    intro current _
    apply yields_pure
    refine ⟨?_, fun hempty => absurd hempty hhash.1⟩
    by_cases hsame : current = some cursor.2 <;> simp [hsame]
  · rw [if_neg hhash]
    exact yields_pure ⟨le_rfl, fun _ => rfl⟩

/-- The range of a pass starts no higher than the cursor and ends where the chain is settled. -/
structure RangeOf (a : Answers) (ns : NamespaceConfig) (startBlock : Nat) (s : Product) (below last : Nat) :
    Prop where
  fresh : s.cursor = none → below = startBlock - 1
  resumed : ∀ n hash, s.cursor = some (n, hash) → below ≤ n
  settled : ∃ head, a.head = .done head ∧ last + ns.confirmations ≤ head

lemma scanRange_yields (a : Answers) (ns : NamespaceConfig) (startBlock : Nat) (s : Product) :
    Yields (fun t => t = s) (scanRange a ns startBlock)
      (fun range => ∀ below last, range = some (below, last) → RangeOf a ns startBlock s below last)
      (fun _ => True) := by
  unfold scanRange
  apply yields_bind (D := fun head => a.head = .done head) (yields_answer (fun _ h => h) (fun _ _ => trivial))
  intro head hhead
  apply yields_bind (D := fun _ => True) (yields_answer (fun _ _ => trivial) (fun _ _ => trivial))
  intro _ _
  apply yields_get
  rintro t rfl
  apply yields_bind (reorgCheck_yields _)
  rintro below ⟨hle, hempty⟩
  apply yields_pure
  intro below' last hrange
  obtain ⟨hlow, heq⟩ := Option.ite_none_left_eq_some.mp hrange
  obtain ⟨rfl, rfl⟩ := Prod.mk.inj (Option.some.inj heq)
  refine ⟨fun hnone => ?_, fun n hash hsome => ?_, head, hhead, by omega⟩
  · rw [hnone] at hempty
    exact hempty rfl
  · rw [hsome] at hle
    exact hle

end Range

section Runs

inductive WatcherAction where
  | tick (a : Answers)
  | registerIntent (a : Answers) (intent : DepositIntent)
  | devMint (a : Answers) (receipt : Fr) (depositId : Text)
  | restart

variable (c : Crypto) (namespaceId circuitId : Nat) (ns : NamespaceConfig) (startBlock : Nat)

/-- A pass of the watcher and the requests that write to its store. Whatever fails or crashes leaves what
was written before, and all a restarted process has is the store. -/
def watcherStep (s : Product) : WatcherAction → Except Problem Product
  | .tick a => .ok (tick a ns startBlock s).2
  | .registerIntent a intent => .ok (registerIntent a c namespaceId circuitId intent s).2
  | .devMint a receipt depositId => .ok (creditIntent a receipt depositId s).2
  | .restart => .ok s

def Product.empty : Product := ⟨none, [], [], []⟩

/-- Once the cursor has passed its block, the deposit is on record. -/
def Kept (log : Log) (block : Nat) (s : Product) : Prop :=
  ∀ n hash, s.cursor = some (n, hash) → block ≤ n →
    ∃ ev, decodeDeposit log = .ok ev ∧ Recorded ns ev s

/-- A pass that scans the block and is about to move the cursor decodes the deposit, finds its intent
registered and credits it without an error that calls for another attempt, or had recorded it before. -/
def Handled (log : Log) (block : Nat) (s : Product) : WatcherAction → Prop
  | .tick a => ∀ below last, (scanRange a ns startBlock s).1 = .done (some (below, last)) →
      below < block → block ≤ last → a.Concludes below last →
      ∃ ev, decodeDeposit log = .ok ev ∧ (Recorded ns ev s ∨
        (Creditable ns ev → s.intentOf ev.receiptHex ≠ none ∧ ¬Retried a ns s ev))
  | _ => True

variable {c namespaceId circuitId ns startBlock} {log : Log} {block : Nat} {s : Product}

lemma creditIntent_keeps {a : Answers} {receipt : Fr} {depositId : Text} :
    Keeps (SameBooks s) (creditIntent a receipt depositId) := by
  unfold creditIntent
  apply keeps_bind (keeps_rescue (keeps_answer _) fun _ => keeps_answer _)
  intro _
  apply keeps_get
  intro t
  cases t.intentRow (frToHex receipt) with
  | none => exact keeps_answer _
  | some row =>
    by_cases hpending : row.status = .pending
    · simp only [hpending, if_true]
      apply keeps_bind (keeps_rescue (keeps_answer _) fun _ => keeps_answer _)
      intro position
      apply keeps_bind (keeps_rescue (keeps_answer _) fun _ => keeps_answer _)
      intro _
      apply keeps_bind (keeps_modify fun t ht => ht.markMinted _ _ _)
      exact fun _ => keeps_pure _
    · simp only [hpending, if_false]
      exact keeps_answer _

lemma registerIntent_keeps {a : Answers} {intent : DepositIntent} :
    Keeps (fun t => t.cursor = s.cursor ∧ t.observed = s.observed ∧
      ∀ receipt i, s.intentOf receipt = some i → t.intentOf receipt = some i)
      (registerIntent a c namespaceId circuitId intent) := by
  unfold registerIntent
  split
  · exact keeps_answer _
  split
  · exact keeps_answer _
  split
  · exact keeps_answer _
  split
  · exact keeps_answer _
  split
  · exact keeps_answer _
  apply keeps_bind (keeps_rescue (keeps_answer _) fun _ => keeps_answer _)
  intro _
  apply keeps_get
  intro t
  cases t.intentRow (frToHex intent.receipt) with
  | some row => exact keeps_pure ()
  | none =>
    apply keeps_bind (keeps_rescue (keeps_answer _) fun _ => keeps_answer _)
    intro _
    apply keeps_modify
    exact fun t ht => ⟨ht.1, ht.2.1, fun receipt i hi => intentOf_insertIntent (ht.2.2 receipt i hi)⟩

lemma tick_eq (a : Answers) (s : Product) :
    (tick a ns startBlock s).2 = match (scanRange a ns startBlock s).1 with
      | .done (some (below, last)) => (scan a ns below last s).2
      | _ => s := by
  have hsame := (scanRange_yields a ns startBlock s).ends s rfl
  unfold tick
  simp only [Bind.bind]
  generalize scanRange a ns startBlock s = r at hsame
  obtain ⟨o, t⟩ := r
  obtain ⟨rfl, -⟩ := hsame
  cases o with
  | done range => cases range <;> rfl
  | failed e => rfl
  | crashed => rfl

lemma Kept.mono {t : Product} (h : Kept ns log block s) (hcursor : t.cursor = s.cursor)
    (hmore : ∀ ev, Recorded ns ev s → Recorded ns ev t) : Kept ns log block t := by
  intro n hash hn hblock
  rw [hcursor] at hn
  obtain ⟨ev, hev, hrecorded⟩ := h n hash hn hblock
  exact ⟨ev, hev, hmore ev hrecorded⟩

lemma mem_between {chain : CanonicalChain ns.chainId startBlock} {below last : Nat} (hlog : log ∈ chain.logs block)
    (hlow : below < block) (hhigh : block ≤ last) : log ∈ chain.between (below + 1) last := by
  apply List.mem_flatMap.mpr
  exact ⟨block, List.mem_range'_1.mpr ⟨hlow, by omega⟩, hlog⟩

lemma tick_kept {chain : CanonicalChain ns.chainId startBlock} (hlog : log ∈ chain.logs block)
    {a : Answers} (hhonest : a.Honest ns chain)
    (hplain : a.Plain) (hok : Handled ns startBlock log block s (.tick a)) (h : Kept ns log block s) :
    Kept ns log block (tick a ns startBlock s).2 := by
  rw [tick_eq]
  have hrange := (scanRange_yields a ns startBlock s).ends s rfl
  cases hr : (scanRange a ns startBlock s).1 with
  | failed e => exact h
  | crashed => exact h
  | done range =>
    cases range with
    | none => exact h
    | some bounds =>
      obtain ⟨below, last⟩ := bounds
      rw [hr] at hrange
      have hof : RangeOf a ns startBlock s below last := hrange.2 below last rfl
      obtain ⟨head, hhead, hsettled⟩ := hof.settled
      have hlogs : ∀ logs, a.deposits (below + 1) last = .done logs → logs = chain.between (below + 1) last :=
        fun logs hdone => hhonest head _ _ logs hhead hdone hsettled
      have hends : ScanEnds a ns below last log s (scan a ns below last s).2 := by
        apply (scan_ends hplain _).ends s ⟨rfl, rfl, fun _ _ hrecorded => hrecorded⟩
        intro logs hdone l hl ev ev' hev hev' hid
        rw [hlogs logs hdone] at hl
        obtain ⟨b, -, hb⟩ := List.mem_flatMap.mp hl
        exact chain.oneEvent b l hb block log hlog ev' ev hev' hev hid
      show Kept ns log block (scan a ns below last s).2
      rcases hends.cursor with hsame | ⟨hash, logs, hmoved, hconcludes, hdone, hrecords⟩
      · intro n hash hn hblock
        rw [hsame] at hn
        obtain ⟨ev, hev, hrecorded⟩ := h n hash hn hblock
        exact ⟨ev, hev, hends.recorded ev hev hrecorded⟩
      · intro n hash' hn hblock
        rw [hmoved] at hn
        obtain ⟨rfl, rfl⟩ := Prod.mk.inj (Option.some.inj hn)
        by_cases hlow : below < block
        · obtain ⟨ev, hev, hdue⟩ := hok below last hr hlow hblock hconcludes
          refine ⟨ev, hev, ?_⟩
          rcases hdue with hbefore | hdue
          · exact hends.recorded ev hev hbefore
          · apply hrecords ev _ ⟨chain.kept block log hlog, hev, hdue⟩
            rw [hlogs logs hdone]
            exact mem_between hlog hlow hblock
        · cases hcursor : s.cursor with
          | none =>
            have hfresh := hof.fresh hcursor
            have hdeployed := chain.deployed block log hlog
            omega
          | some saved =>
            have hresumed := hof.resumed saved.1 saved.2 hcursor
            obtain ⟨ev, hev, hrecorded⟩ := h saved.1 saved.2 hcursor (by omega)
            exact ⟨ev, hev, hends.recorded ev hev hrecorded⟩

lemma watcherStep_kept {chain : CanonicalChain ns.chainId startBlock} (hlog : log ∈ chain.logs block)
    {action : WatcherAction}
    (htick : ∀ a, action = .tick a → a.Honest ns chain ∧ a.Plain)
    (hok : Handled ns startBlock log block s action) (h : Kept ns log block s) {t : Product}
    (hstep : watcherStep c namespaceId circuitId ns startBlock s action = .ok t) : Kept ns log block t := by
  cases action with
  | tick a =>
    obtain rfl := Except.ok.inj hstep
    obtain ⟨hhonest, hplain⟩ := htick a rfl
    exact tick_kept hlog hhonest hplain hok h
  | registerIntent a intent =>
    obtain rfl := Except.ok.inj hstep
    obtain ⟨hcursor, hobserved, hmore⟩ := registerIntent_keeps.ends s ⟨rfl, rfl, fun _ _ hi => hi⟩
    exact h.mono hcursor fun ev hrecorded => hrecorded.mono hobserved (hmore ev.receiptHex)
  | devMint a receipt depositId =>
    obtain rfl := Except.ok.inj hstep
    have hsame : SameBooks s (creditIntent a receipt depositId s).2 :=
      creditIntent_keeps.ends s ⟨rfl, rfl, rfl⟩
    exact h.mono hsame.cursor fun ev hrecorded =>
      hrecorded.mono hsame.observed fun i hi => hsame.intents ▸ hi
  | restart =>
    obtain rfl := Except.ok.inj hstep
    exact h

/-- In every run of passes, registrations, failures and restarts in which no pass gives a deposit up and
moves on, the deposit is on record as soon as the cursor has passed its block. -/
theorem deposit_recorded (c : Crypto) (namespaceId circuitId : Nat)
    (chain : CanonicalChain ns.chainId startBlock) (hlog : log ∈ chain.logs block) {actions : List WatcherAction}
    (htick : ∀ a, WatcherAction.tick a ∈ actions → a.Honest ns chain ∧ a.Plain)
    (hok : Along (watcherStep c namespaceId circuitId ns startBlock) (Handled ns startBlock log block)
      Product.empty actions) :
    Throughout (watcherStep c namespaceId circuitId ns startBlock) (Kept ns log block) Product.empty
      actions := by
  have hmem := along_of_forall (watcherStep c namespaceId circuitId ns startBlock)
    (fun action (h : action ∈ actions) (_ : Product) => h) Product.empty
  have hboth := along_and _ hmem hok
  have hempty : Kept ns log block Product.empty := by
    intro n hash hn
    cases hn
  apply throughout_along _ (I := Kept ns log block) _ hempty hboth
  intro s action t h hok' hstep
  exact watcherStep_kept hlog (fun a ha => htick a (ha ▸ hok'.1)) hok'.2 h hstep

end Runs

section Sample

def sampleGateway : CanonicalChain sampleConfig.chainId 1 where
  logs b := if b = 10 then [sampleLog] else []
  deployed b log hlog := by
    split at hlog
    · omega
    · exact absurd hlog List.not_mem_nil
  kept b log hlog := by
    split at hlog
    · rw [List.mem_singleton.mp hlog]
      rfl
    · exact absurd hlog List.not_mem_nil
  oneEvent b log hlog b' log' hlog' ev ev' hev hev' _ := by
    split at hlog
    · split at hlog'
      · rw [List.mem_singleton.mp hlog] at hev
        rw [List.mem_singleton.mp hlog', hev] at hev'
        exact Except.ok.inj hev'
      · exact absurd hlog' List.not_mem_nil
    · exact absurd hlog List.not_mem_nil

/-- Every call answered, the mint as given. -/
def sampleAnswers (head : Nat) (mint : Outcome Error Nat) : Answers where
  head := .done head
  blockHash _ := .done (some "0xcc".toList)
  deposits first last := .done (sampleGateway.between first last)
  withdrawals _ _ := .done []
  lastHash _ := .done (some "0xcc".toList)
  mint _ := mint
  store _ := .done ()

def sampleTimeout : Outcome Error Nat := .failed (.storage "consensus did not finalize the operation in time")

lemma sampleAnswers_honest (head : Nat) (mint : Outcome Error Nat) :
    (sampleAnswers head mint).Honest sampleConfig sampleGateway := by
  intro _ first last logs _ hlogs _
  exact (Outcome.done.inj hlogs).symm

lemma sampleAnswers_plain (head : Nat) {mint : Outcome Error Nat} (h : mint = .done 0 ∨ mint = sampleTimeout) :
    (sampleAnswers head mint).Plain := by
  refine ⟨fun _ _ hstore => (nomatch hstore), fun _ e hmint => ?_⟩
  change mint = .failed e at hmint
  rcases h with rfl | rfl
  · cases hmint
  · obtain rfl := Outcome.failed.inj hmint
    decide +kernel

def sampleIntent : DepositIntent := ⟨5, 9, 5, 11, sampleProof⟩

def sampleRun (mint : Outcome Error Nat) : List WatcherAction :=
  [.registerIntent (sampleAnswers 11 mint) sampleIntent, .tick (sampleAnswers 11 mint),
    .tick (sampleAnswers 12 (.done 0))]

lemma sampleRun_ticks {mint : Outcome Error Nat} (h : mint = .done 0 ∨ mint = sampleTimeout) {a : Answers}
    (ha : WatcherAction.tick a ∈ sampleRun mint) : a.Honest sampleConfig sampleGateway ∧ a.Plain := by
  unfold sampleRun at ha
  simp only [List.mem_cons, reduceCtorEq, WatcherAction.tick.injEq, List.not_mem_nil, or_false,
    false_or] at ha
  rcases ha with rfl | rfl
  · exact ⟨sampleAnswers_honest _ _, sampleAnswers_plain _ h⟩
  · exact ⟨sampleAnswers_honest _ _, sampleAnswers_plain _ (Or.inl rfl)⟩

def sampleStep : Product → WatcherAction → Except Problem Product :=
  watcherStep sampleCrypto 5 9 sampleConfig 1

lemma sampleAnswers_handled {s : Product} (hintent : s.intentOf sampleEvent.receiptHex ≠ none) (head : Nat) :
    Handled sampleConfig 1 sampleLog 10 s (.tick (sampleAnswers head (.done 0))) := by
  intro below last _ _ _ _
  refine ⟨sampleEvent, sampleLog_decodes, Or.inr fun _ => ⟨hintent, ?_⟩⟩
  rintro (⟨e, hstore⟩ | ⟨_, _, _, ⟨e, hstore | hstore⟩ | ⟨e, hmint, _⟩⟩)
  · cases hstore
  · cases hstore
  · cases hstore
  · cases hmint

/-- A deposit whose mint is answered. -/
theorem deposit_recorded_sample :
    Throughout sampleStep (Kept sampleConfig sampleLog 10) Product.empty (sampleRun (.done 0)) := by
  have hlog : sampleLog ∈ sampleGateway.logs 10 := List.mem_singleton_self _
  apply deposit_recorded sampleCrypto 5 9 sampleGateway hlog (fun a ha => sampleRun_ticks (Or.inl rfl) ha)
  exact ⟨trivial, sampleAnswers_handled (by decide +kernel) 11, sampleAnswers_handled (by decide +kernel) 12,
    trivial⟩

/-- A deposit whose mint timed out once: the cursor moves on, and a later pass that finds everything in
order does not come back to it. -/
theorem deposit_skipped :
    (∀ a, WatcherAction.tick a ∈ sampleRun sampleTimeout → a.Honest sampleConfig sampleGateway ∧ a.Plain) ∧
    (exec sampleStep Product.empty (sampleRun sampleTimeout)).cursor = some (11, "0xcc".toList) ∧
    (exec sampleStep Product.empty (sampleRun sampleTimeout)).observed = [] ∧
    ¬Throughout sampleStep (Kept sampleConfig sampleLog 10) Product.empty (sampleRun sampleTimeout) := by
  have hcursor : (exec sampleStep Product.empty (sampleRun sampleTimeout)).cursor = some (11, "0xcc".toList) := by
    decide +kernel
  have hobserved : (exec sampleStep Product.empty (sampleRun sampleTimeout)).observed = [] := by
    decide +kernel
  refine ⟨fun a ha => sampleRun_ticks (Or.inr rfl) ha, hcursor, hobserved, fun h => ?_⟩
  obtain ⟨ev, -, row, hrow, -⟩ := h 3 11 _ hcursor (by decide)
  rw [show (sampleRun sampleTimeout).take 3 = sampleRun sampleTimeout from rfl, hobserved] at hrow
  exact absurd hrow List.not_mem_nil

end Sample

end Peal.Links
