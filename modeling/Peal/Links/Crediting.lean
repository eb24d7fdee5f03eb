import Peal.Links.Deposits

namespace Peal.Links
open Peal.Fallible Peal.Programs Peal.Programs.Prog Peal.Runs

/-! # What a mint does to the ledger, and how crediting a deposit ends -/

variable {c : Crypto} {l l' : Ledger}

namespace Ledger

/-- No row of the receipt log or the deposits is later than the ledger's last envelope. -/
structure Dated (l : Ledger) : Prop where
  deposits : ∀ d ∈ l.store.deposits, d.opSeq ≤ l.seq
  receipts : ∀ r ∈ l.store.receipts, r.opSeq ≤ l.seq

lemma mint_effect {env : MintEnvelope} {r : Applied} (h : Dated l) (hmint : l.mint c env = .ok (l', r)) :
    Dated l' ∧ (∀ depositId, l'.credited depositId = true ↔
      l.credited depositId = true ∨ depositId = env.depositId) ∧
    ∀ receipt depositId position, l'.MintedAt receipt depositId position ↔
      l.MintedAt receipt depositId position ∨
        receipt = env.intent.receipt ∧ depositId = env.depositId ∧ position = r.position := by
  unfold mint at hmint
  simp only [bind_eq_ok, require_eq_ok, pure_eq_ok, Prod.mk.injEq] at hmint
  obtain ⟨-, -, -, -, -, -, -, -, m, hm, rfl, rfl⟩ := hmint
  obtain ⟨t, -, rfl⟩ := logReceipt_ok hm
  refine ⟨⟨?_, ?_⟩, ?_, ?_⟩
  · intro d hd
    rcases List.mem_append.mp hd with hold | hnew
    · exact (h.deposits d hold).trans (Nat.le_succ _)
    · obtain rfl := List.mem_singleton.mp hnew
      exact le_refl _
  · intro row hrow
    rcases List.mem_append.mp hrow with hold | hnew
    · exact (h.receipts row hold).trans (Nat.le_succ _)
    · obtain rfl := List.mem_singleton.mp hnew
      exact le_refl _
  · intro depositId
    simp only [credited, record, insertDeposit, List.any_append, Bool.or_eq_true, List.any_cons, List.any_nil,
      Bool.or_false, decide_eq_true_eq]
    exact or_congr Iff.rfl eq_comm
  · intro receipt depositId position
    constructor
    · rintro ⟨d, hd, rfl, rfl, row, hrow, hseq, rfl⟩
      rcases List.mem_append.mp hd with hold | hnew
      · rcases List.mem_append.mp hrow with hrold | hrnew
        · exact .inl ⟨d, hold, rfl, rfl, row, hrold, hseq, rfl⟩
        · obtain rfl := List.mem_singleton.mp hrnew
          have := h.deposits d hold
          simp only at hseq
          omega
      · obtain rfl := List.mem_singleton.mp hnew
        rcases List.mem_append.mp hrow with hrold | hrnew
        · have := h.receipts row hrold
          simp only at hseq
          omega
        · obtain rfl := List.mem_singleton.mp hrnew
          exact .inr ⟨rfl, rfl, rfl⟩
    · rintro (⟨d, hd, hid, hreceipt, row, hrow, hseq, hposition⟩ | ⟨rfl, rfl, rfl⟩)
      · exact ⟨d, List.mem_append_left _ hd, hid, hreceipt, row, List.mem_append_left _ hrow, hseq, hposition⟩
      · exact ⟨_, List.mem_append_right _ (List.mem_singleton_self _), rfl, rfl, _,
          List.mem_append_right _ (List.mem_singleton_self _), rfl, rfl⟩

lemma mintedAt_logReceipt (h : Dated l) {leaf : Fr} {deposits : List DepositRow} {receipts : List ReceiptRow}
    (hdeposits : deposits = l.store.deposits)
    (hreceipts : receipts = l.store.receipts ++ [⟨l.tree.size, leaf, l.seq + 1⟩]) {receipt : Fr}
    {depositId : Text} {position : Nat} :
    (∃ d ∈ deposits, d.depositId = depositId ∧ d.receipt = receipt ∧
      ∃ r ∈ receipts, r.opSeq = d.opSeq ∧ r.position = position) ↔ l.MintedAt receipt depositId position := by
  subst hdeposits hreceipts
  constructor
  · rintro ⟨d, hd, rfl, rfl, row, hrow, hseq, rfl⟩
    rcases List.mem_append.mp hrow with hold | hnew
    · exact ⟨d, hd, rfl, rfl, row, hold, hseq, rfl⟩
    · obtain rfl := List.mem_singleton.mp hnew
      have := h.deposits d hd
      simp only at hseq
      omega
  · rintro ⟨d, hd, hid, hreceipt, row, hrow, hseq, hposition⟩
    exact ⟨d, hd, hid, hreceipt, row, List.mem_append_left _ hrow, hseq, hposition⟩

/-- Whether a transition is no mint. -/
def Envelope.NoMint : Envelope → Prop
  | .mint _ => False
  | _ => True

lemma other_effect {envelope : Envelope} {r : Applied} (h : Dated l) (hother : Envelope.NoMint envelope)
    (ht : l.transition c envelope = .ok (l', r)) :
    Dated l' ∧ (∀ depositId, l'.credited depositId = l.credited depositId) ∧
    ∀ receipt depositId position, l'.MintedAt receipt depositId position ↔
      l.MintedAt receipt depositId position := by
  cases envelope with
  | register env =>
    obtain ⟨a, row, root, -, -, -, rfl⟩ := register_ok ht
    exact ⟨⟨fun d hd => (h.deposits d hd).trans (Nat.le_succ _), fun r hr => (h.receipts r hr).trans (Nat.le_succ _)⟩,
      fun _ => rfl, fun _ _ _ => Iff.rfl⟩
  | op env =>
    obtain ⟨-, m, root, position, hm, rfl⟩ := apply_ok ht
    obtain ⟨t, -, rfl⟩ := logReceipt_ok hm
    refine ⟨⟨fun d hd => (h.deposits d hd).trans (Nat.le_succ _), ?_⟩, fun _ => rfl,
      fun _ _ _ => mintedAt_logReceipt h rfl rfl⟩
    intro row hrow
    rcases List.mem_append.mp hrow with hold | hnew
    · exact (h.receipts row hold).trans (Nat.le_succ _)
    · obtain rfl := List.mem_singleton.mp hnew
      exact le_refl _
  | mint env => exact hother.elim

/-- The texts of the errors a mint may end in. -/
def MintRefusal (l : Ledger) (env : MintEnvelope) (e : Error) : Prop :=
  (e = .storage "deposit already credited" ∧ l.credited env.depositId = true) ∨
  e ∈ [.wrongNamespace, .wire "deposit is for a different circuit", .wire "bad deposit id", .invalidPoint,
    .invalidProof, .receiptLogFull] ∨
  ∃ n : Nat, e = .wire s!"proof must be {PROOF_BYTES} bytes, got {n}"

lemma mint_refusal (env : MintEnvelope) : FailsIn (l.mint c env) (MintRefusal l env) := by
  have hlisted : ∀ e ∈ [Error.wrongNamespace, .wire "deposit is for a different circuit", .wire "bad deposit id",
      .invalidPoint, .invalidProof, .receiptLogFull], MintRefusal l env e := fun e he => .inr (.inl he)
  unfold mint
  refine failsIn_bind ?_ fun _ _ => failsIn_bind ?_ fun _ _ => failsIn_bind ?_ fun _ _ =>
    failsIn_bind ?_ fun _ _ => failsIn_bind ?_ fun _ _ => failsIn_pure _
  · unfold mintShape
    exact failsIn_bind (failsIn_require fun _ => hlisted _ (by simp)) fun _ _ =>
      failsIn_bind (failsIn_require fun _ => hlisted _ (by simp)) fun _ _ =>
        failsIn_require fun _ => hlisted _ (by simp)
  · exact failsIn_require fun hcredited => .inl ⟨rfl, by simpa using hcredited⟩
  · unfold mintProof proofFromBytes
    refine failsIn_bind (failsIn_bind ?_ fun _ _ => failsIn_expect (hlisted _ (by simp))) fun _ _ =>
      failsIn_require fun _ => hlisted _ (by simp)
    exact failsIn_require fun _ => .inr (.inr ⟨_, rfl⟩)
  · exact failsIn_require fun _ => hlisted _ (by simp)
  · unfold logReceipt ReceiptTree.append
    exact failsIn_bind (failsIn_bind (failsIn_require fun _ => hlisted _ (by simp)) fun _ _ => failsIn_pure _)
      fun _ _ => failsIn_pure _

end Ledger

lemma not_contains {s part : Text} (ch : Char) (hpart : ch ∈ part) (hs : ch ∉ s) : contains s part = false := by
  unfold contains
  rw [decide_eq_false_iff_not]
  exact fun h => hs (h.subset hpart)

lemma mintRefusal_text {env : MintEnvelope} {e : Error} (h : l.MintRefusal env e) :
    contains (Problem.ofError e).detail "wrong_amount".toList = false ∧
      (contains (Problem.ofError e).detail "already".toList = true → l.credited env.depositId = true) ∧
      (Problem.ofError e).code ≠ "already_minted" := by
  rcases h with ⟨rfl, hcredited⟩ | hlisted | ⟨n, rfl⟩
  · exact ⟨by decide +kernel, fun _ => hcredited, by decide +kernel⟩
  · have hall : ∀ e ∈ [Error.wrongNamespace, .wire "deposit is for a different circuit", .wire "bad deposit id",
        .invalidPoint, .invalidProof, .receiptLogFull],
        contains (Problem.ofError e).detail "wrong_amount".toList = false ∧
          contains (Problem.ofError e).detail "already".toList = false ∧
          (Problem.ofError e).code ≠ "already_minted" := by decide +kernel
    obtain ⟨hwrong, halready, hcode⟩ := hall e hlisted
    exact ⟨hwrong, fun h => absurd h (by rw [halready]; decide), hcode⟩
  · have hdetail : (Problem.ofError (.wire s!"proof must be {PROOF_BYTES} bytes, got {n}")).detail =
        "wire format error: proof must be 128 bytes, got ".toList ++ Nat.toDigits 10 n := by
      have hdigits : (toString n).toList = Nat.toDigits 10 n := by simp
      show "wire format error: ".toList ++ (s!"proof must be {PROOF_BYTES} bytes, got {n}").toList = _
      simp only [String.toList_append, hdigits]
      rfl
    have hmissing : ∀ ch : Char, ch.isDigit = false →
        ch ∉ "wire format error: proof must be 128 bytes, got ".toList →
        ch ∉ (Problem.ofError (.wire s!"proof must be {PROOF_BYTES} bytes, got {n}")).detail := by
      intro ch hdigit hch h
      rw [hdetail] at h
      rcases List.mem_append.mp h with hfront | hback
      · exact hch hfront
      · rw [Nat.isDigit_of_mem_toDigits (by decide) (by decide) hback] at hdigit
        cases hdigit
    refine ⟨not_contains '_' (by decide) (hmissing '_' (by decide) (by decide)), fun h => ?_,
      show "malformed" ≠ "already_minted" by decide⟩
    rw [not_contains 'l' (by decide) (hmissing 'l' (by decide) (by decide))] at h
    cases h

namespace Books

variable {a : Answers} {ns : NamespaceConfig} {fate : MintFate} {b b' : Books}

/-- No error text of the store reads like the watcher's own. -/
def StorePlain (a : Answers) : Prop := ∀ op e, a.store op = .failed e →
  contains e "wrong_amount".toList = false ∧ contains e "already".toList = false

/-- The mint is answered, and its intent's row is written. -/
def Completes (a : Answers) (fate : MintFate) (depositId : Text) : Prop :=
  fate = .answered ∧ a.store (.markMinted depositId) = .done ()

/-- The ledger never came to process the mint. -/
def Unprocessed (fate : MintFate) : Prop := fate = .timedOut false ∨ fate = .crashed false

/-- The failure reads like none of the watcher's own, as far as the store's texts do not. -/
def Quiet (a : Answers) (p : Problem) : Prop :=
  p.code ≠ "already_minted" ∧ (StorePlain a →
    contains p.detail "wrong_amount".toList = false ∧ contains p.detail "already".toList = false)

lemma quiet_internal {op : Statement} {e : Text} (he : a.store op = .failed e) : Quiet a (.internal e) :=
  ⟨show "internal" ≠ "already_minted" by decide, fun hplain => hplain op e he⟩

lemma quiet_timeout : Quiet a (.ofError timeoutError) := by
  refine ⟨?_, fun _ => ⟨?_, ?_⟩⟩ <;> decide +kernel

lemma asked_ends (op : Statement) :
    Triple (fun s => s = b) (rescue (answer (a.store op)) fun e => fail (.internal e) : Prog Books Problem Unit)
      fun o s => s = b ∧ (∀ u, o = .done u → a.store op = .done ()) ∧
        ((∀ u, o ≠ .done u) → a.store op ≠ .done ()) ∧ ∀ p, o = .failed p → Quiet a p := by
  apply triple_rescue (Q := fun o s => s = b ∧ o = a.store op)
  · constructor
    rintro s rfl
    exact ⟨rfl, rfl⟩
  · rintro u s ⟨rfl, hop⟩
    exact ⟨rfl, fun _ _ => hop.symm, fun h => absurd rfl (h u), fun _ => nofun⟩
  · intro e
    constructor
    rintro s ⟨rfl, hop⟩
    refine ⟨rfl, fun _ => nofun, fun _ => ?_, fun p h => ?_⟩
    · rw [← hop]
      exact nofun
    · obtain rfl := Outcome.failed.inj h
      exact quiet_internal hop.symm
  · rintro s ⟨rfl, hop⟩
    refine ⟨rfl, fun _ => nofun, fun _ => ?_, fun _ => nofun⟩
    rw [← hop]
    exact nofun

/-- How a submitted mint ends. -/
inductive SubmitEnd (c : Crypto) (fate : MintFate) (env : MintEnvelope) (b : Books) :
    Outcome Error Nat → Books → Prop
  | refused (e : Error) (why : b.ledger.MintRefusal env e ∨ e = timeoutError) : SubmitEnd c fate env b (.failed e) b
  | crashed : SubmitEnd c fate env b .crashed b
  | unanswered (l : Ledger) (r : Applied) (mint : b.ledger.mint c env = .ok (l, r)) (fated : fate ≠ .answered)
      (processed : ¬Unprocessed fate) (o : Outcome Error Nat) (ends : o = .crashed ∨ o = .failed timeoutError) :
      SubmitEnd c fate env b o { b with ledger := l }
  | minted (l : Ledger) (r : Applied) (mint : b.ledger.mint c env = .ok (l, r)) (fated : fate = .answered) :
      SubmitEnd c fate env b (.done r.position) { b with ledger := l }

lemma submitMint_ends (fate : MintFate) (env : MintEnvelope) :
    Triple (fun s => s = b) (submitMint c fate env) (SubmitEnd c fate env b) := by
  constructor
  rintro s rfl
  unfold submitMint
  cases hmint : s.ledger.mint c env with
  | error e =>
    have hsame : s.processed c env = s := by rw [Books.processed, hmint]
    cases fate with
    | answered => exact .refused e (.inl (Ledger.mint_refusal env e hmint))
    | timedOut p =>
      simp only [hsame, ite_self]
      exact .refused _ (.inr rfl)
    | crashed p =>
      simp only [hsame, ite_self]
      exact .crashed
  | ok out =>
    have hnext : s.processed c env = { s with ledger := out.1 } := by rw [Books.processed, hmint]
    cases fate with
    | answered => exact .minted out.1 out.2 hmint rfl
    | timedOut p =>
      cases p with
      | false => exact .refused _ (.inr rfl)
      | true =>
        simp only [hnext, if_true]
        exact .unanswered out.1 out.2 hmint (by simp) (by simp [Unprocessed]) _ (.inr rfl)
    | crashed p =>
      cases p with
      | false => exact .crashed
      | true =>
        simp only [hnext, if_true]
        exact .unanswered out.1 out.2 hmint (by simp) (by simp [Unprocessed]) _ (.inl rfl)

/-- How crediting an intent ends. -/
inductive CreditEnd (c : Crypto) (a : Answers) (fate : MintFate) (receipt : Fr) (depositId : Text) (b : Books) :
    Outcome Problem Nat → Books → Prop
  | refused (p : Problem) (code : p.code ≠ "already_minted")
      (amount : StorePlain a → contains p.detail "wrong_amount".toList = false)
      (credited : StorePlain a → contains p.detail "already".toList = true → b.ledger.credited depositId = true) :
      CreditEnd c a fate receipt depositId b (.failed p) b
  | again (row : IntentRow) (found : b.product.intentRow (frToHex receipt) = some row)
      (minted : row.status = .minted) (read : a.store (.intentStatus depositId) = .done ()) (detail : Text) :
      CreditEnd c a fate receipt depositId b (.failed ⟨"already_minted", detail⟩) b
  | crashed : CreditEnd c a fate receipt depositId b .crashed b
  | lost (row : IntentRow) (l : Ledger) (r : Applied)
      (found : b.product.intentRow (frToHex receipt) = some row) (pending : row.status = .pending)
      (read : a.store (.intentStatus depositId) = .done ())
      (mint : b.ledger.mint c ⟨row.intent, depositId⟩ = .ok (l, r)) (incomplete : ¬Completes a fate depositId)
      (processed : ¬Unprocessed fate) (o : Outcome Problem Nat)
      (ends : o = .crashed ∨ ∃ p, o = .failed p ∧ Quiet a p) :
      CreditEnd c a fate receipt depositId b o { b with ledger := l }
  | minted (row : IntentRow) (l : Ledger) (r : Applied)
      (found : b.product.intentRow (frToHex receipt) = some row) (pending : row.status = .pending)
      (read : a.store (.intentStatus depositId) = .done ())
      (mint : b.ledger.mint c ⟨row.intent, depositId⟩ = .ok (l, r)) (complete : Completes a fate depositId) :
      CreditEnd c a fate receipt depositId b (.done r.position)
        ⟨b.product.markMinted (frToHex receipt) depositId r.position, l⟩

variable {receipt : Fr} {depositId : Text}

lemma CreditEnd.quiet {p : Problem} (h : Quiet a p) : CreditEnd c a fate receipt depositId b (.failed p) b :=
  .refused p h.1 (fun hplain => (h.2 hplain).1) fun hplain halready =>
    absurd halready (ne_true_of_eq_false (h.2 hplain).2)

lemma submitted_ends {row : IntentRow} (hrow : b.product.intentRow (frToHex receipt) = some row)
    (hstatus : row.status = .pending) (hread : a.store (.intentStatus depositId) = .done ()) :
    Triple (fun s => s = b)
      (rescue (submitMint c fate ⟨row.intent, depositId⟩) fun e => fail (.ofError e) : Prog Books Problem Nat)
      fun o t => match o with
        | .done position => ∃ l r, b.ledger.mint c ⟨row.intent, depositId⟩ = .ok (l, r) ∧ fate = .answered ∧
            position = r.position ∧ t = { b with ledger := l }
        | .failed p => CreditEnd c a fate receipt depositId b (.failed p) t
        | .crashed => CreditEnd c a fate receipt depositId b .crashed t := by
  apply triple_rescue (submitMint_ends fate _)
  · intro position t h
    cases h with
    | minted l r hmint hfated => exact ⟨l, r, hmint, hfated, rfl, rfl⟩
    | unanswered l r hmint hfated hprocessed _ hends => rcases hends with h | h <;> cases h
  · intro e
    constructor
    intro t h
    cases h with
    | refused _ hwhy =>
      rcases hwhy with hrefused | rfl
      · obtain ⟨hamount, hcredited, hcode⟩ := mintRefusal_text hrefused
        exact .refused _ hcode (fun _ => hamount) fun _ => hcredited
      · exact .quiet quiet_timeout
    | unanswered l r hmint hfated hprocessed _ hends =>
      rcases hends with h | h
      · cases h
      · obtain rfl := Outcome.failed.inj h
        exact .lost row l r hrow hstatus hread hmint (fun hc => hfated hc.1) hprocessed _
          (.inr ⟨_, rfl, quiet_timeout⟩)
  · intro t h
    cases h with
    | crashed => exact .crashed
    | unanswered l r hmint hfated hprocessed _ hends =>
      exact .lost row l r hrow hstatus hread hmint (fun hc => hfated hc.1) hprocessed _ (.inl rfl)

lemma marked_ends {row : IntentRow} {r : Applied}
    (hrow : b.product.intentRow (frToHex receipt) = some row) (hstatus : row.status = .pending)
    (hread : a.store (.intentStatus depositId) = .done ())
    (hmint : b.ledger.mint c ⟨row.intent, depositId⟩ = .ok (l, r)) (hfated : fate = .answered) :
    Triple (fun s => s = { b with ledger := l })
      (do
        rescue (answer (a.store (.markMinted depositId))) fun e => fail (.internal e)
        updateProduct (·.markMinted (frToHex receipt) depositId r.position)
        return r.position : Prog Books Problem Nat) (CreditEnd c a fate receipt depositId b) := by
  have hprocessed : ¬Unprocessed fate := by
    rw [hfated]
    simp [Unprocessed]
  apply triple_bind (asked_ends _)
  · intro u
    constructor
    rintro t ⟨rfl, hmark, -⟩
    exact .minted row l r hrow hstatus hread hmint ⟨hfated, hmark u rfl⟩
  · rintro p t ⟨rfl, -, hmark, hquiet⟩
    exact .lost row l r hrow hstatus hread hmint (fun hc => hmark (fun _ h => by cases h) hc.2) hprocessed _
      (.inr ⟨p, rfl, hquiet p rfl⟩)
  · rintro t ⟨rfl, -, hmark, -⟩
    exact .lost row l r hrow hstatus hread hmint (fun hc => hmark (fun _ h => by cases h) hc.2) hprocessed _
      (.inl rfl)

theorem creditIntent_ends (c : Crypto) (a : Answers) (fate : MintFate) (receipt : Fr) (depositId : Text) (b : Books) :
    Triple (fun s => s = b) (creditIntent c a fate receipt depositId) (CreditEnd c a fate receipt depositId b) := by
  unfold creditIntent
  apply triple_bind (asked_ends _)
  case hfailed =>
    rintro p s ⟨rfl, -, -, hquiet⟩
    exact .quiet (hquiet p rfl)
  case hcrashed =>
    rintro s ⟨rfl, -⟩
    exact .crashed
  intro u
  apply triple_get
  rintro s ⟨rfl, hread, -⟩
  have hread := hread u rfl
  cases hrow : s.product.intentRow (frToHex receipt) with
  | none =>
    refine ⟨fun t ht => ?_⟩
    rw [ht]
    exact .refused _ (by decide) (fun _ => by decide +kernel) fun _ h => absurd h (by decide +kernel)
  | some row =>
    cases hstatus : row.status with
    | minted =>
      simp only [hstatus, reduceCtorEq, if_false]
      refine ⟨fun t ht => ?_⟩
      rw [ht]
      exact .again row hrow hstatus hread _
    | pending =>
      simp only [hstatus, if_true]
      apply triple_bind (submitted_ends hrow hstatus hread)
      · intro position
        constructor
        rintro t ⟨l, r, hmint, hfated, rfl, rfl⟩
        exact (marked_ends hrow hstatus hread hmint hfated).ends _ rfl
      · exact fun p t h => h
      · exact fun t h => h

/-- The registered intent a deposit is credited against. -/
structure Matched (ns : NamespaceConfig) (b : Books) (ev : DepositEvent) (row : IntentRow) : Prop where
  creditable : Creditable ns ev
  found : b.product.intentRow ev.receiptHex = some row
  amount : row.intent.amount = ev.amount

/-- The reads of a deposit's intent, ahead of its mint. -/
def Reads (a : Answers) (depositId : Text) : Prop :=
  a.store (.intentOf depositId) = .done () ∧ a.store (.intentStatus depositId) = .done ()

/-- How the watcher's verdict on a deposit ends. -/
inductive JudgeEnd (c : Crypto) (a : Answers) (ns : NamespaceConfig) (fate : MintFate) (ev : DepositEvent)
    (b : Books) : Outcome Text (Option DepositStatus) → Books → Prop
  | unmatched (status : DepositStatus) (other : status ≠ .credited) (unmatched : ∀ row, ¬Matched ns b ev row)
      (read : Creditable ns ev → a.store (.intentOf (ev.depositId ns.chainId)) = .done ()) :
      JudgeEnd c a ns fate ev b (.done (some status)) b
  | again (why : b.ledger.credited (ev.depositId ns.chainId) = true ∨
      ∃ row, Matched ns b ev row ∧ row.status = .minted ∧ Reads a (ev.depositId ns.chainId)) :
      JudgeEnd c a ns fate ev b (.done (some .credited)) b
  | nothing (o : Outcome Text (Option DepositStatus)) (ends : ∀ status, o ≠ .done (some status)) :
      JudgeEnd c a ns fate ev b o b
  | lost (row : IntentRow) (l : Ledger) (r : Applied) (found : Matched ns b ev row)
      (pending : row.status = .pending) (reads : Reads a (ev.depositId ns.chainId))
      (mint : b.ledger.mint c ⟨row.intent, ev.depositId ns.chainId⟩ = .ok (l, r))
      (incomplete : ¬Completes a fate (ev.depositId ns.chainId)) (processed : ¬Unprocessed fate)
      (o : Outcome Text (Option DepositStatus)) (ends : ∀ status, o ≠ .done (some status)) :
      JudgeEnd c a ns fate ev b o { b with ledger := l }
  | minted (row : IntentRow) (l : Ledger) (r : Applied) (found : Matched ns b ev row)
      (pending : row.status = .pending) (reads : Reads a (ev.depositId ns.chainId))
      (mint : b.ledger.mint c ⟨row.intent, ev.depositId ns.chainId⟩ = .ok (l, r))
      (complete : Completes a fate (ev.depositId ns.chainId)) :
      JudgeEnd c a ns fate ev b (.done (some .credited))
        ⟨b.product.markMinted ev.receiptHex (ev.depositId ns.chainId) r.position, l⟩

/-- The verdict on an attempted credit. -/
def verdict : Outcome Text Bool → Outcome Text (Option DepositStatus)
  | .done credited => .done (if credited then some .credited else some .unregistered)
  | .failed e =>
    if contains e "wrong_amount".toList then .done (some .wrongAmount)
    else if contains e "already".toList then .done (some .credited)
    else .done none
  | .crashed => .crashed

lemma verdict_failed (e : Text) : verdict (.failed e) =
    if contains e "wrong_amount".toList then .done (some .wrongAmount)
    else if contains e "already".toList then .done (some .credited)
    else .done none := rfl

lemma verdict_already {e : Text} (hwrong : contains e "wrong_amount".toList = false)
    (halready : contains e "already".toList = true) : verdict (.failed e) = .done (some .credited) := by
  rw [verdict_failed, if_neg (ne_true_of_eq_false hwrong), if_pos halready]

lemma verdict_quiet {e : Text} (hwrong : contains e "wrong_amount".toList = false)
    (halready : contains e "already".toList = false) : verdict (.failed e) = .done none := by
  rw [verdict_failed, if_neg (ne_true_of_eq_false hwrong), if_neg (ne_true_of_eq_false halready)]

variable {ev : DepositEvent}

lemma credited_ends {row : IntentRow} (hplain : StorePlain a) (hmatched : Matched ns b ev row)
    (hread : a.store (.intentOf (ev.depositId ns.chainId)) = .done ()) (hreceipt : frToHex receipt = ev.receiptHex) :
    Triple (fun s => s = b)
      (rescue (do let _ ← creditIntent c a fate receipt (ev.depositId ns.chainId); return true) fun p =>
        if p.code = "already_minted" then fail "already credited".toList else fail p.detail : Prog Books Text Bool)
      fun o s => JudgeEnd c a ns fate ev b (verdict o) s := by
  have hsole : ∀ {row' : IntentRow}, b.product.intentRow (frToHex receipt) = some row' → row' = row := by
    intro row' hfound
    rw [hreceipt, hmatched.found] at hfound
    exact (Option.some.inj hfound).symm
  apply triple_rescue (Q := fun (o : Outcome Problem Bool) s =>
    ∃ o', CreditEnd c a fate receipt (ev.depositId ns.chainId) b o' s ∧
      o = match o' with
        | .done _ => .done true
        | .failed p => .failed p
        | .crashed => .crashed)
  · apply triple_bind (creditIntent_ends c a fate receipt _ b)
    · exact fun position => ⟨fun s h => ⟨_, h, rfl⟩⟩
    · exact fun p s h => ⟨_, h, rfl⟩
    · exact fun s h => ⟨_, h, rfl⟩
  · rintro found s ⟨o, hend, ho⟩
    cases hend with
    | minted row' l r hfound hstatus hstored hmint hcomplete =>
      obtain rfl := hsole hfound
      obtain rfl := Outcome.done.inj ho
      rw [hreceipt]
      exact .minted row' l r hmatched hstatus ⟨hread, hstored⟩ hmint hcomplete
    | refused => cases ho
    | again => cases ho
    | crashed => cases ho
    | lost _ _ _ _ _ _ _ _ _ _ hends => rcases hends with rfl | ⟨p, rfl, -⟩ <;> cases ho
  · intro p
    constructor
    rintro s ⟨o, hend, ho⟩
    cases hend with
    | refused p' hcode hwrong halready =>
      have hwrong := hwrong hplain
      obtain rfl := Outcome.failed.inj ho
      rw [if_neg hcode]
      by_cases hcredited : contains p.detail "already".toList = true
      · show JudgeEnd c a ns fate ev b (verdict (.failed p.detail)) b
        rw [verdict_already hwrong hcredited]
        exact .again (.inl (halready hplain hcredited))
      · rw [Bool.not_eq_true] at hcredited
        show JudgeEnd c a ns fate ev b (verdict (.failed p.detail)) b
        rw [verdict_quiet hwrong hcredited]
        exact .nothing _ (by simp)
    | again row' hfound hstatus hstored detail =>
      obtain rfl := hsole hfound
      obtain rfl := Outcome.failed.inj ho
      have halready : verdict (.failed "already credited".toList) = .done (some .credited) := by decide +kernel
      show JudgeEnd c a ns fate ev b (verdict (.failed "already credited".toList)) b
      rw [halready]
      exact .again (.inr ⟨row', hmatched, hstatus, hread, hstored⟩)
    | crashed => cases ho
    | minted => cases ho
    | lost row' l r hfound hstatus hstored hmint hincomplete hprocessed o hends =>
      obtain rfl := hsole hfound
      rcases hends with rfl | ⟨p', rfl, hquiet⟩
      · cases ho
      · obtain rfl := Outcome.failed.inj ho
        rw [if_neg hquiet.1]
        show JudgeEnd c a ns fate ev b (verdict (.failed p.detail)) _
        rw [verdict_quiet (hquiet.2 hplain).1 (hquiet.2 hplain).2]
        exact .lost row' l r hmatched hstatus ⟨hread, hstored⟩ hmint hincomplete hprocessed _ (by simp)
  · rintro s ⟨o, hend, ho⟩
    cases hend with
    | crashed => exact .nothing _ (by simp [verdict])
    | lost row' l r hfound hstatus hstored hmint hincomplete hprocessed o hends =>
      obtain rfl := hsole hfound
      exact .lost row' l r hmatched hstatus ⟨hread, hstored⟩ hmint hincomplete hprocessed _ (by simp [verdict])
    | refused => cases ho
    | again => cases ho
    | minted => cases ho

lemma credit_ends (c : Crypto) (fate : MintFate) (b : Books) (hplain : StorePlain a) (hcreditable : Creditable ns ev)
    (hcanonical : ∀ receipt, frFromHex ev.receiptHex = some receipt → frToHex receipt = ev.receiptHex) :
    Triple (fun s => s = b) (credit c a fate ev.receiptHex (ev.depositId ns.chainId) ev.amount)
      fun o s => JudgeEnd c a ns fate ev b (verdict o) s := by
  unfold credit
  apply triple_bind (R := fun o s => s = b ∧ o = a.store (.intentOf (ev.depositId ns.chainId)))
  case hx =>
    constructor
    rintro s rfl
    exact ⟨rfl, rfl⟩
  case hfailed =>
    rintro e s ⟨rfl, ho⟩
    obtain ⟨hwrong, halready⟩ := hplain _ e ho.symm
    rw [verdict_quiet hwrong halready]
    exact .nothing _ (by simp)
  case hcrashed =>
    rintro s ⟨rfl, -⟩
    exact .nothing _ (by simp [verdict])
  intro u
  apply triple_get
  rintro s ⟨rfl, hread⟩
  have hread := hread.symm
  cases hintent : s.product.intentOf ev.receiptHex with
  | none =>
    refine ⟨fun t ht => ?_⟩
    rw [ht]
    refine .unmatched .unregistered (by decide) (fun row h => ?_) fun _ => hread
    rw [Product.intentOf, h.found] at hintent
    cases hintent
  | some intent =>
    obtain ⟨row, hrow, rfl⟩ := Option.map_eq_some_iff.mp hintent
    by_cases hamount : row.intent.amount = ev.amount
    · simp only [hamount, if_true]
      cases hreceipt : frFromHex ev.receiptHex with
      | none => exact absurd hreceipt hcreditable.2
      | some receipt =>
        exact credited_ends hplain ⟨hcreditable, hrow, hamount⟩ hread (hcanonical receipt hreceipt)
    · simp only [hamount, if_false]
      refine ⟨fun t ht => ?_⟩
      rw [ht]
      show JudgeEnd c a ns fate ev s (verdict (.failed _)) s
      have hwrong : verdict (.failed ("wrong_amount: chain ".toList ++ Nat.toDigits 10 ev.amount ++
          ", intent ".toList ++ Nat.toDigits 10 row.intent.amount)) = .done (some .wrongAmount) := by
        rw [verdict_failed, List.append_assoc, List.append_assoc, if_pos (wrongAmount_text _)]
      rw [hwrong]
      refine .unmatched .wrongAmount (by decide) (fun row' h => ?_) fun _ => hread
      obtain rfl := Option.some.inj (hrow.symm.trans h.found)
      exact hamount h.amount

lemma judge_ends {log : Log} (hplain : StorePlain a) (hev : decodeDeposit log = .ok ev) :
    Triple (fun s => s = b) (judge c a ns fate ev) (JudgeEnd c a ns fate ev b) := by
  unfold judge
  by_cases htoken : ev.token ≠ toLowercase ns.tokenAddress
  · rw [if_pos htoken]
    refine ⟨fun t ht => ?_⟩
    rw [ht]
    exact .unmatched .wrongToken (by decide) (fun row h => htoken h.creditable.1) fun h => absurd h.1 htoken
  · rw [if_neg htoken]
    by_cases hreceipt : frFromHex ev.receiptHex = none
    · rw [if_pos hreceipt]
      refine ⟨fun t ht => ?_⟩
      rw [ht]
      exact .unmatched .badReceipt (by decide) (fun row h => h.creditable.2 hreceipt) fun h => absurd hreceipt h.2
    · rw [if_neg hreceipt]
      unfold judgeCredit
      have hcredit := credit_ends c fate b hplain ⟨not_not.mp htoken, hreceipt⟩
        (fun receipt h => decodeDeposit_receipt hev h)
      apply triple_rescue (Q := fun (o : Outcome Text (Option DepositStatus)) s => ∃ o',
        JudgeEnd c a ns fate ev b (verdict o') s ∧ match o with
          | .failed e => o' = .failed e
          | o => o = verdict o')
      · apply triple_bind hcredit
        · exact fun found => ⟨fun s h => ⟨_, h, rfl⟩⟩
        · exact fun e s h => ⟨_, h, rfl⟩
        · exact fun s h => ⟨_, h, rfl⟩
      · rintro status s ⟨o', h, ho⟩
        exact ho ▸ h
      · intro e
        constructor
        rintro s ⟨o', h, rfl⟩
        rw [verdict_failed] at h
        split_ifs at h ⊢ <;> exact h
      · rintro s ⟨o', h, ho⟩
        exact ho ▸ h

end Books

end Peal.Links
