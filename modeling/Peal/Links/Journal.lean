import Peal.Links.Wallet
import Peal.Links.Blocks

namespace Peal.Links
open Peal.Fallible Peal.Runs

/-! # The wallet's journal against a ledger that applies an operation at any later time -/

/-- What the circuit's public values commit to. -/
structure Prover.Sound (c : Crypto) (prover : Prover) : Prop where
  com : ∀ x : OpCircuit, prover.com x =
    c.hash c.domAcct [x.b, if x.isSend then x.rootNull else x.nullInsert.oldRoot, x.r]
  comNew : ∀ x : OpCircuit, prover.comNew x =
    c.hash c.domAcct (if x.isSend then [x.b - x.v, x.rootNull, x.rNew]
      else [x.b + x.v, x.nullInsert.newRoot, x.rNew])

/-- A wallet, its last saved copy, the account view it last read, the ledger, the submitted
operations that may still be applied, and the acceptances not yet answered. -/
structure Journal where
  wallet : Wallet
  saved : Wallet
  view : Option (Fr × Option Nat)
  ledger : Ledger
  pool : List OpEnvelope
  answers : List (OpEnvelope × Nat)

inductive Action where
  | prepareSend (amount : Nat) (recipient root : Fr) (reference : Option Text) (now : Nat)
      (rNew rReceipt : Fr)
  | prepareReceive (idx : Nat) (witness : ReceiptWitness) (now : Nat) (rNew rDummy : Fr)
  | prove (keysCircuitId : Nat) (circuit : OpCircuit)
  | save
  | submit
  | accepted (env : OpEnvelope) (position now : Nat)
  | refused
  | read
  | settle (now : Nat)
  | crash
  | finalized (env : OpEnvelope)
  | expired (env : OpEnvelope)
  | elsewhere (envelope : Envelope)

/-- The commitment an account view reports, and the position of the operation that set it. -/
def readAccount (l : Ledger) (a : Fr) : Option (Fr × Option Nat) :=
  (l.account a).map fun view =>
    (view.com, match l.store.ops.find? (fun r => view.updatedSeq ≤ r.seq) with
      | some { seq, envelope := .op env, position, .. } =>
        if seq = view.updatedSeq ∧ env.account = a then position else none
      | _ => none)

/-- An operation signed for `a`, which only the wallet of `a` can make. -/
def isOpOf (a : Fr) : Envelope → Bool
  | .op env => env.account = a
  | _ => false

variable (c : Crypto) (prover : Prover)

def journalStep (s : Journal) : Action → Except Error Journal
  | .prepareSend amount recipient root reference now rNew rReceipt => do
    let (w, _) ← s.wallet.prepareSend c prover s.ledger.inst amount recipient root reference now rNew rReceipt
    return { s with wallet := w, view := none }
  | .prepareReceive idx witness now rNew rDummy => do
    let (w, _) ← s.wallet.prepareReceive c prover s.ledger.inst idx witness now rNew rDummy
    return { s with wallet := w, view := none }
  | .prove keysCircuitId circuit => do
    let (w, _) ← s.wallet.provePending prover keysCircuitId circuit
    return { s with wallet := w }
  | .save => .ok { s with saved := s.wallet }
  -- The pending operation is saved before it is submitted.
  | .submit => do
    require (s.saved = s.wallet) (.wallet "save before submission")
    let p ← expect s.wallet.pending (.wallet "nothing pending")
    let env ← expect p.envelope (.wallet "not proved")
    return { s with pool := s.pool ++ [env] }
  | .accepted env position now => do
    let p ← expect s.wallet.pending (.wallet "nothing pending")
    require ((env, position) ∈ s.answers ∧ p.envelope = some env) (.wallet "no such answer")
    let w ← s.wallet.commitPending position now
    return { s with wallet := w, view := none }
  -- Any answer with an HTTP status, a time-out of the node's own included.
  | .refused => .ok { s with wallet := s.wallet.abortPending, view := none }
  | .read => .ok { s with view := readAccount s.ledger s.wallet.account }
  | .settle now => do
    let (com, position) ← expect s.view (.wallet "account is not registered")
    let (w, _) ← s.wallet.reconcile c com position now
    return { s with wallet := w, view := none }
  | .crash => .ok { s with wallet := s.saved, view := none }
  | .finalized env => do
    require (env ∈ s.pool) (.wallet "not submitted")
    match s.ledger.apply c env with
    | .ok (l, applied) =>
      return { s with ledger := l, pool := s.pool.erase env, answers := s.answers ++ [(env, applied.position)] }
    | .error _ => return { s with pool := s.pool.erase env }
  | .expired env => .ok { s with pool := s.pool.erase env }
  | .elsewhere envelope => do
    require (isOpOf s.wallet.account envelope = false) .badSignature
    let (l, _) ← s.ledger.transition c envelope
    return { s with ledger := l }

/-- The wallet opens the commitment: its own, or the new one of the operation it still holds. -/
def Opens (w : Wallet) (com : Fr) : Prop :=
  com = w.commitment c ∨ ∃ p, w.pending = some p ∧ com = p.comNew ∧
    ∀ position now, (w.committed p position now).commitment c = com

/-- The wallet holds the opening of the ledger's current commitment for its account. -/
def OpensAccount (s : Journal) : Prop :=
  ∃ view, s.ledger.account s.wallet.account = some view ∧ Opens c s.wallet view.com

/-- A new commitment is none that the wallet or an envelope under way has had: its randomness was drawn
for it alone. -/
def FreshDraw (s : Journal) (action : Action) : Prop :=
  match action with
  | .prepareSend .. | .prepareReceive .. => ∀ s', journalStep c prover s action = .ok s' →
    ∀ p, s'.wallet.pending = some p → p.comNew ≠ s.wallet.commitment c ∧
      (∀ env ∈ s.pool, p.comNew ≠ env.com) ∧ ∀ r ∈ s.answers, p.comNew ≠ r.1.comNew
  | _ => True

/-- The operation has not been applied, and no copy of it is under way any more. -/
def Over (s : Journal) (p : PendingOp) : Prop :=
  (∀ env ∈ s.pool, env.comNew ≠ p.comNew) ∧
    ∀ view, s.ledger.account s.wallet.account = some view → view.com ≠ p.comNew

/-- Where the step drops the pending operation, the operation is over. -/
def AbortsOver (s : Journal) (action : Action) : Prop :=
  ∀ p, s.wallet.pending = some p →
    match action with
    | .refused => Over s p
    | .settle _ => ∀ com position, s.view = some (com, position) → com ≠ p.comNew → com = p.comOld → Over s p
    | _ => True

variable {c prover} {w w' : Wallet} {p : PendingOp}

lemma commitment_committed (w : Wallet) (p : PendingOp) (position now : Nat) :
    (w.committed p position now).commitment c = match p.kind with
      | .send amount _ _ _ => c.hash c.domAcct [w.balance - amount, w.claimed.root c, p.rNew]
      | .receive _ amount =>
        c.hash c.domAcct [w.balance + amount, (p.claimedAfter.getD w.claimed).root c, p.rNew] := by
  unfold Wallet.committed
  cases p.kind with
  | send amount recipient opening reference => rfl
  | receive claimedPos amount => rfl

/-- The operation has just been prepared. -/
structure Prepared (c : Crypto) (w w' : Wallet) (p : PendingOp) : Prop where
  idle : w.pending = none
  pending : w'.pending = some p
  account : w'.account = w.account
  same : w'.commitment c = w.commitment c
  old : p.comOld = w.commitment c
  opening : ∀ position now, (w'.committed p position now).commitment c = p.comNew
  unproved : p.envelope = none

lemma prepareSend_ok (hs : prover.Sound c) {inst : Instance} {amount : Nat} {recipient root : Fr}
    {reference : Option Text} {now : Nat} {rNew rReceipt : Fr} {x : OpCircuit}
    (h : w.prepareSend c prover inst amount recipient root reference now rNew rReceipt = .ok (w', x)) :
    ∃ p, Prepared c w w' p := by
  unfold Wallet.prepareSend Wallet.requireIdle at h
  simp only [bind_eq_ok, require_eq_ok, pure_eq_ok, Prod.mk.injEq] at h
  obtain ⟨-, hidle, -, -, -, -, rfl, -⟩ := h
  refine ⟨_, hidle, rfl, rfl, rfl, hs.com _, ?_, rfl⟩
  intro position now
  rw [commitment_committed, hs.comNew]
  rfl

lemma insert_ok {s s' : ClaimedSet} {pid : Nat} {insertion : SmtInsertion}
    (h : s.insert c pid = .ok (s', insertion)) :
    insertion.oldRoot = s.root c ∧ insertion.newRoot = s'.root c := by
  unfold ClaimedSet.insert at h
  simp only [bind_eq_ok, require_eq_ok, pure_eq_ok, Prod.mk.injEq] at h
  obtain ⟨-, -, -, -, rfl, rfl⟩ := h
  exact ⟨rfl, rfl⟩

lemma prepareReceive_ok (hs : prover.Sound c) {inst : Instance} {idx : Nat} {witness : ReceiptWitness}
    {now : Nat} {rNew rDummy : Fr} {x : OpCircuit}
    (h : w.prepareReceive c prover inst idx witness now rNew rDummy = .ok (w', x)) :
    ∃ p, Prepared c w w' p := by
  unfold Wallet.prepareReceive Wallet.requireIdle at h
  simp only [bind_eq_ok, require_eq_ok, expect_eq_ok, pure_eq_ok, Prod.mk.injEq] at h
  obtain ⟨-, hidle, -, -, held, -, -, -, -, -, -, -, -, -, ⟨after, insertion⟩, hinsert, rfl, -⟩ := h
  obtain ⟨hold, hnew⟩ := insert_ok hinsert
  refine ⟨_, hidle, rfl, rfl, rfl, ?_, ?_, rfl⟩
  · rw [hs.com]
    simp [hold, Wallet.commitment]
  · intro position now
    rw [commitment_committed, hs.comNew]
    simp only [Bool.false_eq_true, if_false, hnew, Option.getD_some]
    rfl

/-- What the wallet holds in step with the ledger's commitment `com` and the operations under way. -/
structure Tracks (c : Crypto) (a com : Fr) (pool : List OpEnvelope) (answers : List (OpEnvelope × Nat))
    (w : Wallet) : Prop where
  account : w.account = a
  opens : com = w.commitment c ∨ ∃ p, w.pending = some p ∧ com = p.comNew
  old : ∀ p, w.pending = some p → p.comOld = w.commitment c ∧ p.comNew ≠ p.comOld
  opening : ∀ p, w.pending = some p → ∀ position now, (w.committed p position now).commitment c = p.comNew
  proved : ∀ p env, w.pending = some p → p.envelope = some env →
    env.account = a ∧ env.com = p.comOld ∧ env.comNew = p.comNew
  covers : ∀ env ∈ pool, env.com = com → ∃ p, w.pending = some p ∧ env.comNew = p.comNew
  apart : ∀ p, w.pending = some p → ∀ env ∈ pool, env.com ≠ p.comNew
  answered : ∀ p, w.pending = some p → ∀ r ∈ answers, r.1.comNew = p.comNew → com = p.comNew

namespace Tracks

variable {a com : Fr} {pool : List OpEnvelope} {answers : List (OpEnvelope × Nat)}

lemma opens_full (h : Tracks c a com pool answers w) : Opens c w com := by
  rcases h.opens with hown | ⟨p, hp, hcom⟩
  · exact Or.inl hown
  · exact Or.inr ⟨p, hp, hcom, fun position now => (h.opening p hp position now).trans hcom.symm⟩

lemma idle (h : Tracks c a com pool answers w) (hidle : w.pending = none) :
    com = w.commitment c ∧ ∀ env ∈ pool, env.com ≠ com := by
  constructor
  · rcases h.opens with hown | ⟨p, hp, -⟩
    · exact hown
    · rw [hidle] at hp
      cases hp
  · intro env henv hcom
    obtain ⟨p, hp, -⟩ := h.covers env henv hcom
    rw [hidle] at hp
    cases hp

lemma of_idle (haccount : w.account = a) (hidle : w.pending = none) (hcom : com = w.commitment c)
    (hpool : ∀ env ∈ pool, env.com ≠ com) : Tracks c a com pool answers w where
  account := haccount
  opens := Or.inl hcom
  old p hp := by rw [hidle] at hp; cases hp
  opening p hp := by rw [hidle] at hp; cases hp
  proved p env hp := by rw [hidle] at hp; cases hp
  covers env henv heq := absurd heq (hpool env henv)
  apart p hp := by rw [hidle] at hp; cases hp
  answered p hp := by rw [hidle] at hp; cases hp

lemma prepared (h : Tracks c a com pool answers w) (hp : Prepared c w w' p)
    (hown : p.comNew ≠ w.commitment c) (hpool : ∀ env ∈ pool, p.comNew ≠ env.com)
    (hanswers : ∀ r ∈ answers, p.comNew ≠ r.1.comNew) : Tracks c a com pool answers w' := by
  obtain ⟨hcom, hnone⟩ := h.idle hp.idle
  have honly : ∀ q, w'.pending = some q → q = p := by
    intro q hq
    rw [hp.pending] at hq
    exact (Option.some.inj hq).symm
  constructor
  · exact hp.account.trans h.account
  · exact Or.inl (hcom.trans hp.same.symm)
  · intro q hq
    obtain rfl := honly q hq
    exact ⟨hp.old.trans hp.same.symm, hp.old ▸ hown⟩
  · intro q hq
    obtain rfl := honly q hq
    exact hp.opening
  · intro q env hq henv
    obtain rfl := honly q hq
    rw [hp.unproved] at henv
    cases henv
  · intro env henv heq
    exact absurd heq (hnone env henv)
  · intro q hq env henv
    obtain rfl := honly q hq
    exact (hpool env henv).symm
  · intro q hq r hr heq
    obtain rfl := honly q hq
    exact absurd heq.symm (hanswers r hr)

lemma committed (h : Tracks c a com pool answers w) (hp : w.pending = some p) (hcom : com = p.comNew)
    (position now : Nat) : Tracks c a com pool answers (w.committed p position now) := by
  apply of_idle
  · rw [← h.account]
    unfold Wallet.committed Wallet.setStatusAt
    split
    · rfl
    · split <;> rfl
  · unfold Wallet.committed
    split <;> rfl
  · exact hcom.trans (h.opening p hp position now).symm
  · rw [hcom]
    exact h.apart p hp

lemma aborted (h : Tracks c a com pool answers w)
    (hover : ∀ p, w.pending = some p → (∀ env ∈ pool, env.comNew ≠ p.comNew) ∧ com ≠ p.comNew) :
    Tracks c a com pool answers w.abortPending := by
  have hsame : w.abortPending.account = w.account ∧ w.abortPending.commitment c = w.commitment c ∧
      w.abortPending.pending = none := by
    unfold Wallet.abortPending Wallet.setStatusAt
    split
    · split <;> exact ⟨rfl, rfl, rfl⟩
    · exact ⟨rfl, rfl, rfl⟩
  apply of_idle (hsame.1.trans h.account) hsame.2.2
  · rw [hsame.2.1]
    rcases h.opens with hown | ⟨p, hp, hcom⟩
    · exact hown
    · exact absurd hcom (hover p hp).2
  · intro env henv heq
    obtain ⟨p, hp, hnew⟩ := h.covers env henv heq
    exact (hover p hp).1 env henv hnew

lemma subset (h : Tracks c a com pool answers w) {pool' : List OpEnvelope} (hsub : ∀ env ∈ pool', env ∈ pool) :
    Tracks c a com pool' answers w where
  account := h.account
  opens := h.opens
  old := h.old
  opening := h.opening
  proved := h.proved
  covers env henv := h.covers env (hsub env henv)
  apart p hp env henv := h.apart p hp env (hsub env henv)
  answered := h.answered

lemma finalized (h : Tracks c a com pool answers w) {env : OpEnvelope} (henv : env ∈ pool)
    (hcom : env.com = com) (position : Nat) :
    Tracks c a env.comNew (pool.erase env) (answers ++ [(env, position)]) w := by
  obtain ⟨p, hp, hnew⟩ := h.covers env henv hcom
  have honly : ∀ q, w.pending = some q → q = p := by
    intro q hq
    rw [hp] at hq
    exact (Option.some.inj hq).symm
  constructor
  · exact h.account
  · exact Or.inr ⟨p, hp, hnew⟩
  · exact h.old
  · exact h.opening
  · exact h.proved
  · intro other hother heq
    exact absurd (heq.trans hnew) (h.apart p hp other (List.mem_of_mem_erase hother))
  · intro q hq other hother
    exact h.apart q hq other (List.mem_of_mem_erase hother)
  · intro q hq _ _ _
    rw [honly q hq]
    exact hnew

lemma submitted (h : Tracks c a com pool answers w) (hp : w.pending = some p) {env : OpEnvelope}
    (henv : p.envelope = some env) : Tracks c a com (pool ++ [env]) answers w := by
  obtain ⟨-, hold, hnew⟩ := h.proved p env hp henv
  obtain ⟨-, hne⟩ := h.old p hp
  constructor
  · exact h.account
  · exact h.opens
  · exact h.old
  · exact h.opening
  · exact h.proved
  · intro other hother heq
    rcases List.mem_append.mp hother with hin | hlast
    · exact h.covers other hin heq
    · rw [List.mem_singleton.mp hlast]
      exact ⟨p, hp, hnew⟩
  · intro q hq other hother
    rcases List.mem_append.mp hother with hin | hlast
    · exact h.apart q hq other hin
    · rw [hp] at hq
      obtain rfl := Option.some.inj hq
      rw [List.mem_singleton.mp hlast, hold]
      exact hne.symm
  · exact h.answered

end Tracks

section Account

variable {l l' : Ledger} {a : Fr}

lemma account_insertAccount_of_some {row : AccountRow} {view : AccountView} (h : l.account a = some view) :
    (l.insertAccount row).account a = some view := by
  unfold Ledger.account at h ⊢
  obtain ⟨r, hr, rfl⟩ := Option.map_eq_some_iff.mp h
  simp [Ledger.insertAccount, List.find?_append, hr]

lemma account_updateAccount (b com : Fr) (seq : Nat) :
    (l.updateAccount b com seq).account a =
      if a = b then (l.account a).map fun _ => ⟨a, com, seq⟩ else l.account a := by
  unfold Ledger.account Ledger.updateAccount
  simp only
  induction l.store.accounts with
  | nil => simp
  | cons r rows ih =>
    rw [List.map_cons, List.find?_cons, List.find?_cons]
    by_cases hr : r.account = a
    · by_cases hab : a = b
      · simp [hr, hab]
      · simp [hr, hab]
    · by_cases hrb : r.account = b
      · simpa [hr, hrb, hrb ▸ hr] using ih
      · simpa [hr, hrb] using ih

lemma account_logReceipt {receipt : Fr} (h : l.logReceipt c receipt = .ok l') :
    l'.account a = l.account a := by
  obtain ⟨t, -, rfl⟩ := Ledger.logReceipt_ok h
  rfl

lemma account_apply {env : OpEnvelope} {r : Applied} (h : l.apply c env = .ok (l', r)) :
    (∃ view, l.account env.account = some view ∧ view.com = env.com) ∧
      (∃ view, l'.account env.account = some view ∧ view.com = env.comNew) ∧
      ∀ b, b ≠ env.account → l'.account b = l.account b := by
  obtain ⟨happlicable, m, root, position, hm, rfl⟩ := Ledger.apply_ok h
  obtain ⟨view, hview, hcom⟩ := happlicable.current
  refine ⟨⟨view, hview, hcom⟩, ⟨⟨env.account, env.comNew, l.seq + 1⟩, ?_, rfl⟩, ?_⟩
  · show (m.updateAccount env.account env.comNew (l.seq + 1)).account env.account = _
    rw [account_updateAccount, if_pos rfl, account_logReceipt hm, hview]
    rfl
  · intro b hb
    show (m.updateAccount env.account env.comNew (l.seq + 1)).account b = _
    rw [account_updateAccount, if_neg hb, account_logReceipt hm]

lemma account_elsewhere {envelope : Envelope} {r : Applied} {view : AccountView}
    (ha : l.account a = some view) (hother : isOpOf a envelope = false)
    (h : l.transition c envelope = .ok (l', r)) : l'.account a = some view := by
  cases envelope with
  | register env =>
    obtain ⟨b, row, root, -, -, -, rfl⟩ := Ledger.register_ok h
    exact account_insertAccount_of_some ha
  | op env =>
    have hne : a ≠ env.account := by
      intro heq
      simp [isOpOf, heq] at hother
    rw [(account_apply h).2.2 a hne, ha]
  | mint env =>
    obtain ⟨-, -, -, m, root, position, hm, rfl⟩ := Ledger.mint_ok h
    show m.account a = _
    rw [account_logReceipt hm, ha]

end Account

/-- The wallet in memory and its saved copy both keep track of the ledger. -/
structure Journaled (c : Crypto) (s : Journal) : Prop where
  tracked : ∃ view, s.ledger.account s.wallet.account = some view ∧
    Tracks c s.wallet.account view.com s.pool s.answers s.wallet ∧
    Tracks c s.wallet.account view.com s.pool s.answers s.saved
  signed : ∀ env ∈ s.pool, env.account = s.wallet.account
  reading : ∀ com position, s.view = some (com, position) → ∀ p, s.wallet.pending = some p →
    com = p.comNew → ∀ view, s.ledger.account s.wallet.account = some view → view.com = p.comNew

namespace Journaled

variable {s s' : Journal}

lemma opensAccount (h : Journaled c s) : OpensAccount c s := by
  obtain ⟨view, hview, htracks, -⟩ := h.tracked
  exact ⟨view, hview, htracks.opens_full⟩

lemma wallet_moves (h : Journaled c s) (w : Wallet) (haccount : w.account = s.wallet.account)
    (hw : ∀ view, s.ledger.account s.wallet.account = some view →
      Tracks c s.wallet.account view.com s.pool s.answers s.wallet →
      Tracks c s.wallet.account view.com s.pool s.answers w) :
    Journaled c { s with wallet := w, view := none } := by
  obtain ⟨view, hview, htracks, hsaved⟩ := h.tracked
  constructor
  · show ∃ view, s.ledger.account w.account = some view ∧ Tracks c w.account _ _ _ w ∧ Tracks c w.account _ _ _ _
    rw [haccount]
    exact ⟨view, hview, hw view hview htracks, hsaved⟩
  · intro env henv
    exact (h.signed env henv).trans haccount.symm
  · intro com position hnone
    cases hnone

lemma prepares (h : Journaled c s) {w : Wallet} {p : PendingOp} (hp : Prepared c s.wallet w p)
    (hfresh : p.comNew ≠ s.wallet.commitment c ∧ (∀ env ∈ s.pool, p.comNew ≠ env.com) ∧
      ∀ r ∈ s.answers, p.comNew ≠ r.1.comNew) :
    Journaled c { s with wallet := w, view := none } :=
  h.wallet_moves w hp.account fun _ _ htracks => htracks.prepared hp hfresh.1 hfresh.2.1 hfresh.2.2

lemma commits (h : Journaled c s) {p : PendingOp} (hp : s.wallet.pending = some p)
    (hcom : ∀ view, s.ledger.account s.wallet.account = some view → view.com = p.comNew)
    (position now : Nat) :
    Journaled c { s with wallet := s.wallet.committed p position now, view := none } := by
  obtain ⟨view, hview, htracks, -⟩ := h.tracked
  exact h.wallet_moves _ (htracks.committed hp (hcom view hview) position now).account
    fun view hview htracks => htracks.committed hp (hcom view hview) position now

lemma aborts (h : Journaled c s) (hover : ∀ p, s.wallet.pending = some p → Over s p) :
    Journaled c { s with wallet := s.wallet.abortPending, view := none } := by
  have habort : ∀ view, s.ledger.account s.wallet.account = some view →
      Tracks c s.wallet.account view.com s.pool s.answers s.wallet →
      Tracks c s.wallet.account view.com s.pool s.answers s.wallet.abortPending :=
    fun view hview htracks => htracks.aborted fun p hp => ⟨(hover p hp).1, (hover p hp).2 view hview⟩
  obtain ⟨view, hview, htracks, -⟩ := h.tracked
  exact h.wallet_moves _ (habort view hview htracks).account habort

lemma ledger_moves (h : Journaled c s) {l : Ledger} {pool : List OpEnvelope}
    {answers : List (OpEnvelope × Nat)} {view view' : AccountView}
    (hold : s.ledger.account s.wallet.account = some view)
    (hnew : l.account s.wallet.account = some view') (hpool : ∀ env ∈ pool, env ∈ s.pool)
    (hcom : ∀ p, s.wallet.pending = some p → view.com = p.comNew → view'.com = p.comNew)
    (hw : ∀ w, Tracks c s.wallet.account view.com s.pool s.answers w →
      Tracks c s.wallet.account view'.com pool answers w) :
    Journaled c { s with ledger := l, pool := pool, answers := answers } := by
  obtain ⟨v, hv, htracks, hsaved⟩ := h.tracked
  rw [hold] at hv
  obtain rfl := Option.some.inj hv
  constructor
  · exact ⟨view', hnew, hw _ htracks, hw _ hsaved⟩
  · exact fun env henv => h.signed env (hpool env henv)
  · intro com position hview p hp heq v hv
    have hv' : l.account s.wallet.account = some v := hv
    rw [hnew] at hv'
    obtain rfl := Option.some.inj hv'
    exact hcom p hp (h.reading com position hview p hp heq view hold)

lemma finalizes (h : Journaled c s) {env : OpEnvelope} (henv : env ∈ s.pool) {l : Ledger} {r : Applied}
    (happly : s.ledger.apply c env = .ok (l, r)) :
    Journaled c { s with
      ledger := l, pool := s.pool.erase env, answers := s.answers ++ [(env, r.position)] } := by
  obtain ⟨⟨view, hview, hcom⟩, ⟨view', hview', hcom'⟩, -⟩ := account_apply happly
  rw [h.signed env henv] at hview hview'
  refine h.ledger_moves hview hview' (fun _ => List.mem_of_mem_erase) ?_ ?_
  · intro p hp hpending
    obtain ⟨v, hv, htracks, -⟩ := h.tracked
    rw [hview] at hv
    obtain rfl := Option.some.inj hv
    exact absurd (hcom.symm.trans hpending) (htracks.apart p hp env henv)
  · intro w htracks
    rw [hcom']
    exact htracks.finalized henv hcom.symm r.position

lemma drops (h : Journaled c s) (env : OpEnvelope) : Journaled c { s with pool := s.pool.erase env } := by
  obtain ⟨view, hview, -, -⟩ := h.tracked
  exact h.ledger_moves hview hview (fun _ => List.mem_of_mem_erase) (fun _ _ heq => heq)
    (fun _ htracks => htracks.subset fun _ => List.mem_of_mem_erase)

lemma proves (h : Journaled c s) {w : Wallet} {keysCircuitId : Nat} {x : OpCircuit} {env : OpEnvelope}
    (hprove : s.wallet.provePending prover keysCircuitId x = .ok (w, env)) :
    Journaled c { s with wallet := w } := by
  unfold Wallet.provePending at hprove
  simp only [bind_eq_ok, require_eq_ok, expect_eq_ok, pure_eq_ok, Prod.mk.injEq] at hprove
  obtain ⟨p, hp, -, -, -, -, rfl, -⟩ := hprove
  obtain ⟨view, hview, htracks, hsaved⟩ := h.tracked
  refine ⟨⟨view, hview, ?_, hsaved⟩, h.signed, ?_⟩
  · constructor
    · exact htracks.account
    · rcases htracks.opens with hown | ⟨q, hq, hcom⟩
      · exact Or.inl hown
      · rw [hp] at hq
        obtain rfl := Option.some.inj hq
        exact Or.inr ⟨_, rfl, hcom⟩
    · rintro q ⟨⟩
      exact htracks.old p hp
    · rintro q ⟨⟩ position now
      have hopening := htracks.opening p hp position now
      rw [commitment_committed] at hopening ⊢
      exact hopening
    · rintro q e ⟨⟩ ⟨⟩
      exact ⟨htracks.account, rfl, rfl⟩
    · intro e he heq
      obtain ⟨q, hq, hnew⟩ := htracks.covers e he heq
      rw [hp] at hq
      obtain rfl := Option.some.inj hq
      exact ⟨_, rfl, hnew⟩
    · rintro q ⟨⟩
      exact htracks.apart p hp
    · rintro q ⟨⟩
      exact htracks.answered p hp
  · intro com position hread q hq
    cases hq
    exact h.reading com position hread p hp

lemma submits (h : Journaled c s) (hsaved : s.saved = s.wallet) {p : PendingOp} {env : OpEnvelope}
    (hp : s.wallet.pending = some p) (henv : p.envelope = some env) :
    Journaled c { s with pool := s.pool ++ [env] } := by
  obtain ⟨view, hview, htracks, -⟩ := h.tracked
  have hsubmitted := htracks.submitted hp henv
  refine ⟨⟨view, hview, hsubmitted, ?_⟩, ?_, h.reading⟩
  · show Tracks c _ _ _ _ s.saved
    rw [hsaved]
    exact hsubmitted
  · intro e he
    rcases List.mem_append.mp he with hin | hlast
    · exact h.signed e hin
    · rw [List.mem_singleton.mp hlast]
      exact (htracks.proved p env hp henv).1

lemma settles (h : Journaled c s) {com : Fr} {position : Option Nat} (hview : s.view = some (com, position))
    (hover : ∀ p, s.wallet.pending = some p → com ≠ p.comNew → com = p.comOld → Over s p) {now : Nat}
    {w : Wallet} {r : Reconciled} (hreconcile : s.wallet.reconcile c com position now = .ok (w, r)) :
    Journaled c { s with wallet := w, view := none } := by
  unfold Wallet.reconcile at hreconcile
  cases hp : s.wallet.pending with
  | none =>
    rw [hp] at hreconcile
    cases hreconcile
    exact h.wallet_moves _ rfl fun _ _ htracks => htracks
  | some p =>
    rw [hp] at hreconcile
    simp only at hreconcile
    split at hreconcile
    · rename_i hnew
      unfold Wallet.commitPending at hreconcile
      simp only [bind_eq_ok, expect_eq_ok, pure_eq_ok, Prod.mk.injEq] at hreconcile
      obtain ⟨pos, -, _, ⟨q, hq, rfl⟩, rfl, -⟩ := hreconcile
      rw [hp] at hq
      obtain rfl := Option.some.inj hq
      exact h.commits hp (h.reading com position hview p hp hnew) pos now
    · rename_i hne
      split at hreconcile
      · rename_i hold
        cases hreconcile
        refine h.aborts fun q hq => hover q hq ?_ ?_
        · rw [hp] at hq
          exact Option.some.inj hq ▸ hne
        · rw [hp] at hq
          exact Option.some.inj hq ▸ hold
      · cases hreconcile
        exact h.wallet_moves _ rfl fun _ _ htracks => htracks

lemma step (hs : prover.Sound c) (h : Journaled c s) {action : Action}
    (hfresh : FreshDraw c prover s action) (hover : AbortsOver s action)
    (hstep : journalStep c prover s action = .ok s') : Journaled c s' := by
  cases action with
  | prepareSend amount recipient root reference now rNew rReceipt =>
    have hnew := hfresh s' hstep
    unfold journalStep at hstep
    simp only [bind_eq_ok, pure_eq_ok] at hstep
    obtain ⟨⟨w, x⟩, hw, rfl⟩ := hstep
    obtain ⟨p, hp⟩ := prepareSend_ok hs hw
    exact h.prepares hp (hnew p hp.pending)
  | prepareReceive idx witness now rNew rDummy =>
    have hnew := hfresh s' hstep
    unfold journalStep at hstep
    simp only [bind_eq_ok, pure_eq_ok] at hstep
    obtain ⟨⟨w, x⟩, hw, rfl⟩ := hstep
    obtain ⟨p, hp⟩ := prepareReceive_ok hs hw
    exact h.prepares hp (hnew p hp.pending)
  | prove keysCircuitId circuit =>
    unfold journalStep at hstep
    simp only [bind_eq_ok, pure_eq_ok] at hstep
    obtain ⟨⟨w, env⟩, hw, rfl⟩ := hstep
    exact h.proves hw
  | save =>
    cases hstep
    obtain ⟨view, hview, htracks, -⟩ := h.tracked
    exact ⟨⟨view, hview, htracks, htracks⟩, h.signed, h.reading⟩
  | submit =>
    unfold journalStep at hstep
    simp only [bind_eq_ok, require_eq_ok, expect_eq_ok, pure_eq_ok] at hstep
    obtain ⟨-, hsaved, p, hp, env, henv, rfl⟩ := hstep
    exact h.submits hsaved hp henv
  | accepted env position now =>
    unfold journalStep Wallet.commitPending at hstep
    simp only [bind_eq_ok, require_eq_ok, expect_eq_ok, pure_eq_ok] at hstep
    obtain ⟨p, hp, -, ⟨hanswer, henv⟩, _, ⟨q, hq, rfl⟩, rfl⟩ := hstep
    rw [hp] at hq
    obtain rfl := Option.some.inj hq
    refine h.commits hp (fun view hview => ?_) position now
    obtain ⟨v, hv, htracks, -⟩ := h.tracked
    rw [hview] at hv
    obtain rfl := Option.some.inj hv
    exact htracks.answered p hp _ hanswer (htracks.proved p env hp henv).2.2
  | refused =>
    cases hstep
    exact h.aborts hover
  | read =>
    cases hstep
    refine ⟨h.tracked, h.signed, ?_⟩
    intro com position hread p hp heq view hview
    unfold readAccount at hread
    rw [hview] at hread
    cases hread
    exact heq
  | settle now =>
    unfold journalStep at hstep
    simp only [bind_eq_ok, expect_eq_ok, pure_eq_ok] at hstep
    obtain ⟨⟨com, position⟩, hview, ⟨w, r⟩, hreconcile, rfl⟩ := hstep
    exact h.settles hview (fun p hp => hover p hp com position hview) hreconcile
  | crash =>
    cases hstep
    obtain ⟨view, hview, -, hsaved⟩ := h.tracked
    exact h.wallet_moves _ hsaved.account fun v hv _ => by
      rw [hview] at hv
      exact Option.some.inj hv ▸ hsaved
  | finalized env =>
    unfold journalStep at hstep
    simp only [bind_eq_ok, require_eq_ok] at hstep
    obtain ⟨-, henv, hstep⟩ := hstep
    cases happly : s.ledger.apply c env with
    | error e =>
      rw [happly] at hstep
      cases hstep
      exact h.drops env
    | ok out =>
      rw [happly] at hstep
      cases hstep
      exact h.finalizes henv happly
  | expired env =>
    cases hstep
    exact h.drops env
  | elsewhere envelope =>
    unfold journalStep at hstep
    simp only [bind_eq_ok, require_eq_ok, pure_eq_ok] at hstep
    obtain ⟨-, hother, ⟨l, r⟩, hl, rfl⟩ := hstep
    obtain ⟨view, hview, -, -⟩ := h.tracked
    exact h.ledger_moves hview (account_elsewhere hview hother hl) (fun _ henv => henv)
      (fun _ _ heq => heq) (fun _ htracks => htracks)

end Journaled

/-- A registered wallet with nothing pending, saved, and in step with its ledger. -/
def Journal.start (w : Wallet) (l : Ledger) : Journal := ⟨w, w, none, l, [], []⟩

lemma journaled_start {w : Wallet} {l : Ledger} {view : AccountView} (hidle : w.pending = none)
    (hview : l.account w.account = some view) (hcom : view.com = w.commitment c) :
    Journaled c (Journal.start w l) := by
  have htracks : Tracks c w.account view.com [] [] w :=
    Tracks.of_idle rfl hidle hcom (fun env henv => absurd henv List.not_mem_nil)
  exact ⟨⟨view, hview, htracks, htracks⟩, fun env henv => absurd henv List.not_mem_nil,
    fun com position hnone => by cases hnone⟩

/-- In every run in which the wallet drops an operation only when the operation is over, the wallet holds
the opening of the ledger's current commitment for its account. -/
theorem journal_opens (hs : prover.Sound c) {w : Wallet} {l : Ledger} {view : AccountView}
    (hidle : w.pending = none) (hview : l.account w.account = some view)
    (hcom : view.com = w.commitment c) {actions : List Action}
    (hfresh : Along (journalStep c prover) (FreshDraw c prover) (Journal.start w l) actions)
    (hover : Along (journalStep c prover) AbortsOver (Journal.start w l) actions) :
    Throughout (journalStep c prover) (OpensAccount c) (Journal.start w l) actions := by
  have hboth := along_and (journalStep c prover) hfresh hover
  have hrun := throughout_along (journalStep c prover) (I := Journaled c)
    (fun _ _ _ h hok hstep => h.step hs hok.1 hok.2 hstep) (journaled_start hidle hview hcom) hboth
  exact fun n => (hrun n).opensAccount

section Sample

def sampleProver : Prover where
  com x := sampleCrypto.hash sampleCrypto.domAcct
    [x.b, if x.isSend then x.rootNull else x.nullInsert.oldRoot, x.r]
  comNew x := sampleCrypto.hash sampleCrypto.domAcct (if x.isSend then [x.b - x.v, x.rootNull, x.rNew]
    else [x.b + x.v, x.nullInsert.newRoot, x.rNew])
  receiptOut x := sampleCrypto.hash sampleCrypto.domRec [x.v, x.acct, x.counterparty, 1, x.rReceipt]
  prove _ := sampleProof
  sign _ := 7

lemma sampleProver_sound : sampleProver.Sound sampleCrypto := ⟨fun _ => rfl, fun _ => rfl⟩

/-- A new account with nothing in it yet. -/
def sampleWallet : Wallet where
  circuitId := 9
  namespaceId := 5
  pubkey := 7
  account := accountId sampleCrypto 5 7
  balance := 0
  randomness := 3
  claimed := ⟨2, []⟩
  registered := true
  pending := none
  receipts := []
  history := []
  seq := 0
  knownRoots := []
  pendingDeposits := []
  sentOpenings := []

def sampleRegistered : Ledger :=
  match (Ledger.fresh sampleCrypto sampleInstance ⟨5, 9, 4⟩).register sampleCrypto ⟨5, 7, 3, 7⟩ with
  | .ok (l, _) => l
  | .error _ => Ledger.fresh sampleCrypto sampleInstance ⟨5, 9, 4⟩

def sampleCircuit : OpCircuit where
  isSend := true
  acct := sampleWallet.account
  b := 0
  v := 0
  r := 3
  rNew := 4
  rootNull := sampleWallet.claimed.root sampleCrypto
  counterparty := 42
  rReceipt := 5
  rDummy := 0
  root := sampleRegistered.tree.root sampleCrypto
  pos := 0
  path := ⟨[0, 0], [false, false]⟩
  nullInsert := ⟨0, 0, 0, []⟩

def sampleEnvelope : OpEnvelope where
  namespaceId := 5
  circuitId := 9
  account := sampleWallet.account
  com := sampleWallet.commitment sampleCrypto
  comNew := sampleProver.comNew sampleCircuit
  receipt := sampleProver.receiptOut sampleCircuit
  root := sampleRegistered.tree.root sampleCrypto
  proof := sampleProof
  pubkey := 7
  signature := 7

/-- A send, from its preparation to its submission. -/
def sampleSubmission : List Action :=
  [.prepareSend 0 42 (sampleRegistered.tree.root sampleCrypto) none 0 4 5, .prove 9 sampleCircuit, .save,
    .submit]

def sampleStart : Journal := Journal.start sampleWallet sampleRegistered

lemma sampleSubmission_fresh (rest : List Action)
    (hrest : ∀ s, Along (journalStep sampleCrypto sampleProver) (FreshDraw sampleCrypto sampleProver) s rest) :
    Along (journalStep sampleCrypto sampleProver) (FreshDraw sampleCrypto sampleProver) sampleStart
      (sampleSubmission ++ rest) := by
  refine ⟨?_, trivial, trivial, trivial, hrest _⟩
  intro s' hs' p hp
  have hnew : ((journalStep sampleCrypto sampleProver sampleStart
      (.prepareSend 0 42 (sampleRegistered.tree.root sampleCrypto) none 0 4 5)).toOption.bind
        fun s => s.wallet.pending.map (·.comNew)) = some (sampleProver.comNew sampleCircuit) := by
    decide +kernel
  rw [hs'] at hnew
  have hcom : p.comNew = sampleProver.comNew sampleCircuit := by
    simpa [Except.toOption, hp] using hnew
  rw [hcom]
  exact ⟨by decide +kernel, fun env henv => absurd henv List.not_mem_nil,
    fun r hr => absurd hr List.not_mem_nil⟩

/-- The answer is lost in a crash, and read again. -/
def sampleAccepted : List Action := [.finalized sampleEnvelope, .crash, .accepted sampleEnvelope 0 1, .save]

theorem journal_opens_sample :
    OpensAccount sampleCrypto (exec (journalStep sampleCrypto sampleProver) sampleStart
      ((sampleSubmission ++ sampleAccepted).take 8)) :=
  journal_opens sampleProver_sound (show sampleWallet.pending = none from rfl)
    (show sampleRegistered.account sampleWallet.account =
      some ⟨sampleWallet.account, sampleWallet.commitment sampleCrypto, 1⟩ by decide +kernel) rfl
    (sampleSubmission_fresh sampleAccepted fun _ => ⟨trivial, trivial, trivial, trivial, trivial⟩)
    ⟨fun _ _ => trivial, fun _ _ => trivial, fun _ _ => trivial, fun _ _ => trivial, fun _ _ => trivial,
      fun _ _ => trivial, fun _ _ => trivial, fun _ _ => trivial, trivial⟩ 8

/-- The node times out and answers with an error, the wallet drops the operation and its randomness,
and the validators finalize it after all. -/
theorem journal_strands :
    Along (journalStep sampleCrypto sampleProver) (FreshDraw sampleCrypto sampleProver) sampleStart
      (sampleSubmission ++ [.refused, .save, .finalized sampleEnvelope]) ∧
    ¬OpensAccount sampleCrypto (exec (journalStep sampleCrypto sampleProver) sampleStart
      (sampleSubmission ++ [.refused, .save, .finalized sampleEnvelope])) := by
  refine ⟨sampleSubmission_fresh _ fun _ => ⟨trivial, trivial, trivial, trivial⟩, ?_⟩
  rintro ⟨view, hview, hown | ⟨p, hp, -⟩⟩
  · have hcom : ((exec (journalStep sampleCrypto sampleProver) sampleStart
        (sampleSubmission ++ [.refused, .save, .finalized sampleEnvelope])).ledger.account
          sampleWallet.account).map (·.com) ≠ some (sampleWallet.commitment sampleCrypto) := by
      decide +kernel
    have hsame : (exec (journalStep sampleCrypto sampleProver) sampleStart
        (sampleSubmission ++ [.refused, .save, .finalized sampleEnvelope])).wallet = sampleWallet := by
      decide +kernel
    rw [hsame] at hview hown
    rw [hview, Option.map_some, hown] at hcom
    exact hcom rfl
  · have hidle : (exec (journalStep sampleCrypto sampleProver) sampleStart
        (sampleSubmission ++ [.refused, .save, .finalized sampleEnvelope])).wallet.pending = none := by
      decide +kernel
    rw [hidle] at hp
    cases hp

end Sample

end Peal.Links
