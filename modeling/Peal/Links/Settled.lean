import Peal.Links.Blocks

namespace Peal.Links
open Peal.Fallible Peal.AppendTree Peal.Runs

/-! # What a processed transaction leaves behind for good -/

variable {c : Crypto} {l m n : Ledger}

/-- What no transaction undoes: the configuration, the registered accounts, the credited deposit ids
and the length of the receipt log. -/
structure Later (l m : Ledger) : Prop where
  cfg : m.cfg = l.cfg
  inst : m.inst = l.inst
  depth : m.tree.depth = l.tree.depth
  accounts : ∀ a, m.account a = none → l.account a = none
  credited : ∀ depositId, m.credited depositId = false → l.credited depositId = false
  size : l.tree.size ≤ m.tree.size

lemma Later.refl (l : Ledger) : Later l l :=
  ⟨rfl, rfl, rfl, fun _ h => h, fun _ h => h, le_refl _⟩

lemma Later.trans (h : Later l m) (h' : Later m n) : Later l n :=
  ⟨h'.cfg.trans h.cfg, h'.inst.trans h.inst, h'.depth.trans h.depth,
    fun a ha => h.accounts a (h'.accounts a ha),
    fun depositId hd => h.credited depositId (h'.credited depositId hd), h.size.trans h'.size⟩

namespace Ledger

lemma later_record (a : Fr) (envelope : Envelope) (position : Option Nat) (root : Nat) :
    Later l (l.record a envelope position root) :=
  ⟨rfl, rfl, rfl, fun _ h => h, fun _ h => h, le_refl _⟩

lemma account_insertAccount {row : AccountRow} {a : Fr} :
    (l.insertAccount row).account a = none ↔ l.account a = none ∧ row.account ≠ a := by
  simp [account, insertAccount]

lemma later_insertAccount (row : AccountRow) : Later l (l.insertAccount row) :=
  ⟨rfl, rfl, rfl, fun _ h => (account_insertAccount.mp h).1, fun _ h => h, le_refl _⟩

lemma later_updateAccount (a com : Fr) (seq : Nat) : Later l (l.updateAccount a com seq) := by
  refine ⟨rfl, rfl, rfl, ?_, fun _ h => h, le_refl _⟩
  intro b h
  simp only [account, updateAccount, Option.map_eq_none_iff, List.find?_eq_none, List.mem_map,
    forall_exists_index, and_imp, forall_apply_eq_imp_iff₂, decide_eq_true_eq] at h ⊢
  intro r hr
  have := h r hr
  by_cases hra : r.account = a
  · simpa [hra] using this
  · simpa [hra] using this

lemma credited_insertDeposit {row : DepositRow} {depositId : Text} :
    (l.insertDeposit row).credited depositId = false ↔
      l.credited depositId = false ∧ row.depositId ≠ depositId := by
  simp [credited, insertDeposit]

lemma later_insertDeposit (row : DepositRow) : Later l (l.insertDeposit row) :=
  ⟨rfl, rfl, rfl, fun _ h => h, fun _ h => (credited_insertDeposit.mp h).1, le_refl _⟩

lemma later_logReceipt {receipt : Fr} (h : l.logReceipt c receipt = .ok m) : Later l m := by
  obtain ⟨t, ht, rfl⟩ := logReceipt_ok h
  obtain ⟨-, rfl⟩ := ReceiptTree.append_eq_ok.mp ht
  refine ⟨rfl, rfl, rfl, fun _ h => h, fun _ h => h, ?_⟩
  simp [ReceiptTree.size]

lemma later_transition {envelope : Envelope} {r : Applied}
    (h : l.transition c envelope = .ok (m, r)) : Later l m := by
  cases envelope with
  | register env =>
    obtain ⟨a, row, root, -, -, -, rfl⟩ := register_ok h
    exact (later_insertAccount row).trans (later_record _ _ _ _)
  | op env =>
    obtain ⟨-, n, root, position, hn, rfl⟩ := apply_ok h
    exact ((later_logReceipt hn).trans (later_updateAccount _ _ _)).trans (later_record _ _ _ _)
  | mint env =>
    obtain ⟨-, -, -, n, root, position, hn, rfl⟩ := mint_ok h
    exact ((later_logReceipt hn).trans (later_insertDeposit _)).trans (later_record _ _ _ _)

lemma stored_transition {envelope : Envelope} {r : Applied} (hl : Stored c l)
    (h : l.transition c envelope = .ok (m, r)) : Stored c m := by
  cases envelope with
  | register env =>
    obtain ⟨a, row, root, -, -, -, rfl⟩ := register_ok h
    obtain ⟨hdepth, hleaves, hbounded, hrecent, hroots⟩ := hl.logged
    exact stored_record hl.config ⟨hdepth, hleaves, hbounded, hrecent, hroots⟩
  | op env =>
    obtain ⟨-, n, root, position, hn, rfl⟩ := apply_ok h
    obtain ⟨hdepth, hleaves, hbounded, hrecent, hroots⟩ := logged_logReceipt hl.logged hn
    obtain ⟨t, -, rfl⟩ := logReceipt_ok hn
    exact stored_record hl.config ⟨hdepth, hleaves, hbounded, hrecent, hroots⟩
  | mint env =>
    obtain ⟨-, -, -, n, root, position, hn, rfl⟩ := mint_ok h
    obtain ⟨hdepth, hleaves, hbounded, hrecent, hroots⟩ := logged_logReceipt hl.logged hn
    obtain ⟨t, -, rfl⟩ := logReceipt_ok hn
    exact stored_record hl.config ⟨hdepth, hleaves, hbounded, hrecent, hroots⟩

lemma register_succeeds {env : RegisterEnvelope} {a : Fr}
    (hverify : env.verify c l.cfg.namespaceId = .ok a) (hnone : l.account a = none) :
    Succeeds (l.register c env) := by
  have hfree : require ((l.account a).isSome = false) Error.accountExists = .ok () := by
    rw [require_eq_ok, hnone]
    rfl
  unfold register
  exact succeeds_bind.mpr ⟨a, hverify, succeeds_bind.mpr ⟨(), hfree, _, rfl⟩⟩

lemma mint_succeeds {env : MintEnvelope} (hcheck : l.checkMint c env = .ok ())
    (hnew : l.credited env.depositId = false) (hroom : l.tree.size < l.inst.maxPositions)
    (hdepth : l.tree.size < 2 ^ min l.tree.depth 63) : Succeeds (l.mint c env) := by
  unfold checkMint at hcheck
  simp only [bind_eq_ok] at hcheck
  obtain ⟨u, hshape, hproof⟩ := hcheck
  unfold mint logReceipt
  simp only [succeeds_bind, require_eq_ok, bind_eq_ok, pure_eq_ok, ReceiptTree.append_eq_ok]
  exact ⟨u, hshape, (), hnew, (), hproof, (), hroom, _, ⟨_, ⟨hdepth, rfl⟩, rfl⟩, _, rfl⟩

lemma register_settled {env : RegisterEnvelope} {r : Applied}
    (hsucc : ∀ m r, l.register c env = .ok (m, r) → Later m n) (hl : Later l n) :
    n.register c env ≠ .ok (m, r) := by
  intro h
  obtain ⟨a, -, -, hverify, hnone, -, -⟩ := register_ok h
  rw [hl.cfg] at hverify
  obtain ⟨⟨m', r'⟩, hm⟩ := register_succeeds hverify (hl.accounts a hnone)
  obtain ⟨a', row, root, hverify', -, hrow, rfl⟩ := register_ok hm
  have hgone := (account_insertAccount.mp ((hsucc _ r' hm).accounts a hnone)).2
  rw [hverify] at hverify'
  exact hgone (hrow.trans (Except.ok.inj hverify').symm)

lemma mint_settled {env : MintEnvelope} {r : Applied}
    (hsucc : ∀ m r, l.mint c env = .ok (m, r) → Later m n) (hl : Later l n) :
    n.mint c env ≠ .ok (m, r) := by
  intro h
  obtain ⟨hcheck, hnew, hroom, n', -, -, hlog, -⟩ := mint_ok h
  obtain ⟨t, ht, -⟩ := logReceipt_ok hlog
  have hbound := (ReceiptTree.append_eq_ok.mp ht).1
  have hsize := hl.size
  have hcheck' : l.checkMint c env = .ok () := by
    rw [← hcheck]
    unfold checkMint mintShape
    rw [hl.cfg]
  rw [hl.inst] at hroom
  rw [hl.depth] at hbound
  obtain ⟨⟨m', r'⟩, hm⟩ := mint_succeeds hcheck' (hl.credited _ hnew) (by omega) (by omega)
  obtain ⟨-, -, -, n'', root, position, -, rfl⟩ := mint_ok hm
  exact (credited_insertDeposit.mp ((hsucc _ r' hm).credited _ hnew)).2 rfl

end Ledger

/-- Every ledger of `ms` is a later state of its ledger in `ls`. -/
def LaterAll (ls ms : Ledgers) : Prop := ∀ ns m, ms ns = some m → ∃ l, ls ns = some l ∧ Later l m

lemma LaterAll.refl (ls : Ledgers) : LaterAll ls ls := fun _ m hm => ⟨m, hm, Later.refl m⟩

lemma LaterAll.trans {ls ms ks : Ledgers} (h : LaterAll ls ms) (h' : LaterAll ms ks) : LaterAll ls ks := by
  intro ns k hk
  obtain ⟨m, hm, hmk⟩ := h' ns k hk
  obtain ⟨l, hl, hlm⟩ := h ns m hm
  exact ⟨l, hl, hlm.trans hmk⟩

lemma txStep_frame {P : Ledger → Prop} {ls ms : Ledgers} {tx : Tx} (h : txStep c ls tx = .ok ms)
    {ns : Namespace} (hsame : ∀ l, ls ns = some l → P l)
    (hmoved : ∀ l m r, ls ns = some l → l.transition c tx.envelope = .ok (m, r) → P m) :
    ∀ m, ms ns = some m → P m := by
  obtain ⟨l, l', r, hl, hr, rfl⟩ := txStep_ok h
  intro m hm
  by_cases hns : ns = tx.namespaceId
  · subst hns
    rw [Function.update_self] at hm
    exact Option.some.inj hm ▸ hmoved l l' r hl hr
  · rw [Function.update_of_ne hns] at hm
    exact hsame m hm

lemma laterAll_txStep {ls ms : Ledgers} {tx : Tx} (h : txStep c ls tx = .ok ms) : LaterAll ls ms := by
  intro ns
  exact txStep_frame (P := fun m => ∃ l, ls ns = some l ∧ Later l m) h
    (fun l hl => ⟨l, hl, Later.refl l⟩) (fun l m r hl hr => ⟨l, hl, Ledger.later_transition hr⟩)

lemma laterAll_exec (ls : Ledgers) (txs : List Tx) : LaterAll ls (exec (txStep c) ls txs) :=
  exec_invariant (txStep c) (I := LaterAll ls)
    (fun _ _ _ h hstep => h.trans (laterAll_txStep hstep)) (LaterAll.refl ls) txs

def StoredAll (c : Crypto) (ls : Ledgers) : Prop := ∀ ns l, ls ns = some l → Stored c l

lemma storedAll_exec {ls : Ledgers} (h : StoredAll c ls) (txs : List Tx) :
    StoredAll c (exec (txStep c) ls txs) :=
  exec_invariant (txStep c) (I := StoredAll c)
    (fun _ _ _ hs hstep ns => txStep_frame hstep (hs ns)
      (fun l _ _ hl hr => Ledger.stored_transition (hs ns l hl) hr)) h txs

/-- A transaction the ledgers have been through is refused, unless it is an operation that the
ledgers have come to fit. -/
theorem processed_refused {ls : Ledgers} {txs : List Tx} {tx : Tx} (htx : tx ∈ txs)
    (hop : ∀ env, tx.envelope = .op env → ∀ l, exec (txStep c) ls txs tx.namespaceId = some l →
      ¬Ledger.Applicable c l env) :
    ∃ e, txStep c (exec (txStep c) ls txs) tx = .error e := by
  cases hstep : txStep c (exec (txStep c) ls txs) tx with
  | error e => exact ⟨e, rfl⟩
  | ok ks =>
    exfalso
    obtain ⟨n, n', r, hn, hr, -⟩ := txStep_ok hstep
    obtain ⟨front, back, rfl⟩ := List.append_of_mem htx
    rw [exec_append, exec_cons] at hn
    have hafter := laterAll_exec (c := c) (advance (txStep c) (exec (txStep c) ls front) tx) back
    obtain ⟨m, hm, hmn⟩ := hafter _ n hn
    have hbefore : LaterAll (exec (txStep c) ls front)
        (advance (txStep c) (exec (txStep c) ls front) tx) :=
      advance_induct (txStep c) (LaterAll.refl _) (fun _ h => laterAll_txStep h)
    obtain ⟨l, hl, hlm⟩ := hbefore _ m hm
    have hsucc : ∀ m' r', l.transition c tx.envelope = .ok (m', r') → Later m' n := by
      intro m' r' h
      rw [advance_of_ok (txStep c) (txStep_accepts hl h), Function.update_self] at hm
      exact Option.some.inj hm ▸ hmn
    cases henv : tx.envelope with
    | register env =>
      rw [henv] at hr hsucc
      exact Ledger.register_settled hsucc (hlm.trans hmn) hr
    | op env =>
      rw [henv] at hr
      refine hop env henv n ?_ (Ledger.apply_ok hr).1
      rw [exec_append, exec_cons]
      exact hn
    | mint env =>
      rw [henv] at hr hsucc
      exact Ledger.mint_settled hsucc (hlm.trans hmn) hr

end Peal.Links
