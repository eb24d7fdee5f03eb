import Peal.Links.MintOnce
import Peal.Links.Replay
import Peal.Links.ClaimedNodes
import Peal.Links.ReceiptChecks
import Peal.Library.Notes

namespace Peal.Links
open Peal.Fallible Peal.AppendTree Peal.Notes

/-! # The value in one namespace's ledger

The ledger sees commitments. What they open to is a pool of notes, in which each accepted envelope is a move. -/

section Relations

variable (c : Crypto)

/-- Commitments bind what they commit to, and none is the value of an empty position. -/
structure Binding : Prop where
  injective : ∀ domain, Function.Injective (c.hash domain)
  nonzero : ∀ inputs, c.hash c.domRec inputs ≠ 0

/-- What a proof of an operation is about. -/
structure OpStatement where
  account : Fr
  com : Fr
  comNew : Fr
  receipt : Fr
  root : Fr
  deriving DecidableEq, Repr

def OpStatement.input (x : OpStatement) : List Fr := [x.account, x.com, x.comNew, x.receipt, x.root]

def OpEnvelope.statement (env : OpEnvelope) : OpStatement :=
  ⟨env.account, env.com, env.comNew, env.receipt, env.root⟩

def accountCommitment (balance : Nat) (rootNull randomness : Fr) : Fr :=
  c.hash c.domAcct [balance, rootNull, randomness]

/-- The value left the account for a receipt. -/
structure SendRelation (x : OpStatement) (w : OpCircuit) : Prop where
  account : x.account = w.acct
  com : x.com = accountCommitment c w.b w.rootNull w.r
  comNew : x.comNew = accountCommitment c (w.b - w.v) w.rootNull w.rNew
  receipt : x.receipt = receiptCommitment c ⟨w.v, w.acct, w.counterparty, w.rReceipt⟩
  covered : w.v ≤ w.b
  range : w.b < 2 ^ 64

/-- The insertion of a position into a sparse tree that does not have it: the leaf was 0 and becomes 1. -/
structure VerifyInsert (depth : Nat) (w : SmtInsertion) : Prop where
  path : PathFits depth w.pid ⟨w.siblings, indexBits depth w.pid⟩
  oldRoot : w.oldRoot = rootFromPath c 0 ⟨w.siblings, indexBits depth w.pid⟩
  newRoot : w.newRoot = rootFromPath c 1 ⟨w.siblings, indexBits depth w.pid⟩

variable (inst : Instance) (bottom : Fr)

/-- A receipt of the log came to the account, which had not claimed its position, and a dummy is logged. -/
structure ReceiveRelation (x : OpStatement) (w : OpCircuit) : Prop where
  account : x.account = w.acct
  com : x.com = accountCommitment c w.b w.nullInsert.oldRoot w.r
  comNew : x.comNew = accountCommitment c (w.b + w.v) w.nullInsert.newRoot w.rNew
  receipt : x.receipt = c.hash c.domRec [0, bottom, bottom, 0, w.rDummy]
  path : PathFits inst.receiptDepth w.pos w.path
  root : rootFromPath c (receiptCommitment c ⟨w.v, w.counterparty, w.acct, w.rReceipt⟩) w.path = x.root
  insertion : VerifyInsert c inst.nullDepth w.nullInsert
  position : w.nullInsert.pid = w.pos
  range : w.b + w.v < 2 ^ 64

/-- The relation of operations: which of the two it was is part of the witness. -/
def OpRelation (x : OpStatement) (w : OpCircuit) : Prop :=
  if w.isSend then SendRelation c x w else ReceiveRelation c inst bottom x w

/-- The destination and the randomness of a deposit. -/
structure DepositWitness where
  account : Fr
  randomness : Fr

structure DepositRelation (amount : Nat) (receipt : Fr) (w : DepositWitness) : Prop where
  receipt : receipt = receiptCommitment c ⟨amount, mintSender c, w.account, w.randomness⟩
  range : amount < 2 ^ 64

/-- A proof that verifies has a witness of its relation. -/
structure ProofsSound : Prop where
  op : ∀ proof x, c.verify .op proof x.input = true → ∃ w, OpRelation c inst bottom x w
  deposit : ∀ proof amount receipt, c.verify .deposit proof (Ledger.depositInput amount receipt) = true →
    ∃ w, DepositRelation c amount receipt w

/-- What an operation with this witness does. -/
def OpCircuit.move (w : OpCircuit) : Move Fr :=
  if w.isSend then .pay w.acct w.v w.counterparty else .claim w.acct w.pos

/-- What a row of the history did, by a witness of its proof. -/
inductive Witnessed (row : OpRow) : Move Fr → Prop where
  | register (env : RegisterEnvelope) (henv : row.envelope = .register env) :
    Witnessed row (.enrol (accountId c env.namespaceId env.pubkey))
  | op (env : OpEnvelope) (henv : row.envelope = .op env) (w : OpCircuit)
    (hw : OpRelation c inst bottom env.statement w) : Witnessed row w.move
  | mint (env : MintEnvelope) (henv : row.envelope = .mint env) (w : DepositWitness)
    (hw : DepositRelation c env.intent.amount env.intent.receipt w) :
    Witnessed row (.issue env.intent.amount w.account)

/-- An account's commitment opens to a holding. -/
def AccountOpens (row : AccountRow) (h : Holding Fr) : Prop :=
  row.account = h.owner ∧ ∃ r, row.com =
    accountCommitment c h.balance (plainRoot (treeNode c) inst.nullDepth (claimedLeaf h.claimed)) r

/-- A receipt opens to a note; only one of type 1 is owed to its receiver. -/
def ReceiptOpens (leaf : Fr) (n : Note Fr) : Prop :=
  ∃ sender receiver kind r, leaf = c.hash c.domRec [n.amount, sender, receiver, kind, r] ∧
    n.owner = if kind = 1 then some receiver else none

/-- The pool that a ledger's commitments open to. -/
structure LedgerOpens (l : Ledger) (p : Pool Fr) : Prop where
  accounts : List.Forall₂ (AccountOpens c inst) l.store.accounts p.holdings
  receipts : List.Forall₂ (ReceiptOpens c) l.tree.leaves p.notes
  minted : p.minted = l.mintedTotal

end Relations

/-! ## Lists whose elements correspond -/

section Corresponding

variable {α β : Type} {R : α → β → Prop} {as : List α} {bs : List β}

lemma forall₂_find? {p : α → Bool} {q : β → Bool} (h : List.Forall₂ R as bs) (hpq : ∀ a b, R a b → p a = q b) :
    Option.Rel R (as.find? p) (bs.find? q) := by
  induction h with
  | nil => exact .none
  | @cons a b as bs hab _ ih =>
    rw [List.find?_cons, List.find?_cons, hpq a b hab]
    cases q b with
    | true => exact .some hab
    | false => exact ih

lemma forall₂_getElem? (h : List.Forall₂ R as bs) {i : Nat} {a : α} (ha : as[i]? = some a) :
    ∃ b, bs[i]? = some b ∧ R a b := by
  induction h generalizing i with
  | nil => cases ha
  | cons hab _ ih =>
    cases i with
    | zero =>
      obtain rfl := Option.some.inj ha
      exact ⟨_, rfl, hab⟩
    | succ i => exact ih ha

lemma forall₂_concat {a : α} {b : β} (h : List.Forall₂ R as bs) (hab : R a b) :
    List.Forall₂ R (as ++ [a]) (bs ++ [b]) :=
  List.rel_append h (.cons hab .nil)

lemma forall₂_concat_left {a : α} (h : List.Forall₂ R (as ++ [a]) bs) :
    ∃ bs' b, bs = bs' ++ [b] ∧ List.Forall₂ R as bs' ∧ R a b := by
  rw [← List.forall₂_reverse_iff, List.reverse_append, List.reverse_singleton, List.singleton_append,
    List.forall₂_cons_left_iff] at h
  obtain ⟨b, rest, hab, hrest, hbs⟩ := h
  refine ⟨rest.reverse, b, ?_, ?_, hab⟩
  · rw [← List.reverse_cons, ← hbs, List.reverse_reverse]
  · rw [← List.forall₂_reverse_iff, List.reverse_reverse]
    exact hrest

end Corresponding

/-! ## What the commitments fix -/

section Openings

variable {c : Crypto} {inst : Instance} {bottom : Fr} {l l' : Ledger} {p : Pool Fr}

lemma Binding.node (hbind : Binding c) : Function.Injective2 (treeNode c) := by
  intro l l' r r' h
  have hinputs := hbind.injective _ h
  simp only [List.cons.injEq, and_true] at hinputs
  exact hinputs

lemma Binding.account (hbind : Binding c) {b b' : Nat} {root root' r r' : Fr}
    (h : accountCommitment c b root r = accountCommitment c b' root' r') : b = b' ∧ root = root' := by
  have hinputs := hbind.injective _ h
  simp only [List.cons.injEq, and_true] at hinputs
  exact ⟨hinputs.1, hinputs.2.1⟩

lemma receipt_of_recent (hbind : Binding c) (hl : Logged c l) {inputs : List Fr} {path : MerklePath} {position : Nat}
    (hpath : PathFits l.inst.receiptDepth position path)
    (hrecent : l.rootIsRecent (rootFromPath c (c.hash c.domRec inputs) path) = true) :
    l.tree.leaves[position]? = some (c.hash c.domRec inputs) := by
  rw [Ledger.rootIsRecent, List.contains_iff_mem, hl.recent] at hrecent
  obtain ⟨size, -, hroot⟩ := List.mem_map.mp hrecent
  rw [ReceiptTree.rootWhen, nodeAt_eq_plainNode, plainNode_root, hl.depth] at hroot
  have hleaf := leaf_of_rootFromPath hbind.node hpath hroot.symm
  have hnonzero := hbind.nonzero inputs
  unfold padded at hleaf
  split at hleaf
  · rw [List.getD_eq_getElem?_getD] at hleaf
    cases hget : l.tree.leaves[position]? with
    | none =>
      rw [hget] at hleaf
      exact absurd hleaf.symm hnonzero
    | some leaf =>
      rw [hget] at hleaf
      exact congrArg some hleaf
  · exact absurd hleaf.symm hnonzero

lemma VerifyInsert.insert (hbind : Binding c) {depth : Nat} {w : SmtInsertion} (hw : VerifyInsert c depth w)
    {claimed : List Nat} (hold : w.oldRoot = plainRoot (treeNode c) depth (claimedLeaf claimed)) :
    w.pid ∉ claimed ∧ w.newRoot = plainRoot (treeNode c) depth (claimedLeaf (claimed ++ [w.pid])) := by
  have hclimb := hw.oldRoot.symm.trans hold
  have hleaf := leaf_of_rootFromPath hbind.node hw.path hclimb
  have htop : w.pid / 2 ^ depth = 0 := Nat.div_eq_of_lt hw.path.range
  have hown : climb (treeNode c) _ _ = _ := climb_leaf (claimedLeaf claimed) w.pid depth
  have hsiblings : w.siblings = plainSiblings (treeNode c) (claimedLeaf claimed) depth w.pid := by
    rw [htop, plainNode_root, ← hclimb, hleaf] at hown
    have hlen : (plainSiblings (treeNode c) (claimedLeaf claimed) depth w.pid).length = depth := by
      rw [plainSiblings, List.length_map, List.length_range]
    refine climb_siblings hbind.node (hw.path.siblings.trans hlen.symm) ?_ hown.symm
    rw [hw.path.siblings, indexBits, List.length_map, List.length_range]
  constructor
  · intro hmem
    rw [claimedLeaf, if_pos hmem] at hleaf
    cases hleaf
  · rw [hw.newRoot, hsiblings, claimedLeaf_insert]
    refine (climb_update (claimedLeaf claimed) w.pid 1 depth).trans ?_
    rw [htop, plainNode_root]

/-! ## What each transition does to the pool -/

lemma register_opens {env : RegisterEnvelope} {r : Applied} (h : l.register c env = .ok (l', r)) :
    let a := accountId c env.namespaceId env.pubkey
    l.account a = none ∧ ∃ row root, row.account = a ∧ row.com = l.initialCommitment c env.randomness ∧
      l' = (l.insertAccount row).record a (.register env) none root := by
  unfold Ledger.register RegisterEnvelope.verify at h
  simp only [bind_eq_ok, require_eq_ok, pure_eq_ok, Prod.mk.injEq] at h
  obtain ⟨a, ⟨-, -, -, -, -, -, rfl⟩, -, hnone, rfl, -⟩ := h
  exact ⟨by simpa using hnone, _, _, rfl, rfl, rfl⟩

lemma AccountOpens.fresh (randomness : Fr) {row : AccountRow} (hcom : row.com = l.initialCommitment c randomness) :
    AccountOpens c l.inst row ⟨row.account, 0, []⟩ := by
  have hempty : claimedLeaf [] = fun _ => (0 : Fr) := by
    funext i
    exact if_neg List.not_mem_nil
  refine ⟨rfl, randomness, ?_⟩
  rw [hcom, hempty, ← plainNode_root, plainNode_const]
  rfl

lemma LedgerOpens.find (hp : LedgerOpens c inst l p) (a : Fr) :
    Option.Rel (AccountOpens c inst) (l.store.accounts.find? fun row => row.account = a) (p.holding a) :=
  forall₂_find? hp.accounts fun row h hrow => by rw [hrow.1]

lemma LedgerOpens.holding (hp : LedgerOpens c inst l p) {a : Fr} {view : AccountView} (hview : l.account a = some view) :
    ∃ h r, p.holding a = some h ∧ h.owner = a ∧
      view.com = accountCommitment c h.balance (plainRoot (treeNode c) inst.nullDepth (claimedLeaf h.claimed)) r := by
  have hfind := hp.find a
  obtain ⟨row, hrow, rfl⟩ := Option.map_eq_some_iff.mp hview
  rw [hrow] at hfind
  cases hh : p.holding a with
  | none =>
    rw [hh] at hfind
    cases hfind
  | some h =>
    rw [hh] at hfind
    cases hfind with
    | some hopens =>
      obtain ⟨-, r, hcom⟩ := hopens
      exact ⟨h, r, rfl, Pool.holding_owner hh, hcom⟩

lemma LedgerOpens.unheld (hp : LedgerOpens c inst l p) {a : Fr} (hnone : l.account a = none) : p.holding a = none := by
  have hfind := hp.find a
  rw [Option.map_eq_none_iff.mp hnone] at hfind
  cases hh : p.holding a with
  | none => rfl
  | some h =>
    rw [hh] at hfind
    cases hfind

lemma LedgerOpens.put (hp : LedgerOpens c inst l p) {h : Holding Fr} {com r : Fr} (seq : Nat)
    (hcom : com = accountCommitment c h.balance (plainRoot (treeNode c) inst.nullDepth (claimedLeaf h.claimed)) r) :
    List.Forall₂ (AccountOpens c inst)
      (l.store.accounts.map fun row => if row.account = h.owner then { row with com := com, updated := seq } else row)
      (p.put h).holdings := by
  unfold Pool.put
  rw [List.forall₂_map_left_iff, List.forall₂_map_right_iff]
  apply hp.accounts.imp
  rintro row g ⟨howner, hopens⟩
  rw [howner]
  by_cases hsame : g.owner = h.owner
  · rw [if_pos hsame, if_pos hsame]
    exact ⟨hsame, r, hcom⟩
  · rw [if_neg hsame, if_neg hsame]
    exact ⟨howner, hopens⟩

lemma LedgerOpens.apply (hp : LedgerOpens c inst l p) {m : Ledger} {env : OpEnvelope} {position : Option Nat} {root : Nat}
    (hm : l.logReceipt c env.receipt = .ok m) {h : Holding Fr} {n : Note Fr} {r : Fr} (howner : h.owner = env.account)
    (hcom : env.comNew =
      accountCommitment c h.balance (plainRoot (treeNode c) inst.nullDepth (claimedLeaf h.claimed)) r)
    (hn : ReceiptOpens c env.receipt n) :
    LedgerOpens c inst ((m.updateAccount env.account env.comNew (l.seq + 1)).record env.account (.op env) position root)
      ((p.put h).append n) := by
  obtain ⟨t, ht, rfl⟩ := Ledger.logReceipt_ok hm
  obtain ⟨-, rfl⟩ := ReceiptTree.append_eq_ok.mp ht
  rw [← howner]
  exact ⟨hp.put (l.seq + 1) hcom, forall₂_concat hp.receipts hn, hp.minted⟩

lemma LedgerOpens.send (hbind : Binding c) (hp : LedgerOpens c inst l p) {env : OpEnvelope} {w : OpCircuit}
    (happlicable : Ledger.Applicable c l env) (hw : SendRelation c env.statement w) :
    ∃ h r, p.holding w.acct = some h ∧ h.owner = env.account ∧ w.v ≤ h.balance ∧
      env.comNew = accountCommitment c (h.balance - w.v)
        (plainRoot (treeNode c) inst.nullDepth (claimedLeaf h.claimed)) r ∧
      ReceiptOpens c env.receipt ⟨w.v, some w.counterparty⟩ := by
  obtain ⟨view, hview, hcom⟩ := happlicable.current
  obtain ⟨h, r, hh, howner, hopens⟩ := hp.holding hview
  obtain ⟨hbalance, hroot⟩ := hbind.account (hopens.symm.trans (hcom.trans hw.com))
  refine ⟨h, w.rNew, hw.account ▸ hh, howner, hbalance ▸ hw.covered, ?_, ?_⟩
  · rw [hbalance, hroot]
    exact hw.comNew
  · exact ⟨_, _, 1, _, hw.receipt, (if_pos rfl).symm⟩

lemma LedgerOpens.receive (hbind : Binding c) (hl : Logged c l) (hp : LedgerOpens c l.inst l p) {env : OpEnvelope}
    {w : OpCircuit} (happlicable : Ledger.Applicable c l env)
    (hw : ReceiveRelation c l.inst bottom env.statement w) :
    ∃ h n r, p.holding w.acct = some h ∧ h.owner = env.account ∧ p.notes[w.pos]? = some n ∧ n.owner = some w.acct ∧
      w.pos ∉ h.claimed ∧ env.comNew = accountCommitment c (h.balance + n.amount)
        (plainRoot (treeNode c) l.inst.nullDepth (claimedLeaf (h.claimed ++ [w.pos]))) r ∧
      ReceiptOpens c env.receipt blank := by
  obtain ⟨view, hview, hcom⟩ := happlicable.current
  obtain ⟨h, r, hh, howner, hopens⟩ := hp.holding hview
  obtain ⟨hbalance, hroot⟩ := hbind.account (hopens.symm.trans (hcom.trans hw.com))
  obtain ⟨hnew, hnext⟩ := hw.insertion.insert hbind hroot.symm
  have hrecent : l.rootIsRecent (rootFromPath c (c.hash c.domRec [w.v, w.counterparty, w.acct, 1, w.rReceipt])
      w.path) = true := by
    rw [← happlicable.recent]
    exact congrArg _ hw.root
  have hleaf := receipt_of_recent hbind hl hw.path hrecent
  obtain ⟨n, hn, sender, receiver, kind, r', hreceipt, hmine⟩ := forall₂_getElem? hp.receipts hleaf
  have hinputs := hbind.injective _ hreceipt
  simp only [List.cons.injEq, and_true] at hinputs
  obtain ⟨hamount, -, rfl, rfl, -⟩ := hinputs
  rw [hw.position] at hnew hnext
  refine ⟨h, n, w.rNew, hw.account ▸ hh, howner, hn, hmine.trans (if_pos rfl), hnew, ?_, ?_⟩
  · rw [hbalance, ← hamount, ← hnext]
    exact hw.comNew
  · exact ⟨_, _, 0, _, hw.receipt, (if_neg (by decide)).symm⟩

lemma opens_transition (hbind : Binding c) (hl : Logged c l) (hp : LedgerOpens c l.inst l p) {envelope : Envelope}
    {r : Applied} (h : l.transition c envelope = .ok (l', r)) {row : OpRow} (hrow : row.envelope = envelope)
    {m : Move Fr} (hm : Witnessed c l.inst bottom row m) :
    ∃ p', p.move m = some p' ∧ LedgerOpens c l.inst l' p' := by
  cases envelope with
  | register env =>
    cases hm with
    | op env' henv => rw [hrow] at henv; cases henv
    | mint env' henv => rw [hrow] at henv; cases henv
    | register env' henv =>
      obtain rfl : env = env' := by simpa using hrow.symm.trans henv
      obtain ⟨hnone, row, root, haccount, hcom, rfl⟩ := register_opens h
      refine ⟨_, Pool.move_enrol.mpr ⟨hp.unheld hnone, rfl⟩, ?_, hp.receipts, hp.minted⟩
      rw [← haccount]
      exact forall₂_concat hp.accounts (.fresh env.randomness hcom)
  | mint env =>
    cases hm with
    | op env' henv => rw [hrow] at henv; cases henv
    | register env' henv => rw [hrow] at henv; cases henv
    | mint env' henv w hw =>
      obtain rfl : env = env' := by simpa using hrow.symm.trans henv
      obtain ⟨-, -, -, m, root, position, hlog, rfl⟩ := Ledger.mint_ok h
      obtain ⟨t, ht, rfl⟩ := Ledger.logReceipt_ok hlog
      obtain ⟨-, rfl⟩ := ReceiptTree.append_eq_ok.mp ht
      refine ⟨_, rfl, hp.accounts, forall₂_concat hp.receipts ⟨_, _, 1, _, hw.receipt, (if_pos rfl).symm⟩, ?_⟩
      simp [Ledger.mintedTotal, Ledger.record, Ledger.insertDeposit, hp.minted]
  | op env =>
    cases hm with
    | mint env' henv => rw [hrow] at henv; cases henv
    | register env' henv => rw [hrow] at henv; cases henv
    | op env' henv w hw =>
      obtain rfl : env = env' := by simpa using hrow.symm.trans henv
      obtain ⟨happlicable, m, root, position, hlog, rfl⟩ := Ledger.apply_ok h
      unfold OpRelation at hw
      unfold OpCircuit.move
      by_cases hsend : w.isSend = true
      · rw [if_pos hsend] at hw ⊢
        obtain ⟨h, r, hh, howner, henough, hcom, hreceipt⟩ := hp.send hbind happlicable hw
        exact ⟨_, Pool.move_pay.mpr ⟨h, hh, henough, rfl⟩, hp.apply hlog howner hcom hreceipt⟩
      · rw [if_neg hsend] at hw ⊢
        obtain ⟨h, n, r, hh, howner, hn, hmine, hnew, hcom, hreceipt⟩ := hp.receive hbind hl happlicable hw
        exact ⟨_, Pool.move_claim.mpr ⟨h, n, hh, hn, hmine, hnew, rfl⟩, hp.apply hlog howner hcom hreceipt⟩

lemma witnessed_transition (hsound : ProofsSound c inst bottom) {envelope : Envelope} {r : Applied}
    (h : l.transition c envelope = .ok (l', r)) {row : OpRow} (hrow : row.envelope = envelope) :
    ∃ m, Witnessed c inst bottom row m := by
  cases envelope with
  | register env => exact ⟨_, .register env hrow⟩
  | op env =>
    have hchecked := (Ledger.apply_ok h).1.valid
    unfold Ledger.checkOp at hchecked
    simp only [bind_eq_ok, require_eq_ok] at hchecked
    obtain ⟨proof, -, hverify⟩ := hchecked
    obtain ⟨w, hw⟩ := hsound.op proof env.statement hverify
    exact ⟨_, .op env hrow w hw⟩
  | mint env =>
    have hchecked := (Ledger.mint_ok h).1
    unfold Ledger.checkMint Ledger.mintProof at hchecked
    simp only [bind_eq_ok, require_eq_ok] at hchecked
    obtain ⟨-, -, proof, -, hverify⟩ := hchecked
    obtain ⟨w, hw⟩ := hsound.deposit proof _ _ hverify
    exact ⟨_, .mint env hrow w hw⟩

end Openings

namespace OpenLedger

/-- The history of an open ledger has witnesses, and by any of them its commitments open to a pool. -/
structure Accounted (c : Crypto) (inst : Instance) (bottom : Fr) (o : OpenLedger) : Prop where
  inst_eq : o.inst = inst
  witnessed : ∃ moves, List.Forall₂ (Witnessed c inst bottom) o.view.store.ops moves
  opened : ∀ moves, List.Forall₂ (Witnessed c inst bottom) o.view.store.ops moves →
    ∃ p, Pool.run {} moves = some p ∧ LedgerOpens c inst o.view p
  credits : o.view.Credits

variable {c : Crypto} {inst : Instance} {bottom : Fr}

lemma accounted_fresh (cfg : LedgerConfig) : Accounted c inst bottom (fresh c inst cfg) := by
  refine ⟨rfl, ⟨[], .nil⟩, ?_, rfl, List.nodup_nil⟩
  intro moves hmoves
  obtain rfl := List.forall₂_nil_left_iff.mp hmoves
  have hleaves : (fresh c inst cfg).view.tree.leaves = [] := (levelsOf_empty (treeNode c) 0 inst.receiptDepth).bottom
  refine ⟨{}, rfl, .nil, ?_, rfl⟩
  rw [hleaves]
  exact .nil

lemma accounted_step (hbind : Binding c) (hsound : ProofsSound c inst bottom) {s s' : OpenLedger} (h : Sound c s)
    {envelope : Envelope} {r : Applied} (ht : s.view.transition c envelope = .ok (s'.view, r))
    (hs : Accounted c inst bottom s) : Accounted c inst bottom s' := by
  obtain ⟨rfl, ⟨moves, hmoves⟩, hopened, hcredits⟩ := hs
  obtain ⟨row, hops, hrow, -⟩ := Ledger.transition_ops ht
  refine ⟨(Ledger.later_transition ht).inst, ?_, ?_, (Ledger.credits_transition hcredits ht).1⟩
  · obtain ⟨m, hm⟩ := witnessed_transition hsound ht hrow
    refine ⟨moves ++ [m], ?_⟩
    rw [hops]
    exact forall₂_concat hmoves hm
  · intro moves' hmoves'
    rw [hops] at hmoves'
    obtain ⟨before, m, rfl, hbefore, hm⟩ := forall₂_concat_left hmoves'
    obtain ⟨p, hrun, hp⟩ := hopened before hbefore
    obtain ⟨p', hmove, hp'⟩ := opens_transition hbind h.stored.logged hp ht hrow hm
    refine ⟨p', ?_, hp'⟩
    rw [Pool.run_concat, hrun]
    exact hmove

variable {batchVerify : Nat → List (Nat × List Fr) → Bool}

/-- After every run of calls, accepted or refused, the proofs in the history have witnesses. By whatever witnesses
they have, the accounts and receipts open to balances and amounts such that the balances and the receipts that
their receivers have not claimed are worth what was minted; no position is claimed twice, and no deposit is minted
twice. -/
theorem value_conserved (hbind : Binding c) (hsound : ProofsSound c inst bottom) (htrust : Trusted c batchVerify)
    (cfg : LedgerConfig) (calls : List Call) :
    let l := (run c batchVerify (fresh c inst cfg) calls).view
    (∃ moves, List.Forall₂ (Witnessed c inst bottom) l.store.ops moves) ∧
    (∀ moves, List.Forall₂ (Witnessed c inst bottom) l.store.ops moves →
      ∃ p, Pool.run {} moves = some p ∧ LedgerOpens c inst l p ∧ p.balances + p.unclaimed = l.mintedTotal ∧
        (∀ h ∈ p.holdings, ∀ i ∈ h.claimed, ∃ n, p.notes[i]? = some n ∧ n.owner = some h.owner) ∧
        (∀ i, i ∈ p.claimed ↔ i ∈ claims moves) ∧ (claims moves).Nodup) ∧
    (l.mints.map (·.depositId)).Nodup := by
  intro l
  have haccounted : Accounted c inst bottom (run c batchVerify (fresh c inst cfg) calls) :=
    run_induct htrust (fun s s' envelope r hs _ ht => accounted_step hbind hsound hs ht) (sound_fresh inst cfg)
      (accounted_fresh cfg) calls
  refine ⟨haccounted.witnessed, ?_, haccounted.credits.nodup⟩
  intro moves hmoves
  obtain ⟨p, hrun, hp⟩ := haccounted.opened moves hmoves
  obtain ⟨hkept, hclaimed, hnodup⟩ := Pool.run_keeps hrun
  exact ⟨p, hrun, hp, hkept.conserved.trans hp.minted, hkept.owned, hclaimed, hnodup⟩

/-! ### A deposit claimed once, and a second time in vain -/

/-- A hash from which its inputs can be read. -/
def readableCrypto : Crypto :=
  { sampleCrypto with hash := fun domain inputs => Nat.pair domain (Encodable.encode inputs) + 1 }

lemma readable_binding : Binding readableCrypto := by
  constructor
  · intro domain inputs inputs' h
    obtain ⟨-, hinputs⟩ := Nat.pair_eq_pair.mp (Nat.succ.inj h)
    exact Encodable.encode_injective hinputs
  · exact fun inputs => Nat.succ_ne_zero _

def claimant : Fr := accountId readableCrypto 5 7

def mintedReceipt : Fr := receiptCommitment readableCrypto ⟨5, mintSender readableCrypto, claimant, 11⟩

def claimWitness : OpCircuit where
  isSend := false
  acct := claimant
  b := 0
  v := 5
  r := 3
  rNew := 4
  rootNull := 0
  counterparty := mintSender readableCrypto
  rReceipt := 11
  rDummy := 6
  root := treeNode readableCrypto mintedReceipt 0
  pos := 0
  path := ⟨[0], [false]⟩
  nullInsert := ⟨treeNode readableCrypto 0 0, treeNode readableCrypto 1 0, 0, [0]⟩

def claimOp : OpEnvelope where
  namespaceId := 5
  circuitId := 9
  account := claimant
  com := accountCommitment readableCrypto 0 (treeNode readableCrypto 0 0) 3
  comNew := accountCommitment readableCrypto 5 (treeNode readableCrypto 1 0) 4
  receipt := readableCrypto.hash readableCrypto.domRec [0, 0, 0, 0, 6]
  root := treeNode readableCrypto mintedReceipt 0
  proof := sampleProof
  pubkey := 7
  signature := 7

/-- Proofs that verify for these two statements and no other. -/
def claimCrypto : Crypto := { readableCrypto with
  verify := fun circuit _ input => match circuit with
    | .op => input = claimOp.statement.input
    | .deposit => input = [5, mintedReceipt] }

lemma claim_sound : ProofsSound claimCrypto ⟨1, 1⟩ 0 := by
  constructor
  · rintro proof ⟨account, com, comNew, receipt, root⟩ hverify
    have hinput : [account, com, comNew, receipt, root] = claimOp.statement.input := of_decide_eq_true hverify
    simp only [OpStatement.input, List.cons.injEq, and_true] at hinput
    obtain ⟨rfl, rfl, rfl, rfl, rfl⟩ := hinput
    have hpath : PathFits 1 0 ⟨[0], [false]⟩ := ⟨rfl, rfl, by decide⟩
    exact ⟨claimWitness, rfl, rfl, rfl, rfl, hpath, rfl, ⟨hpath, rfl, rfl⟩, rfl, by decide⟩
  · intro proof amount receipt hverify
    have hinput : [amount, receipt] = [5, mintedReceipt] := of_decide_eq_true hverify
    simp only [List.cons.injEq, and_true] at hinput
    obtain ⟨rfl, rfl⟩ := hinput
    exact ⟨⟨claimant, 11⟩, rfl, by decide⟩

def claimCalls : List Call :=
  [.register ⟨5, 7, 3, 7⟩ none, .mint ⟨⟨5, 9, 5, mintedReceipt, sampleProof⟩, ['d']⟩ none,
    .applyBatch 0 [claimOp, claimOp] fun _ => none, .apply claimOp none]

theorem value_conserved_sample :
    let batchVerify := fun (_ : Nat) claims => claims.all (verifies claimCrypto)
    let l := (run claimCrypto batchVerify (fresh claimCrypto ⟨1, 1⟩ raceConfig) claimCalls).view
    l.store.ops.length = 3 ∧ l.mintedTotal = 5 ∧ ∃ moves p,
      List.Forall₂ (Witnessed claimCrypto ⟨1, 1⟩ 0) l.store.ops moves ∧ LedgerOpens claimCrypto ⟨1, 1⟩ l p ∧
        p.balances + p.unclaimed = 5 ∧ (claims moves).Nodup := by
  intro batchVerify l
  have htrust : Trusted claimCrypto batchVerify := fun _ _ hall => List.all_eq_true.mp hall
  have hbind : Binding claimCrypto := ⟨readable_binding.injective, readable_binding.nonzero⟩
  obtain ⟨⟨moves, hmoves⟩, hopened, -⟩ := value_conserved hbind claim_sound htrust raceConfig claimCalls
  obtain ⟨p, -, hp, hvalue, -, -, hnodup⟩ := hopened moves hmoves
  have hminted : l.mintedTotal = 5 := by decide +kernel
  exact ⟨by decide +kernel, hminted, moves, p, hmoves, hp, hvalue.trans hminted, hnodup⟩

end OpenLedger

end Peal.Links
