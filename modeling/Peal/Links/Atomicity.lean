import Peal.Links.OpenLedger
import Peal.Links.Settled

namespace Peal.Links
open Peal.Fallible Peal.AppendTree Peal.Methods

/-! # A refused call changes nothing, an accepted one is its transition -/

variable {c : Crypto}

namespace LevelTree

/-- The log a tree with its levels stands for. -/
def view (t : LevelTree) : ReceiptTree := ⟨t.depth, t.leaves⟩

variable {t t' : LevelTree}

lemma append_eq_ok {leaf : Fr} : t.append c leaf = .ok t' ↔
    t.size < 2 ^ min t.depth 63 ∧ t' = ⟨t.depth, appendLevels (treeNode c) 0 leaf t.levels⟩ := by
  unfold append
  simp only [bind_eq_ok, require_eq_ok, pure_eq_ok]
  constructor
  · rintro ⟨-, hlt, rfl⟩
    exact ⟨hlt, rfl⟩
  · rintro ⟨hlt, rfl⟩
    exact ⟨(), hlt, rfl⟩

lemma append_eq_error {leaf : Fr} {e : Error} :
    t.append c leaf = .error e ↔ t.view.append leaf = .error e := by
  unfold append ReceiptTree.append
  simp only [bind_eq_error, require_eq_error, pure_eq_error, and_false, exists_false, or_false]
  rfl

/-- The levels are those of the tree over the leaves. -/
def Levelled (c : Crypto) (t : LevelTree) : Prop := LevelsOf (treeNode c) 0 t.leaves t.depth t.levels

lemma append_leaves {leaf : Fr} (ht : t.Levelled c) (h : t.append c leaf = .ok t') :
    t'.leaves = t.leaves ++ [leaf] ∧ t'.Levelled c := by
  obtain ⟨-, rfl⟩ := append_eq_ok.mp h
  have hnext := levelsOf_append leaf ht
  refine ⟨hnext.bottom, ?_⟩
  unfold Levelled leaves
  rw [hnext.bottom]
  exact hnext

lemma fromLeaves_concat (depth : Nat) (leaves : List Fr) (leaf : Fr) :
    fromLeaves c depth (leaves ++ [leaf]) = fromLeaves c depth leaves >>= fun t => t.append c leaf := by
  unfold fromLeaves
  rw [List.foldlM_append]
  cases leaves.foldlM (append c) (new depth) with
  | error e => rfl
  | ok t =>
    show ([leaf].foldlM (append c) t : Except Error LevelTree) = t.append c leaf
    rw [List.foldlM_cons]
    cases t.append c leaf <;> rfl

lemma fromLeaves_spec {depth : Nat} {leaves : List Fr} (h : fromLeaves c depth leaves = .ok t) :
    t.depth = depth ∧ t.leaves = leaves ∧ t.Levelled c := by
  induction leaves using List.reverseRecOn generalizing t with
  | nil =>
    cases h
    have hempty := levelsOf_empty (treeNode c) 0 depth
    refine ⟨rfl, hempty.bottom, ?_⟩
    unfold Levelled
    rw [show (new depth).leaves = [] from hempty.bottom]
    exact hempty
  | append_singleton leaves leaf ih =>
    rw [fromLeaves_concat, bind_eq_ok] at h
    obtain ⟨s, hs, hst⟩ := h
    obtain ⟨hdepth, hleaves, hlevels⟩ := ih hs
    obtain ⟨hnext, hlevels'⟩ := append_leaves hlevels hst
    obtain ⟨-, rfl⟩ := append_eq_ok.mp hst
    exact ⟨hdepth, hnext.trans (by rw [hleaves]), hlevels'⟩

lemma Levelled.storedNode (h : t.Levelled c) {size : Nat} (hsize : size ≤ t.size) :
    storedNode (treeNode c) 0 t.levels size t.depth 0 = t.view.rootWhen c size :=
  storedNode_eq h hsize (le_refl _) 0

lemma Levelled.root (h : t.Levelled c) : t.root c = t.view.root c := by
  have hnode := (h.level t.depth (le_refl _)).node 0
  unfold LevelTree.root ReceiptTree.root ReceiptTree.rootWhen
  rw [show t.view.size = t.leaves.length from rfl, show t.view.depth = t.depth from rfl,
    show t.view.leaves = t.leaves from rfl, ← hnode]
  cases t.levels.getD t.depth [] <;> rfl

lemma Levelled.recentRoots (h : t.Levelled c) (window : Nat) :
    t.recentRoots c window = recentFromTree c t.view window := by
  unfold LevelTree.recentRoots recentFromTree AppendTree.recentRoots
  apply List.map_congr_left
  intro size hsize
  rw [List.mem_range'_1] at hsize
  exact h.storedNode (by omega)

end LevelTree

namespace OpenLedger

variable {o : OpenLedger}

/-- The ledger an open one stands for. -/
def view (o : OpenLedger) : Ledger where
  inst := o.inst
  cfg := o.cfg
  store := o.conn.store
  tree := o.tree.view
  recent := o.recent
  seq := o.seq
  stateRoot := o.stateRoot

/-- No transaction is open, the memory is what the store's rows give, and the next row's key is new. -/
structure Sound (c : Crypto) (o : OpenLedger) : Prop where
  idle : o.conn.tx = none
  rebuilt : LevelTree.fromLeaves c o.tree.depth o.tree.leaves = .ok o.tree
  stored : Stored c o.view
  positions : o.conn.store.receipts.map (·.position) = List.range o.tree.size
  seqs : o.conn.store.ops.map (·.seq) = List.range' 1 o.seq

/-- The ledger once its call has begun a transaction. -/
def begun (o : OpenLedger) : OpenLedger := { o with conn := ⟨o.conn.store, some o.conn.store⟩ }

lemma Sound.levelled (h : Sound c o) : o.tree.Levelled c := (LevelTree.fromLeaves_spec h.rebuilt).2.2

lemma Sound.reads (h : Sound c o) : o.conn.reads = o.conn.store := by
  rw [Conn.reads, h.idle, Option.getD_none]

lemma Sound.account (h : Sound c o) (a : Fr) : o.account a = o.view.account a := by
  rw [OpenLedger.account, h.reads]
  rfl

lemma Sound.credited (h : Sound c o) (depositId : Text) :
    o.credited depositId = o.view.credited depositId := by
  rw [OpenLedger.credited, h.reads]
  rfl

lemma Sound.leaves (h : Sound c o) : o.conn.store.receipts.map (·.leaf) = o.tree.leaves :=
  h.stored.logged.leaves.symm

lemma Sound.reload (h : Sound c o) :
    LevelTree.fromLeaves c o.inst.receiptDepth (o.conn.store.receipts.map (·.leaf)) = .ok o.tree ∧
      o.tree.recentRoots c o.cfg.rootWindow = o.recent := by
  refine ⟨?_, h.levelled.recentRoots _ |>.trans h.stored.logged.recent.symm⟩
  have hdepth : o.tree.depth = o.inst.receiptDepth := h.stored.logged.depth
  rw [h.leaves, ← hdepth]
  exact h.rebuilt

lemma Sound.dropTx (h : Sound c o) : o.dropTx = o := by
  obtain ⟨⟨store, tx⟩, inst, cfg, tree, recent, seq, stateRoot⟩ := o
  obtain rfl : tx = none := h.idle
  rfl

lemma Sound.dropTx_begun (h : Sound c o) : o.begun.dropTx = o := h.dropTx

lemma Sound.beginTx (h : Sound c o) (fault : Fault) {post : Unit → OpenLedger → Prop}
    {failed : Error → OpenLedger → Prop} (hpost : post () o.begun)
    (hfailed : ∀ e, fault ≠ none → failed e o) :
    Meets (statement fault 0 .beginTx) o post failed := by
  unfold statement
  simp only [meets_bind, meets_get, meets_lift, meets_set, require_eq_ok, require_eq_error]
  refine ⟨fun _ _ => ⟨?_, ?_⟩, ?_⟩
  · intro conn hconn
    unfold Conn.execute at hconn
    simp only [bind_eq_ok, require_eq_ok, pure_eq_ok] at hconn
    obtain ⟨-, -, rfl⟩ := hconn
    exact hpost
  · intro e he
    unfold Conn.execute at he
    simp only [bind_eq_error, require_eq_error, pure_eq_error, and_false, exists_false, or_false] at he
    exact absurd h.idle he.1
  · rintro e ⟨hfault, -⟩
    exact hfailed e fun hnone => hfault (by simp [hnone])

lemma Sound.meets_reloadTree (h : Sound c o) {tree : LevelTree} {recent : List Fr}
    {post : Unit → OpenLedger → Prop} {failed : Error → OpenLedger → Prop} :
    Meets (reloadTree c) ({ o.begun with tree := tree, recent := recent } : OpenLedger).dropTx post failed ↔
      post () o := by
  have hreads : ({ o.begun with tree := tree, recent := recent } : OpenLedger).dropTx.conn.reads =
      o.conn.store := rfl
  obtain ⟨htree, hrecent⟩ := h.reload
  have hagain : ({ ({ o.begun with tree := tree, recent := recent } : OpenLedger).dropTx with
      tree := o.tree, recent := o.tree.recentRoots c o.cfg.rootWindow } : OpenLedger) = o := by
    rw [hrecent]
    exact h.dropTx_begun
  unfold reloadTree
  simp only [meets_bind, meets_get, meets_lift, meets_set, hreads]
  constructor
  · rintro ⟨hpost, -⟩
    exact (congrArg (post ()) hagain).mp (hpost o.tree htree)
  · intro hpost
    refine ⟨fun tree' htree' => ?_, fun e he => ?_⟩
    · obtain rfl := Except.ok.inj (htree.symm.trans htree')
      exact (congrArg (post ()) hagain).mpr hpost
    · exact absurd (htree.symm.trans he) (by simp)

lemma writeAll_spec {s : Store} (htx : o.conn.tx = some s) (fault : Fault) (writes : List Write) :
    Meets (writeAll fault writes) o
      (fun _ o' => ∃ s', writes.foldlM Store.write s = .ok s' ∧ o' = { o with conn := ⟨s', none⟩ })
      (fun e o' => o' = o.dropTx ∧ (fault = none → writes.foldlM Store.write s = .error e)) := by
  unfold writeAll
  rw [meets_closing]
  generalize 1 = number
  induction writes generalizing number s o with
  | nil =>
    simp only [List.map_nil, List.nil_append, statements, statement, meets_bind, meets_get, meets_lift,
      meets_set, meets_pure, require_eq_ok, require_eq_error, Conn.execute, bind_eq_ok, bind_eq_error,
      expect_eq_ok, expect_eq_error, pure_eq_ok, pure_eq_error, htx]
    refine ⟨fun _ _ => ⟨?_, ?_⟩, ?_⟩
    · rintro conn ⟨_, hs, rfl⟩
      obtain rfl := Option.some.inj hs
      exact ⟨s, rfl, rfl⟩
    · rintro e (⟨hnone, -⟩ | ⟨_, -, hfalse⟩)
      · cases hnone
      · exact hfalse.elim
    · rintro e ⟨hfault, -⟩
      exact ⟨trivial, fun hnone => absurd (by simp [hnone]) hfault⟩
  | cons w writes ih =>
    simp only [List.map_cons, List.cons_append, statements, statement, meets_bind, meets_get, meets_lift,
      meets_set, require_eq_ok, require_eq_error, Conn.execute, bind_eq_ok, bind_eq_error, expect_eq_ok,
      expect_eq_error, pure_eq_ok, pure_eq_error, htx]
    refine ⟨fun _ _ => ⟨?_, ?_⟩, ?_⟩
    · rintro conn ⟨_, hs, s', hw, rfl⟩
      obtain rfl := Option.some.inj hs
      have hrest := ih (o := { o with conn := { o.conn with tx := some s' } }) rfl (number + 1)
      apply hrest.mono
      · rintro - o' ⟨s'', hs'', heq⟩
        exact ⟨s'', (foldlM_cons_eq_ok Store.write).mpr ⟨s', hw, hs''⟩, heq⟩
      · rintro e o' ⟨heq, hnone⟩
        refine ⟨heq, fun hf => ?_⟩
        rw [List.foldlM_cons, bind_eq_error]
        exact .inr ⟨s', hw, hnone hf⟩
    · rintro e (⟨hnone, -⟩ | ⟨_, hs, hw | ⟨_, -, hfalse⟩⟩)
      · cases hnone
      · obtain rfl := Option.some.inj hs
        refine ⟨trivial, fun _ => ?_⟩
        rw [List.foldlM_cons, bind_eq_error]
        exact .inl hw
      · exact hfalse.elim
    · rintro e ⟨hfault, -⟩
      exact ⟨trivial, fun hnone => absurd (by simp [hnone]) hfault⟩

lemma insertUnique_ok {ρ κ : Type} [DecidableEq κ] {key : ρ → κ} {rows : List ρ} {row : ρ} {column : String}
    (h : ∀ r ∈ rows, key r ≠ key row) : insertUnique key column rows row = .ok (rows ++ [row]) := by
  unfold insertUnique
  simp only [bind_eq_ok, require_eq_ok, pure_eq_ok]
  exact ⟨(), h, trivial⟩

lemma Sound.insertReceipt (h : Sound c o) (leaf : Fr) :
    o.conn.store.write (.insertReceipt ⟨o.tree.size, leaf, o.seq + 1⟩) = .ok { o.conn.store with
      receipts := o.conn.store.receipts ++ [⟨o.tree.size, leaf, o.seq + 1⟩] } := by
  have hnew : ∀ r ∈ o.conn.store.receipts, r.position ≠ o.tree.size := by
    intro r hr
    have hmem : r.position ∈ List.range o.tree.size := h.positions ▸ List.mem_map_of_mem hr
    exact (List.mem_range.mp hmem).ne
  unfold Store.write
  simp only [bind_eq_ok, pure_eq_ok]
  exact ⟨_, insertUnique_ok hnew, rfl⟩

lemma Sound.insertRoot (h : Sound c o) {s : Store} (hs : s.roots = o.conn.store.roots) (root : Fr) :
    s.write (.insertRoot ⟨o.tree.size + 1, root⟩) =
      .ok { s with roots := s.roots ++ [⟨o.tree.size + 1, root⟩] } := by
  have hnew : ∀ r ∈ s.roots, r.size ≠ o.tree.size + 1 := by
    intro r hr
    rw [hs, show o.conn.store.roots = _ from h.stored.logged.roots, List.mem_map] at hr
    obtain ⟨i, hi, rfl⟩ := hr
    have := List.mem_range.mp hi
    have hsize : o.view.tree.size = o.tree.size := rfl
    dsimp only
    omega
  unfold Store.write
  simp only [bind_eq_ok, pure_eq_ok]
  exact ⟨_, insertUnique_ok hnew, rfl⟩

lemma Sound.insertOp (h : Sound c o) {s : Store} (hs : s.ops = o.conn.store.ops) (row : OpRow)
    (hrow : row.seq = o.seq + 1) : s.write (.insertOp row) = .ok { s with ops := s.ops ++ [row] } := by
  have hnew : ∀ r ∈ s.ops, r.seq ≠ row.seq := by
    intro r hr
    have hmem : r.seq ∈ List.range' 1 o.seq := by
      rw [← h.seqs, ← hs]
      exact List.mem_map_of_mem hr
    rw [List.mem_range'_1] at hmem
    omega
  unfold Store.write
  simp only [bind_eq_ok, pure_eq_ok]
  exact ⟨_, insertUnique_ok hnew, rfl⟩

/-- The ledger that an append leaves, its rows included. -/
def logged (c : Crypto) (o : OpenLedger) (receipt : Fr) (tree : LevelTree) : Ledger :=
  { o.view with
    store := { o.conn.store with
      receipts := o.conn.store.receipts ++ [⟨o.tree.size, receipt, o.seq + 1⟩]
      roots := o.conn.store.roots ++ [⟨o.tree.size + 1, tree.root c⟩] }
    tree := tree.view
    recent := pushRecent o.cfg.rootWindow o.recent (tree.root c) }

lemma Sound.logReceipt (h : Sound c o) {receipt : Fr} {tree : LevelTree}
    (ht : o.tree.append c receipt = .ok tree) :
    o.view.logReceipt c receipt = .ok (o.logged c receipt tree) := by
  obtain ⟨hleaves, hlevels⟩ := LevelTree.append_leaves h.levelled ht
  obtain ⟨hlt, htree⟩ := LevelTree.append_eq_ok.mp ht
  have hview : o.view.tree.append receipt = .ok tree.view := by
    rw [ReceiptTree.append_eq_ok]
    refine ⟨hlt, ?_⟩
    unfold LevelTree.view
    rw [hleaves, show tree.depth = o.tree.depth by rw [htree]]
    rfl
  unfold Ledger.logReceipt
  simp only [bind_eq_ok, pure_eq_ok]
  refine ⟨_, hview, ?_⟩
  unfold logged
  rw [hlevels.root]
  rfl

/-- The caller's own write touches only the accounts and the deposits, and comes to `update`. -/
structure Own (own : Write) (update : Ledger → Ledger) (l : Ledger) : Prop where
  write : ∀ m : Ledger, m.store.accounts = l.store.accounts → m.store.deposits = l.store.deposits →
    m.store.write own = .ok (update m).store
  frame : ∀ m : Ledger, update m = { m with store := { m.store with
    accounts := (update m).store.accounts
    deposits := (update m).store.deposits } }

lemma commitReceipt_spec (h : Sound c o) {own : Write} {update : Ledger → Ledger}
    (hown : Own own update o.view) (kind : String) (a com receipt : Fr) (envelope : Envelope) (fault : Fault) :
    Meets (commitReceipt c kind a com receipt own envelope fault) o.begun
      (fun r o' => ∃ m, o.view.logReceipt c receipt = .ok m ∧ Sound c o' ∧
        r = ⟨o.seq + 1, o.tree.size, m.tree.root c,
          chainRoot c o.stateRoot (o.seq + 1) kind a com receipt (m.tree.root c)⟩ ∧
        o'.view = (update m).record a envelope (some o.tree.size) r.stateRoot)
      (fun e o' => o'.dropTx = o ∧ (fault = none → o.view.logReceipt c receipt = .error e)) := by
  unfold commitReceipt
  simp only [meets_bind, meets_get, meets_lift, meets_set, meets_onFailure, meets_modify, meets_pure]
  constructor
  · intro tree ht
    obtain ⟨hleaves, hlevels⟩ := LevelTree.append_leaves h.levelled ht
    have hlog := h.logReceipt ht
    have hroot : (o.logged c receipt tree).tree.root c = tree.root c := hlevels.root.symm
    have hlogged : Logged c (o.logged c receipt tree) := Ledger.logged_logReceipt h.stored.logged hlog
    have hframe := hown.frame (o.logged c receipt tree)
    have hreceipts : (update (o.logged c receipt tree)).store.receipts =
        o.conn.store.receipts ++ [⟨o.tree.size, receipt, o.seq + 1⟩] := by rw [hframe]; rfl
    have hops : (update (o.logged c receipt tree)).store.ops = o.conn.store.ops := by rw [hframe]; rfl
    have hseq : (update (o.logged c receipt tree)).seq = o.seq := by rw [hframe]; rfl
    have hdepth : tree.depth = o.tree.depth := by
      obtain ⟨-, rfl⟩ := LevelTree.append_eq_ok.mp ht
      rfl
    generalize hstate : chainRoot c o.begun.stateRoot (o.begun.seq + 1) kind a com receipt (tree.root c) = root
    have hafter : ([.insertReceipt ⟨o.tree.size, receipt, o.seq + 1⟩,
        .insertRoot ⟨o.tree.size + 1, tree.root c⟩, own,
        .insertOp ⟨o.seq + 1, a, envelope, some o.tree.size, root⟩] : List Write).foldlM Store.write
          o.conn.store =
        .ok ((update (o.logged c receipt tree)).record a envelope (some o.tree.size) root).store := by
      have hrow := h.insertRoot (s := { o.conn.store with
        receipts := o.conn.store.receipts ++ [⟨o.tree.size, receipt, o.seq + 1⟩] }) rfl (tree.root c)
      simp only [foldlM_cons_eq_ok, List.foldlM_nil, pure_eq_ok]
      refine ⟨_, h.insertReceipt receipt, _, hrow, _, hown.write (o.logged c receipt tree) rfl rfl,
        _, h.insertOp ?_ _ rfl, ?_⟩
      · rw [hframe]
        rfl
      · unfold Ledger.record
        rw [hframe]
        rfl
    have hwrites := writeAll_spec (o := { o.begun with
      tree := tree
      recent := pushRecent o.cfg.rootWindow o.recent (tree.root c) }) (s := o.conn.store) rfl fault
      [.insertReceipt ⟨o.tree.size, receipt, o.seq + 1⟩, .insertRoot ⟨o.tree.size + 1, tree.root c⟩, own,
        .insertOp ⟨o.seq + 1, a, envelope, some o.tree.size, root⟩]
    apply hwrites.mono
    · rintro - o' ⟨s', hs', rfl⟩
      obtain rfl := Except.ok.inj (hafter.symm.trans hs')
      have hview : ({ o.begun with
          conn := ⟨((update (o.logged c receipt tree)).record a envelope (some o.tree.size) root).store, none⟩
          tree := tree
          recent := pushRecent o.cfg.rootWindow o.recent (tree.root c)
          seq := o.seq + 1
          stateRoot := root } : OpenLedger).view =
          (update (o.logged c receipt tree)).record a envelope (some o.tree.size) root := by
        unfold view Ledger.record
        rw [hframe]
        rfl
      refine ⟨_, hlog, ⟨rfl, ?_, ?_, ?_, ?_⟩, by rw [hroot]; exact congrArg _ hstate.symm, hview⟩
      · show LevelTree.fromLeaves c tree.depth tree.leaves = .ok tree
        rw [hleaves, LevelTree.fromLeaves_concat, hdepth, h.rebuilt]
        exact ht
      · refine (congrArg (Stored c) hview).mpr (Ledger.stored_record ?_ ?_)
        · rw [hframe]
          exact h.stored.config
        · rw [hframe]
          exact ⟨hlogged.depth, hlogged.leaves, hlogged.bounded, hlogged.recent, hlogged.roots⟩
      · show (update (o.logged c receipt tree)).store.receipts.map (·.position) = List.range tree.leaves.length
        rw [hreceipts, hleaves, List.length_append, List.length_singleton, List.range_succ, List.map_append,
          h.positions]
        rfl
      · show ((update (o.logged c receipt tree)).store.ops ++ [_]).map OpRow.seq = List.range' 1 (o.seq + 1)
        rw [hops, List.range'_1_concat, List.map_append, h.seqs, List.map_singleton, hseq, Nat.add_comm o.seq 1]
    · rintro e o' ⟨rfl, hnone⟩
      rw [h.meets_reloadTree]
      refine ⟨h.dropTx_begun, fun hf => ?_⟩
      exact absurd (hafter.symm.trans (hnone hf)) (by simp)
  · intro e he
    refine ⟨h.dropTx_begun, fun _ => ?_⟩
    unfold Ledger.logReceipt
    rw [bind_eq_error]
    exact .inl (LevelTree.append_eq_error.mp he)

/-- A call either fails and changes nothing, or does what the transition does; it fails of itself only where
the transition does. -/
def Simulates (c : Crypto) (o : OpenLedger) (fault : Fault) (call : Method Error OpenLedger Applied)
    (transition : Except Error (Ledger × Applied)) : Prop :=
  Meets call o (fun r o' => Sound c o' ∧ transition = .ok (o'.view, r))
    (fun e o' => o' = o ∧ (fault = none → transition = .error e))

lemma register_simulates (h : Sound c o) (env : RegisterEnvelope) (fault : Fault) :
    Simulates c o fault (register c env fault) (o.view.register c env) := by
  unfold Simulates register
  simp only [meets_bind, meets_get, meets_lift, meets_modify, meets_pure]
  refine ⟨fun a ha => ⟨fun _ hnew => ?_, fun e he => ⟨trivial, fun _ => ?_⟩⟩,
    fun e he => ⟨trivial, fun _ => ?_⟩⟩
  · generalize hcom : o.initialCommitment c env.randomness = com
    generalize hroot : chainRoot c o.stateRoot (o.seq + 1) "register" a com 0 (o.tree.root c) = root
    have hfree : ∀ r ∈ o.conn.store.accounts, r.account ≠ a := by
      rw [require_eq_ok, h.account] at hnew
      simpa [Ledger.account, view] using hnew
    have hwrites : ([.insertAccount ⟨a, env.pubkey, com, o.seq + 1, o.seq + 1⟩,
        .insertOp ⟨o.seq + 1, a, .register env, none, root⟩] : List Write).foldlM Store.write o.conn.store =
        .ok ((o.view.insertAccount ⟨a, env.pubkey, com, o.seq + 1, o.seq + 1⟩).record a (.register env) none
          root).store := by
      have hrow : o.conn.store.write (.insertAccount ⟨a, env.pubkey, com, o.seq + 1, o.seq + 1⟩) =
          .ok (o.view.insertAccount ⟨a, env.pubkey, com, o.seq + 1, o.seq + 1⟩).store := by
        unfold Store.write
        simp only [bind_eq_ok, pure_eq_ok]
        exact ⟨_, insertUnique_ok hfree, rfl⟩
      have hop := h.insertOp (s := (o.view.insertAccount ⟨a, env.pubkey, com, o.seq + 1, o.seq + 1⟩).store) rfl
        ⟨o.seq + 1, a, .register env, none, root⟩ rfl
      simp only [foldlM_cons_eq_ok, List.foldlM_nil, pure_eq_ok]
      exact ⟨_, hrow, _, hop, rfl⟩
    apply h.beginTx fault
    · apply (writeAll_spec (o := o.begun) rfl fault _).mono
      · rintro - o' ⟨s', hs', rfl⟩
        obtain rfl := Except.ok.inj (hwrites.symm.trans hs')
        obtain ⟨hdepth, hleaves, hbounded, hrecent, hroots⟩ := h.stored.logged
        refine ⟨⟨rfl, h.rebuilt, ?_, h.positions, ?_⟩, ?_⟩
        · exact Ledger.stored_record (l := o.view.insertAccount _) h.stored.config
            ⟨hdepth, hleaves, hbounded, hrecent, hroots⟩
        · show (o.conn.store.ops ++ [_]).map OpRow.seq = List.range' 1 (o.seq + 1)
          rw [List.range'_1_concat, List.map_append, h.seqs, Nat.add_comm 1 o.seq]
          rfl
        · unfold Ledger.register
          simp only [bind_eq_ok, pure_eq_ok]
          refine ⟨a, ha, (), by rwa [← h.account], ?_⟩
          subst hroot hcom
          rw [h.levelled.root]
          rfl
      · rintro e o' ⟨rfl, hnone⟩
        exact ⟨h.dropTx_begun, fun hf => absurd (hwrites.symm.trans (hnone hf)) (by simp)⟩
    · intro e hf
      exact ⟨rfl, fun hnone => absurd hnone hf⟩
  · unfold Ledger.register
    rw [bind_eq_error]
    refine .inr ⟨a, ha, bind_eq_error.mpr (.inl ?_)⟩
    rwa [← h.account]
  · unfold Ledger.register
    rw [bind_eq_error]
    exact .inl he

lemma own_updateAccount (l : Ledger) (a com : Fr) (seq : Nat) :
    Own (.updateAccount a com seq) (fun m => m.updateAccount a com seq) l :=
  ⟨fun _ _ _ => rfl, fun _ => rfl⟩

lemma own_insertDeposit {l : Ledger} (row : DepositRow) (h : l.credited row.depositId = false) :
    Own (.insertDeposit row) (fun m => m.insertDeposit row) l := by
  refine ⟨fun m _ hdeposits => ?_, fun _ => rfl⟩
  have hnew : ∀ r ∈ m.store.deposits, r.depositId ≠ row.depositId := by
    simpa [hdeposits, Ledger.credited] using h
  unfold Store.write
  simp only [bind_eq_ok, pure_eq_ok]
  exact ⟨_, insertUnique_ok hnew, rfl⟩

lemma applyVerified_simulates (h : Sound c o) (env : OpEnvelope) (current : AccountView) (fault : Fault) :
    Simulates c o fault (applyVerified c env current fault) (o.view.applyVerified c env current) := by
  have hroom : o.tree.size = o.view.tree.size := rfl
  unfold Simulates applyVerified
  simp only [meets_bind, meets_get, meets_lift, meets_closing]
  refine ⟨fun latest hlatest => ⟨fun _ hcom => ⟨fun _ hrecent => ?_, ?_⟩, ?_⟩, ?_⟩
  · apply h.beginTx fault
    · refine ⟨fun _ hfree => ?_, fun e he => ⟨h.dropTx_begun, fun _ => ?_⟩⟩
      · apply (commitReceipt_spec h (own_updateAccount _ _ _ _) _ _ _ _ _ fault).mono
        · rintro r o' ⟨m, hm, hsound, rfl, hview⟩
          rw [hsound.dropTx]
          refine ⟨hsound, ?_⟩
          unfold Ledger.applyVerified
          simp only [bind_eq_ok, pure_eq_ok]
          refine ⟨latest, by rwa [← h.account], (), hcom, (), hrecent, (), hfree, m, hm, ?_⟩
          rw [hview]
          rfl
        · rintro e o' ⟨hdrop, hnone⟩
          refine ⟨hdrop, fun hf => ?_⟩
          unfold Ledger.applyVerified
          simp only [bind_eq_error]
          refine .inr ⟨latest, by rwa [← h.account], .inr ⟨(), hcom, .inr ⟨(), hrecent, .inr ⟨(), hfree, ?_⟩⟩⟩⟩
          exact .inl (hnone hf)
      · unfold Ledger.applyVerified
        simp only [bind_eq_error]
        exact .inr ⟨latest, by rwa [← h.account], .inr ⟨(), hcom, .inr ⟨(), hrecent, .inl he⟩⟩⟩
    · intro e hf
      exact ⟨rfl, fun hnone => absurd hnone hf⟩
  · intro e he
    refine ⟨trivial, fun _ => ?_⟩
    unfold Ledger.applyVerified
    simp only [bind_eq_error]
    exact .inr ⟨latest, by rwa [← h.account], .inr ⟨(), hcom, .inl he⟩⟩
  · intro e he
    refine ⟨trivial, fun _ => ?_⟩
    unfold Ledger.applyVerified
    simp only [bind_eq_error]
    exact .inr ⟨latest, by rwa [← h.account], .inl he⟩
  · intro e he
    refine ⟨trivial, fun _ => ?_⟩
    unfold Ledger.applyVerified
    simp only [bind_eq_error]
    exact .inl (by rwa [← h.account])

lemma apply_eq (h : Sound c o) (env : OpEnvelope) :
    o.view.apply c env = screen c env o >>= fun s =>
      require (c.verify .op s.1 (Ledger.publicInput env s.2.com) = true) .invalidProof >>= fun _ =>
        o.view.applyVerified c env s.2 := by
  unfold Ledger.apply screen
  simp only [bind_assoc, pure_bind, h.account]
  rfl

lemma apply_simulates (h : Sound c o) (env : OpEnvelope) (fault : Fault) :
    Simulates c o fault (apply c env fault) (o.view.apply c env) := by
  rw [apply_eq h]
  unfold Simulates apply
  simp only [meets_bind, meets_get, meets_lift]
  refine ⟨fun s hs => ⟨fun _ hproof => ?_, fun e he => ⟨trivial, fun _ => ?_⟩⟩, fun e he => ⟨trivial, fun _ => ?_⟩⟩
  · apply (applyVerified_simulates h env s.2 fault).mono
    · rintro r o' ⟨hsound, heq⟩
      exact ⟨hsound, bind_eq_ok.mpr ⟨s, hs, bind_eq_ok.mpr ⟨(), hproof, heq⟩⟩⟩
    · rintro e o' ⟨hsame, hnone⟩
      exact ⟨hsame, fun hf => bind_eq_error.mpr (.inr ⟨s, hs, bind_eq_error.mpr (.inr ⟨(), hproof, hnone hf⟩)⟩)⟩
  · exact bind_eq_error.mpr (.inr ⟨s, hs, bind_eq_error.mpr (.inl he)⟩)
  · exact bind_eq_error.mpr (.inl he)

lemma mint_simulates (h : Sound c o) (env : MintEnvelope) (fault : Fault) :
    Simulates c o fault (mint c env fault) (o.view.mint c env) := by
  have hshape : mintShape env o = o.view.mintShape env := rfl
  unfold Simulates mint
  simp only [meets_bind, meets_get, meets_lift, meets_closing, hshape]
  refine ⟨fun _ hform => ⟨fun _ hnew => ⟨fun _ hproof => ⟨fun _ hroom => ?_, ?_⟩, ?_⟩, ?_⟩, ?_⟩
  · have hfree : o.view.credited env.depositId = false := by
      rw [← h.credited]
      exact require_eq_ok.mp hnew
    apply h.beginTx fault
    · apply (commitReceipt_spec h (own_insertDeposit ⟨env.depositId, env.intent.receipt,
        env.intent.amount, o.seq + 1⟩ hfree) _ _ _ _ _ fault).mono
      · rintro r o' ⟨m, hm, hsound, rfl, hview⟩
        rw [hsound.dropTx]
        refine ⟨hsound, ?_⟩
        unfold Ledger.mint
        simp only [bind_eq_ok, pure_eq_ok]
        refine ⟨_, hform, (), by rwa [← h.credited], (), hproof, (), hroom, m, hm, ?_⟩
        rw [hview]
        rfl
      · rintro e o' ⟨hdrop, hnone⟩
        refine ⟨hdrop, fun hf => ?_⟩
        unfold Ledger.mint
        simp only [bind_eq_error]
        refine .inr ⟨_, hform, .inr ⟨(), by rwa [← h.credited], .inr ⟨(), hproof, .inr ⟨(), hroom, ?_⟩⟩⟩⟩
        exact .inl (hnone hf)
    · intro e hf
      exact ⟨rfl, fun hnone => absurd hnone hf⟩
  · intro e he
    refine ⟨trivial, fun _ => ?_⟩
    unfold Ledger.mint
    simp only [bind_eq_error]
    exact .inr ⟨_, hform, .inr ⟨(), by rwa [← h.credited], .inr ⟨(), hproof, .inl he⟩⟩⟩
  · intro e he
    refine ⟨trivial, fun _ => ?_⟩
    unfold Ledger.mint
    simp only [bind_eq_error]
    exact .inr ⟨_, hform, .inr ⟨(), by rwa [← h.credited], .inl he⟩⟩
  · intro e he
    refine ⟨trivial, fun _ => ?_⟩
    unfold Ledger.mint
    simp only [bind_eq_error]
    exact .inr ⟨_, hform, .inl (by rwa [← h.credited])⟩
  · intro e he
    refine ⟨trivial, fun _ => ?_⟩
    unfold Ledger.mint
    rw [bind_eq_error]
    exact .inl he

lemma applyMember_spec (h : Sound c o) (env : OpEnvelope) (current : AccountView) (valid : Bool)
    (fault : Fault) :
    Meets (applyMember c env current valid fault) o
      (fun r o' => Sound c o' ∧ valid = true ∧ ∃ now, o.view.account env.account = some now ∧
        now.com = current.com ∧ o.view.applyVerified c env now = .ok (o'.view, r))
      (fun _ o' => o' = o) := by
  unfold applyMember
  simp only [meets_bind, meets_get, meets_lift, implies_true, and_true, require_eq_ok, expect_eq_ok]
  intro _ hvalid now hnow _ hcom
  apply (applyVerified_simulates h env now fault).mono
  · rintro r o' ⟨hsound, heq⟩
    exact ⟨hsound, hvalid, now, by rwa [← h.account], hcom, heq⟩
  · rintro e o' ⟨hsame, -⟩
    exact hsame

lemma outcome_of_meets {call : Method Error OpenLedger Applied} {post : Applied → OpenLedger → Prop}
    (h : Meets call o post fun _ o' => o' = o) :
    (∀ r o', outcome call o = (.ok r, o') → post r o') ∧ ∀ e o', outcome call o = (.error e, o') → o' = o :=
  meets_iff_outcome.mp h

lemma outcome_induct {P : OpenLedger → Prop} {call : Method Error OpenLedger Applied}
    {post : Applied → OpenLedger → Prop} (h : Meets call o post fun _ o' => o' = o) (ho : P o)
    (hpost : ∀ r o', post r o' → P o') : P (outcome call o).2 := by
  obtain ⟨hok, herror⟩ := outcome_of_meets h
  cases hres : outcome call o with
  | mk result o' =>
    cases result with
    | ok r => exact hpost r o' (hok r o' hres)
    | error e => exact herror e o' hres ▸ ho

lemma Simulates.refused {fault : Fault} {call : Method Error OpenLedger Applied}
    {transition : Except Error (Ledger × Applied)} (h : Simulates c o fault call transition) :
    Meets call o (fun r o' => Sound c o' ∧ transition = .ok (o'.view, r)) fun _ o' => o' = o :=
  h.mono (fun _ _ hok => hok) fun _ _ herror => herror.1

lemma sound_members (h : Sound c o) (faults : Nat → Fault) (ks : List (Candidate × Bool)) (slots : Slots) :
    Sound c (ks.foldl (memberStep c faults) (slots, o)).2 := by
  induction ks generalizing slots o with
  | nil => exact h
  | cons k ks ih =>
    refine ih (outcome_induct (applyMember_spec h _ _ _ _) h fun r o' hpost => hpost.1) _

variable (batchVerify : Nat → List (Nat × List Fr) → Bool)

lemma sound_perform (h : Sound c o) (call : Call) : Sound c (perform c batchVerify o call) := by
  cases call with
  | register env fault =>
    exact outcome_induct (register_simulates h env fault).refused h fun _ _ hpost => hpost.1
  | apply env fault => exact outcome_induct (apply_simulates h env fault).refused h fun _ _ hpost => hpost.1
  | applyBatch coins envs faults => exact sound_members h faults _ _
  | mint env fault => exact outcome_induct (mint_simulates h env fault).refused h fun _ _ hpost => hpost.1

lemma sound_fresh (inst : Instance) (cfg : LedgerConfig) : Sound c (fresh c inst cfg) := by
  have hempty := levelsOf_empty (treeNode c) 0 inst.receiptDepth
  have hleaves : (LevelTree.new inst.receiptDepth).leaves = [] := hempty.bottom
  have hlevels : (LevelTree.new inst.receiptDepth).Levelled c := by
    unfold LevelTree.Levelled
    rw [hleaves]
    exact hempty
  have hview : (fresh c inst cfg).view = Ledger.fresh c inst cfg := by
    have htree : (LevelTree.new inst.receiptDepth).view = ReceiptTree.new inst.receiptDepth := by
      unfold LevelTree.view
      rw [hleaves]
      rfl
    unfold view fresh Ledger.fresh
    rw [hlevels.recentRoots, htree]
  refine ⟨rfl, ?_, ?_, ?_, rfl⟩
  · show LevelTree.fromLeaves c inst.receiptDepth (LevelTree.new inst.receiptDepth).leaves = _
    rw [hleaves]
    rfl
  · rw [hview]
    exact Ledger.stored_fresh inst cfg
  · show [] = List.range (LevelTree.new inst.receiptDepth).leaves.length
    rw [hleaves]
    rfl

lemma sound_run (h : Sound c o) (calls : List Call) : Sound c (run c batchVerify o calls) := by
  induction calls generalizing o with
  | nil => exact h
  | cons call calls ih => exact ih (sound_perform batchVerify h call)

variable (c) in
/-- A call that fails leaves the store and the memory as they were, whichever statement of its transaction
fails; so does each member of a batch. -/
theorem refused_unchanged (inst : Instance) (cfg : LedgerConfig) (calls : List Call) :
    let o := run c batchVerify (fresh c inst cfg) calls
    (∀ env fault e o', outcome (register c env fault) o = (.error e, o') → o' = o) ∧
    (∀ env fault e o', outcome (apply c env fault) o = (.error e, o') → o' = o) ∧
    (∀ env fault e o', outcome (mint c env fault) o = (.error e, o') → o' = o) ∧
    ∀ coins envs faults front k back, members c batchVerify coins envs o = front ++ k :: back →
      let before := (front.foldl (memberStep c faults) ((screenAll c o envs).2, o)).2
      ∀ e after, outcome (applyMember c k.1.env k.1.current k.2 (faults k.1.slot)) before = (.error e, after) →
        after = before := by
  intro o
  have h : Sound c o := sound_run batchVerify (sound_fresh inst cfg) calls
  refine ⟨fun env fault => (outcome_of_meets (register_simulates h env fault).refused).2,
    fun env fault => (outcome_of_meets (apply_simulates h env fault).refused).2,
    fun env fault => (outcome_of_meets (mint_simulates h env fault).refused).2, ?_⟩
  intro coins envs faults front k back _ before
  have hbefore : Sound c before := sound_members h faults front _
  exact (outcome_of_meets (applyMember_spec hbefore _ _ _ _)).2

section Sample

def oneConfig : LedgerConfig := ⟨5, 9, 4⟩

def oneAccount : Fr := accountId sampleCrypto 5 7

def oneRegister : RegisterEnvelope := ⟨5, 7, 3, 7⟩

def verifyEach (_ : Nat) (claims : List (Nat × List Fr)) : Bool :=
  claims.all fun cl => sampleCrypto.verify .op cl.1 cl.2

/-- A ledger with one account. -/
def oneLedger : OpenLedger := run sampleCrypto verifyEach (fresh sampleCrypto sampleInstance oneConfig)
  [.register oneRegister none]

def oneCommitment : Fr := oneLedger.initialCommitment sampleCrypto 3

def oneOp (comNew : Fr) : OpEnvelope where
  namespaceId := 5
  circuitId := 9
  account := oneAccount
  com := oneCommitment
  comNew := comNew
  receipt := 8
  root := oneLedger.tree.root sampleCrypto
  proof := sampleProof
  pubkey := 7
  signature := 7

def oneMint : MintEnvelope := ⟨⟨5, 9, 5, 11, sampleProof⟩, ['d']⟩

def oneMember (slot : Nat) (comNew : Fr) : Candidate × Bool :=
  (⟨slot, oneOp comNew, 1, ⟨oneAccount, oneCommitment, 1⟩⟩, true)

lemma after_refused {call : Method Error OpenLedger Applied} {e : Error}
    (h : ∀ e o', outcome call o = (.error e, o') → o' = o) (he : (outcome call o).1 = .error e) :
    (outcome call o).2 = o :=
  h e _ (Prod.ext he rfl)

/-- A repeated registration, a write that fails, a COMMIT that fails, and a member of a batch that an earlier
one made stale. -/
theorem refused_unchanged_sample :
    (outcome (register sampleCrypto oneRegister none) oneLedger).2 = oneLedger ∧
    (outcome (apply sampleCrypto (oneOp 99) (some 3)) oneLedger).2 = oneLedger ∧
    (outcome (mint sampleCrypto oneMint (some 5)) oneLedger).2 = oneLedger ∧
    let envs := [oneOp 99, oneOp 98]
    let before := ([oneMember 0 99].foldl (memberStep sampleCrypto fun _ => none)
      ((screenAll sampleCrypto oneLedger envs).2, oneLedger)).2
    (outcome (applyMember sampleCrypto (oneOp 98) ⟨oneAccount, oneCommitment, 1⟩ true none) before).2 =
      before := by
  have hsafe := refused_unchanged sampleCrypto verifyEach sampleInstance oneConfig [.register oneRegister none]
  refine ⟨after_refused (e := .accountExists) (hsafe.1 oneRegister none) (by decide +kernel),
    after_refused (e := .storage "disk I/O error") (hsafe.2.1 (oneOp 99) (some 3)) (by decide +kernel),
    after_refused (e := .storage "disk I/O error") (hsafe.2.2.1 oneMint (some 5)) (by decide +kernel), ?_⟩
  have hmember := hsafe.2.2.2 0 [oneOp 99, oneOp 98] (fun _ => none) [oneMember 0 99] (oneMember 1 98) []
    (by decide +kernel)
  exact after_refused (e := .staleCommitment) hmember (by decide +kernel)

end Sample

end OpenLedger

end Peal.Links
