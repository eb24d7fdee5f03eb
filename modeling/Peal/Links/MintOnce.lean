import Peal.Links.Oracle
import Peal.Links.Settled
import Peal.Library.Rows

namespace Peal.Links
open Peal.Fallible Peal.Runs Peal.Rows

/-! # Every deposit log entry is credited at most once -/

/-- A `Deposit` log entry of a gateway, and the amount it carries. -/
structure Deposit where
  event : EventId
  amount : Nat
  deriving DecidableEq, Repr

/-- The mints a ledger has applied, in order. -/
def Ledger.mints (l : Ledger) : List MintEnvelope :=
  l.store.ops.filterMap fun row =>
    match row.envelope with
    | .mint env => some env
    | _ => none

def State.mints (s : State) : List (Namespace × MintEnvelope) :=
  s.namespaces.flatMap fun ns =>
    match s.ledgers ns with
    | some l => l.mints.map fun env => (ns, env)
    | none => []

/-- Base units ever minted, over all namespaces. -/
def State.mintedTotal (s : State) : Nat :=
  (s.namespaces.map fun ns =>
    match s.ledgers ns with
    | some l => l.mintedTotal
    | none => 0).sum

variable {c : Crypto} {l l' : Ledger}

namespace Ledger

/-- The deposits table holds the applied mints, each deposit id once. -/
structure Credits (l : Ledger) : Prop where
  rows : l.store.deposits.map (fun r => (r.depositId, r.amount)) =
    l.mints.map fun env => (env.depositId, env.intent.amount)
  nodup : (l.mints.map (·.depositId)).Nodup

lemma Credits.mintedTotal (h : Credits l) :
    l.mintedTotal = (l.mints.map (·.intent.amount)).sum := by
  have := congrArg (fun rows : List (Text × Nat) => (rows.map Prod.snd).sum) h.rows
  simpa [Ledger.mintedTotal, Function.comp_def] using this

lemma Credits.mem_iff (h : Credits l) {depositId : Text} :
    l.credited depositId = true ↔ depositId ∈ l.mints.map (·.depositId) := by
  have := congrArg (fun rows : List (Text × Nat) => rows.map Prod.fst) h.rows
  simp only [List.map_map, Function.comp_def] at this
  rw [← this]
  simp [credited]

lemma mints_record {a : Fr} {envelope : Envelope} {position : Option Nat} {root : Nat} :
    (l.record a envelope position root).mints = l.mints ++
      match envelope with
      | .mint env => [env]
      | _ => [] := by
  cases envelope with
  | register env => simp [mints, record]
  | op env => simp [mints, record]
  | mint env => simp [mints, record]

lemma mints_logReceipt {receipt : Fr} (h : l.logReceipt c receipt = .ok l') :
    l'.mints = l.mints ∧ l'.store.deposits = l.store.deposits := by
  obtain ⟨t, -, rfl⟩ := logReceipt_ok h
  exact ⟨rfl, rfl⟩

lemma credits_transition {envelope : Envelope} {r : Applied} (hl : Credits l)
    (h : l.transition c envelope = .ok (l', r)) :
    Credits l' ∧ ∀ env ∈ l'.mints, env ∈ l.mints ∨ envelope = .mint env := by
  cases envelope with
  | register env =>
    obtain ⟨a, row, root, -, -, -, rfl⟩ := register_ok h
    have hmints : ((l.insertAccount row).record a (.register env) none root).mints = l.mints :=
      mints_record.trans (List.append_nil _)
    refine ⟨⟨?_, ?_⟩, ?_⟩
    · rw [hmints]
      exact hl.rows
    · rw [hmints]
      exact hl.nodup
    · rw [hmints]
      exact fun e he => Or.inl he
  | op env =>
    obtain ⟨-, m, root, position, hm, rfl⟩ := apply_ok h
    obtain ⟨hmints, hdeposits⟩ := mints_logReceipt hm
    have hsame : ((m.updateAccount env.account env.comNew (l.seq + 1)).record env.account (.op env)
        (some position) root).mints = l.mints :=
      (mints_record.trans (List.append_nil _)).trans hmints
    refine ⟨⟨?_, ?_⟩, ?_⟩
    · rw [hsame, ← hl.rows, ← hdeposits]
      rfl
    · rw [hsame]
      exact hl.nodup
    · rw [hsame]
      exact fun e he => Or.inl he
  | mint env =>
    obtain ⟨-, hnew, -, m, root, position, hm, rfl⟩ := mint_ok h
    obtain ⟨hmints, hdeposits⟩ := mints_logReceipt hm
    have hmore : ((m.insertDeposit ⟨env.depositId, env.intent.receipt, env.intent.amount,
        l.seq + 1⟩).record (mintSender c) (.mint env) (some position) root).mints = l.mints ++ [env] := by
      rw [mints_record, ← hmints]
      rfl
    refine ⟨⟨?_, ?_⟩, ?_⟩
    · rw [hmore, List.map_append, ← hl.rows, ← hdeposits]
      exact List.map_append
    · rw [hmore, List.map_append, List.nodup_append]
      refine ⟨hl.nodup, List.nodup_singleton _, ?_⟩
      intro depositId hold e he
      rw [List.map_singleton, List.mem_singleton] at he
      rintro rfl
      rw [← hl.mem_iff, he, hnew] at hold
      cases hold
    · rw [hmore]
      intro e he
      rcases List.mem_append.mp he with hold | hlast
      · exact Or.inl hold
      · exact Or.inr (congrArg _ (List.mem_singleton.mp hlast).symm)

end Ledger

/-- The mint transactions of a run's blocks, in order. -/
def mintTxs (blocks : List (Block × Id)) : List (Namespace × MintEnvelope) :=
  blocks.flatMap fun b => b.1.txs.filterMap fun tx =>
    match tx.envelope with
    | .mint env => some (tx.namespaceId, env)
    | _ => none

lemma mem_mintTxs {blocks : List (Block × Id)} {b : Block × Id} (hb : b ∈ blocks) {tx : Tx}
    (htx : tx ∈ b.1.txs) {env : MintEnvelope} (henv : tx.envelope = .mint env) :
    (tx.namespaceId, env) ∈ mintTxs blocks := by
  apply List.mem_flatMap.mpr
  refine ⟨b, hb, List.mem_filterMap.mpr ⟨tx, htx, ?_⟩⟩
  rw [henv]

section Runs

variable (served : Namespace → Option NamespaceConfig) (views : Namespace → MintEnvelope → Rpc)
  (topic : Text) (deposits : List Deposit)

/-- Whatever `Deposit` log of a gateway the endpoint shows is an entry of the finalized chain. -/
def Backed (cfg : NamespaceConfig) (rpc : Rpc) : Prop :=
  ∀ txHash block logs log ev, rpc.transactionLogs txHash = .ok (some (block, logs)) → log ∈ logs →
    toLowercase log.address = toLowercase cfg.gateway → log.removed = false →
    log.topics.head? = some topic → decodeDeposit log = .ok ev →
    ⟨⟨cfg.chainId, ev.txHash, ev.logIndex⟩, ev.amount⟩ ∈ deposits

/-- Each mint was approved by a validator that looked at the finalized chain. -/
structure Approved (p : Namespace × MintEnvelope) : Prop where
  confirmed : confirmed served (views p.1 p.2) p.1 p.2 = .ok true
  backed : ∀ cfg, served p.1 = some cfg → Backed topic deposits cfg (views p.1 p.2)

/-- Mints that name the same log entry are in one namespace and spell its deposit id alike. -/
def OneIdPerEvent (mints : List (Namespace × MintEnvelope)) : Prop :=
  ∀ p ∈ mints, ∀ q ∈ mints, eventOf p.2.depositId = eventOf q.2.depositId →
    p.1 = q.1 ∧ p.2.depositId = q.2.depositId

/-- The gateway's logs in the transaction a mint names, where they decode as a deposit, have the
topic of one. -/
def NamesDeposit (p : Namespace × MintEnvelope) : Prop :=
  ∀ cfg, served p.1 = some cfg → ∀ txHash block logs log ev,
    (views p.1 p.2).transactionLogs txHash = .ok (some (block, logs)) → log ∈ logs →
    toLowercase log.address = toLowercase cfg.gateway → decodeDeposit log = .ok ev →
    log.topics.head? = some topic

variable {served views topic deposits}

lemma approved_deposit {p : Namespace × MintEnvelope} (h : Approved served views topic deposits p)
    (htopic : NamesDeposit served views topic p) :
    ∃ e, eventOf p.2.depositId = some e ∧ ⟨e, p.2.intent.amount⟩ ∈ deposits := by
  have hconfirmed := h.confirmed
  unfold Links.confirmed at hconfirmed
  cases hcfg : served p.1 with
  | none =>
    rw [hcfg] at hconfirmed
    cases hconfirmed
  | some cfg =>
    rw [hcfg] at hconfirmed
    obtain ⟨e, txHash, block, logs, log, ev, he, hchain, -, hlogs, hlog, haddress, hremoved, hev, hhash,
      hindex, hamount⟩ := check_names hconfirmed
    have hmem := h.backed cfg hcfg txHash block logs log ev hlogs hlog haddress hremoved
      (htopic cfg hcfg txHash block logs log ev hlogs hlog haddress hev) hev
    rw [hhash, hindex, ← hchain, hamount] at hmem
    exact ⟨e, he, hmem⟩

/-- Every ledger's table holds its mints, and they all come from the blocks. -/
def CreditsFrom (blocks : List (Block × Id)) (namespaces : List Namespace) (s : State) : Prop :=
  s.namespaces = namespaces ∧ ∀ ns l, s.ledgers ns = some l →
    Ledger.Credits l ∧ ∀ env ∈ l.mints, (ns, env) ∈ mintTxs blocks

lemma creditsFrom_txs {blocks : List (Block × Id)} {b : Block × Id} (hb : b ∈ blocks) {ls : Ledgers}
    (h : ∀ ns l, ls ns = some l → Ledger.Credits l ∧ ∀ env ∈ l.mints, (ns, env) ∈ mintTxs blocks) :
    ∀ ns l, exec (txStep c) ls b.1.txs ns = some l →
      Ledger.Credits l ∧ ∀ env ∈ l.mints, (ns, env) ∈ mintTxs blocks := by
  have hmem : Along (txStep c) (fun _ tx => tx ∈ b.1.txs) ls b.1.txs :=
    along_of_forall (txStep c) (fun _ htx _ => htx) ls
  apply exec_invariant_along (txStep c)
    (I := fun ls => ∀ ns l, ls ns = some l →
      Ledger.Credits l ∧ ∀ env ∈ l.mints, (ns, env) ∈ mintTxs blocks) _ h hmem
  intro ms tx ks hms htx hstep
  obtain ⟨l, l', r, hl, hr, rfl⟩ := txStep_ok hstep
  intro ns m hm
  by_cases hns : ns = tx.namespaceId
  · subst hns
    rw [Function.update_self] at hm
    obtain rfl := Option.some.inj hm
    obtain ⟨hcredits, hmints⟩ := hms _ l hl
    obtain ⟨hcredits', hnew⟩ := Ledger.credits_transition hcredits hr
    refine ⟨hcredits', fun env henv => ?_⟩
    rcases hnew env henv with hold | hmint
    · exact hmints env hold
    · exact mem_mintTxs hb htx hmint
  · rw [Function.update_of_ne hns] at hm
    exact hms ns m hm

lemma creditsFrom_run {blocks : List (Block × Id)} {s₀ : State}
    (h : CreditsFrom blocks s₀.namespaces s₀) :
    CreditsFrom blocks s₀.namespaces (exec (blockStep c) s₀ blocks) := by
  have hmem : Along (blockStep c) (fun _ b => b ∈ blocks) s₀ blocks :=
    along_of_forall (blockStep c) (fun _ hb _ => hb) s₀
  apply exec_invariant_along (blockStep c) (I := CreditsFrom blocks s₀.namespaces) _ h hmem
  intro s b s' hs hb hstep
  obtain ⟨-, rfl⟩ := blockStep_eq_ok.mp hstep
  exact ⟨hs.1, creditsFrom_txs hb hs.2⟩

lemma creditsFrom_fresh (c : Crypto) (blocks : List (Block × Id)) (inst : Instance)
    (circuitId window : Nat) (namespaces : List Namespace) (genesis : Id) :
    CreditsFrom blocks namespaces (State.fresh c inst circuitId window namespaces genesis) := by
  refine ⟨rfl, fun ns l hl => ?_⟩
  obtain ⟨-, hfresh⟩ := Option.ite_none_right_eq_some.mp hl
  obtain rfl := Option.some.inj hfresh
  exact ⟨⟨rfl, List.nodup_nil⟩, fun env henv => absurd henv List.not_mem_nil⟩

variable {blocks : List (Block × Id)} {s : State}

lemma CreditsFrom.mem (h : CreditsFrom blocks s.namespaces s) {p : Namespace × MintEnvelope}
    (hp : p ∈ s.mints) : p ∈ mintTxs blocks := by
  obtain ⟨ns, -, hmem⟩ := List.mem_flatMap.mp hp
  cases hl : s.ledgers ns with
  | none =>
    rw [hl] at hmem
    exact absurd hmem List.not_mem_nil
  | some l =>
    rw [hl] at hmem
    obtain ⟨env, henv, rfl⟩ := List.mem_map.mp hmem
    exact (h.2 ns l hl).2 env henv

lemma CreditsFrom.nodup (h : CreditsFrom blocks s.namespaces s) (hnamespaces : s.namespaces.Nodup) :
    (s.mints.map fun p => (p.1, p.2.depositId)).Nodup := by
  unfold State.mints
  rw [List.map_flatMap, List.nodup_flatMap]
  constructor
  · intro ns _
    cases hl : s.ledgers ns with
    | none => exact List.nodup_nil
    | some l =>
      have hnodup := ((h.2 ns l hl).1.nodup).map (f := fun depositId => (ns, depositId))
        (fun _ _ heq => (Prod.mk.inj heq).2)
      simpa [List.map_map, Function.comp_def] using hnodup
  · apply hnamespaces.imp
    intro ns ns' hne
    rw [Function.onFun, List.disjoint_left]
    intro key hkey hkey'
    have hfst : ∀ n, key ∈ (match s.ledgers n with
        | some l => l.mints.map fun env => (n, env)
        | none => []).map (fun p : Namespace × MintEnvelope => (p.1, p.2.depositId)) → key.1 = n := by
      intro n hn
      obtain ⟨p, hp, rfl⟩ := List.mem_map.mp hn
      cases hl : s.ledgers n with
      | none =>
        rw [hl] at hp
        exact absurd hp List.not_mem_nil
      | some l =>
        rw [hl] at hp
        obtain ⟨env, -, rfl⟩ := List.mem_map.mp hp
        rfl
    exact hne ((hfst ns hkey).symm.trans (hfst ns' hkey'))

lemma CreditsFrom.mintedTotal (h : CreditsFrom blocks s.namespaces s) :
    s.mintedTotal = (s.mints.map (·.2.intent.amount)).sum := by
  unfold State.mintedTotal State.mints
  rw [List.map_flatMap, List.flatMap_def, List.sum_flatten, List.map_map]
  congr 1
  apply List.map_congr_left
  intro ns _
  simp only [Function.comp_apply]
  cases hl : s.ledgers ns with
  | none => rfl
  | some l =>
    simp only [List.map_map, Function.comp_def]
    exact (h.2 ns l hl).1.mintedTotal

/-- Over any number of blocks of approved mints that spell each log entry's deposit id in one way, all
applied mints refer to different log entries, and no more is minted than was deposited. -/
theorem mint_once {inst : Instance} {circuitId window : Nat} {namespaces : List Namespace} {genesis : Id}
    (hnamespaces : namespaces.Nodup)
    (happroved : ∀ p ∈ mintTxs blocks, Approved served views topic deposits p)
    (hone : OneIdPerEvent (mintTxs blocks))
    (htopic : ∀ p ∈ mintTxs blocks, NamesDeposit served views topic p) :
    ((exec (blockStep c) (State.fresh c inst circuitId window namespaces genesis) blocks).mints.map
      fun p => eventOf p.2.depositId).Nodup ∧
    (∀ p ∈ (exec (blockStep c) (State.fresh c inst circuitId window namespaces genesis) blocks).mints,
      ∃ d ∈ deposits, eventOf p.2.depositId = some d.event ∧ d.amount = p.2.intent.amount) ∧
    (exec (blockStep c) (State.fresh c inst circuitId window namespaces genesis) blocks).mintedTotal ≤
      (deposits.map (·.amount)).sum := by
  have hrun := creditsFrom_run (c := c) (creditsFrom_fresh c blocks inst circuitId window namespaces genesis)
  generalize exec (blockStep c) (State.fresh c inst circuitId window namespaces genesis) blocks = s at hrun
  have hrun' : CreditsFrom blocks s.namespaces s := ⟨rfl, hrun.2⟩
  have hkeys := hrun'.nodup (hrun.1 ▸ hnamespaces)
  have hevents : (s.mints.map fun p => eventOf p.2.depositId).Nodup := by
    apply List.Nodup.map_on _ hkeys.of_map
    intro p hp q hq heq
    obtain ⟨hns, hid⟩ := hone p (hrun'.mem hp) q (hrun'.mem hq) heq
    exact List.inj_on_of_nodup_map hkeys hp hq (Prod.ext hns hid)
  have hdeposits : ∀ p ∈ s.mints, ∃ d ∈ deposits, eventOf p.2.depositId = some d.event ∧
      d.amount = p.2.intent.amount := by
    intro p hp
    obtain ⟨e, he, hmem⟩ := approved_deposit (happroved p (hrun'.mem hp)) (htopic p (hrun'.mem hp))
    exact ⟨_, hmem, he, rfl⟩
  refine ⟨hevents, hdeposits, ?_⟩
  rw [hrun'.mintedTotal]
  have hpool : ∀ p ∈ s.mints, (eventOf p.2.depositId, p.2.intent.amount) ∈
      deposits.map fun d => (some d.event, d.amount) := by
    intro p hp
    obtain ⟨d, hd, he, ha⟩ := hdeposits p hp
    exact List.mem_map.mpr ⟨d, hd, by rw [he, ha]⟩
  have hnodup : (s.mints.map fun p => (eventOf p.2.depositId, p.2.intent.amount)).Nodup := by
    apply List.Nodup.of_map Prod.fst
    simpa [List.map_map, Function.comp_def] using hevents
  have hsum := sum_map_le_of_nodup (g := Prod.snd) hnodup hpool
  simpa [List.map_map, Function.comp_def] using hsum

end Runs

section Sample

def sampleTopic : Text := "0xdd".toList

/-- A deposit of five units with receipt 11. -/
def sampleLog : Log where
  address := "0x11".toList
  topics := [sampleTopic, List.replicate 64 '0', List.replicate 64 '0', List.replicate 64 '0']
  data := List.replicate 63 '0' ++ "50b".toList ++ List.replicate 62 '0'
  blockNumber := "0xa".toList
  blockHash := "0xbb".toList
  transactionHash := "0xab".toList
  logIndex := "0x2".toList
  removed := false

def sampleConfig : NamespaceConfig where
  chainId := 31337
  rpcUrl := "http".toList
  tokenAddress := "0x".toList ++ List.replicate 40 '0'
  gateway := "0x11".toList
  confirmations := 1
  enabled := true

def sampleServed (ns : Namespace) : Option NamespaceConfig := if ns = 5 then some sampleConfig else none

def sampleRpc : Rpc where
  blockNumber := .ok 12
  transactionLogs txHash := if toLowercase txHash = "0xab".toList then .ok (some (10, [sampleLog])) else .ok none

def sampleDeposits : List Deposit := [⟨⟨31337, "0xab".toList, 2⟩, 5⟩]

def sampleMint (depositId : Text) : MintEnvelope := ⟨⟨5, 9, 5, 11, sampleProof⟩, depositId⟩

def sampleMints (depositIds : List Text) : List (Block × Id) :=
  [(⟨1, 0, 1, 1, 77, depositIds.map fun depositId => ⟨5, .mint (sampleMint depositId)⟩⟩, 78)]

lemma sampleRpc_logs {txHash : Text} {block : Nat} {logs : List Log}
    (h : sampleRpc.transactionLogs txHash = .ok (some (block, logs))) : logs = [sampleLog] := by
  unfold sampleRpc at h
  simp only at h
  split at h
  · cases h
    rfl
  · cases h

lemma sampleServed_eq {ns : Namespace} {cfg : NamespaceConfig} (h : sampleServed ns = some cfg) :
    cfg = sampleConfig := by
  obtain ⟨-, heq⟩ := Option.ite_none_right_eq_some.mp h
  exact (Option.some.inj heq).symm

def sampleEvent : DepositEvent where
  id := 0
  token := "0x".toList ++ List.replicate 40 '0'
  sender := "0x".toList ++ List.replicate 40 '0'
  amount := 5
  receiptHex := "0b".toList ++ List.replicate 62 '0'
  blockNumber := 10
  blockHash := "0xbb".toList
  txHash := "0xab".toList
  logIndex := 2

lemma sampleLog_decodes : decodeDeposit sampleLog = .ok sampleEvent := by decide +kernel

lemma sampleRpc_approves {p : Namespace × MintEnvelope}
    (h : confirmed sampleServed sampleRpc p.1 p.2 = .ok true) :
    Approved sampleServed (fun _ _ => sampleRpc) sampleTopic sampleDeposits p := by
  refine ⟨h, ?_⟩
  intro cfg hcfg txHash block logs log ev hlogs hlog _ _ _ hev
  rw [sampleRpc_logs hlogs, List.mem_singleton] at hlog
  rw [hlog, sampleLog_decodes] at hev
  obtain rfl := Except.ok.inj hev
  rw [sampleServed_eq hcfg]
  exact List.mem_singleton_self _

lemma sampleRpc_namesDeposit (p : Namespace × MintEnvelope) :
    NamesDeposit sampleServed (fun _ _ => sampleRpc) sampleTopic p := by
  intro cfg _ txHash block logs log ev hlogs hlog _ _
  rw [sampleRpc_logs hlogs, List.mem_singleton] at hlog
  rw [hlog]
  rfl

lemma sampleMint_only {p : Namespace × MintEnvelope} {depositId : Text}
    (hp : p ∈ mintTxs (sampleMints [depositId])) : p = (5, sampleMint depositId) :=
  List.mem_singleton.mp hp

theorem mint_once_sample :
    (exec (blockStep sampleCrypto) (State.fresh sampleCrypto sampleInstance 9 4 [5] 77)
      (sampleMints ["31337:0xab:2".toList])).mintedTotal ≤ (sampleDeposits.map (·.amount)).sum :=
  (mint_once (List.nodup_singleton 5)
    (fun p hp => sampleRpc_approves (sampleMint_only hp ▸ by decide +kernel))
    (fun p hp q hq _ => by rw [sampleMint_only hp, sampleMint_only hq]; exact ⟨rfl, rfl⟩)
    (fun p _ => sampleRpc_namesDeposit p)).2.2

/-- One log entry of five units, credited under two spellings of its deposit id. -/
theorem mint_once_fails :
    (∀ p ∈ mintTxs (sampleMints ["31337:0xab:2".toList, "31337:0xAB:+2".toList]),
      Approved sampleServed (fun _ _ => sampleRpc) sampleTopic sampleDeposits p ∧
        NamesDeposit sampleServed (fun _ _ => sampleRpc) sampleTopic p) ∧
    ¬((exec (blockStep sampleCrypto) (State.fresh sampleCrypto sampleInstance 9 4 [5] 77)
      (sampleMints ["31337:0xab:2".toList, "31337:0xAB:+2".toList])).mints.map
        fun p => eventOf p.2.depositId).Nodup ∧
    (sampleDeposits.map (·.amount)).sum = 5 ∧
    (exec (blockStep sampleCrypto) (State.fresh sampleCrypto sampleInstance 9 4 [5] 77)
      (sampleMints ["31337:0xab:2".toList, "31337:0xAB:+2".toList])).mintedTotal = 10 := by
  have hconfirmed : ∀ p ∈ mintTxs (sampleMints ["31337:0xab:2".toList, "31337:0xAB:+2".toList]),
      confirmed sampleServed sampleRpc p.1 p.2 = .ok true := by decide +kernel
  refine ⟨fun p hp => ⟨sampleRpc_approves (hconfirmed p hp), sampleRpc_namesDeposit p⟩, ?_⟩
  decide +kernel

end Sample

end Peal.Links
