import Peal.Links.Settled

namespace Peal.Links
open Peal.Fallible Peal.Runs

/-! # Validators that crash and retry while they apply a finalized chain -/

variable (c : Crypto)

/-- How an attempt to apply a block ends early: the process dies after `k` transactions and reopens
its stores, or every transaction is applied and recording the head fails. -/
inductive Fault where
  | crash (k : Nat)
  | headWrite

/-- How many of a block's transactions an interrupted attempt went through. -/
def Fault.reached (fault : Fault) (block : Block) : Nat :=
  match fault with
  | .crash k => k
  | .headWrite => block.txs.length

namespace State

def interrupt (s : State) (block : Block) : Fault → Except Error State
  | .crash k => { s with ledgers := (applyTxs c s.ledgers (block.txs.take k)).1 }.reopen c
  | .headWrite => .ok { s with ledgers := (applyTxs c s.ledgers block.txs).1 }

end State

inductive Event where
  | interrupted (fault : Fault)
  | applied

/-- A validator, and how far interrupted attempts at its next block have got. -/
structure Validator where
  state : State
  attempted : Nat

abbrev Chain := List (Block × Id)

variable (chain : Chain)

/-- The transactions of the block after the head. -/
def nextTxs (height : Nat) : List Tx :=
  match chain[height]? with
  | some (block, _) => block.txs
  | none => []

def validatorStep (v : Validator) (event : Event) : Except String Validator := do
  let (block, digest) ← expect chain[v.state.head.height]? "no finalized block"
  match event with
  | .applied =>
    let (s, _) ← v.state.applyBlock c block digest
    return ⟨s, 0⟩
  | .interrupted fault =>
    require (v.state.Extends block) "block does not extend the head"
    match v.state.interrupt c block fault with
    | .ok s => return ⟨s, max v.attempted (fault.reached block)⟩
    | .error _ => throw "the store does not reopen"

/-- No operation that an interrupted attempt already went through fits the ledgers as they stand. -/
def RefusesAttempted (v : Validator) (_ : Event) : Prop :=
  ∀ tx ∈ (nextTxs chain v.state.head.height).take v.attempted, ∀ env, tx.envelope = .op env →
    ∀ l, v.state.ledgers tx.namespaceId = some l → ¬Ledger.Applicable c l env

/-- The state after the first `height` blocks of the chain, each applied without interruption. -/
def uninterrupted (s₀ : State) (height : Nat) : State :=
  exec (blockStep c) s₀ (chain.take height)

/-- What an opened state satisfies. -/
structure State.Opened (s : State) : Prop where
  stored : StoredAll c s.ledgers
  served : ∀ ns ∈ s.namespaces, s.ledgers ns ≠ none
  root : s.head.root = combinedRoot c s.namespaces s.ledgers

/-- Between blocks, the ledgers, the head and the combined root are the uninterrupted ones. -/
def Agrees (s₀ : State) (v : Validator) : Prop :=
  v.attempted = 0 → v.state = uninterrupted c chain s₀ v.state.head.height

variable {c chain}

lemma reopen_stored {s : State} (h : StoredAll c s.ledgers) (hserved : ∀ ns ∈ s.namespaces, s.ledgers ns ≠ none) :
    s.reopen c = .ok { s with head := { s.head with root := combinedRoot c s.namespaces s.ledgers } } := by
  have hfold : s.namespaces.foldlM (fun ledgers ns => do
      let l ← expect (s.ledgers ns) Error.wrongNamespace
      let l' ← Ledger.init c l.store l.inst l.cfg
      return Function.update ledgers ns (some l')) s.ledgers = .ok s.ledgers := by
    generalize s.namespaces = namespaces at hserved
    induction namespaces with
    | nil => rfl
    | cons ns rest ih =>
      obtain ⟨l, hl⟩ := Option.ne_none_iff_exists'.mp (hserved ns List.mem_cons_self)
      apply (foldlM_cons_eq_ok _).mpr
      refine ⟨s.ledgers, ?_, ih (fun n hn => hserved n (List.mem_cons_of_mem ns hn))⟩
      simp only [bind_eq_ok, expect_eq_ok, pure_eq_ok]
      refine ⟨l, hl, l, init_stored (h ns l hl), ?_⟩
      rw [← hl, Function.update_eq_self]
  unfold State.reopen
  simp only [bind_eq_ok, pure_eq_ok]
  exact ⟨_, hfold, rfl⟩

lemma served_exec {ls : Ledgers} {ns : Namespace} (h : ls ns ≠ none) (txs : List Tx) :
    exec (txStep c) ls txs ns ≠ none := by
  apply exec_invariant (txStep c) (I := fun ms => ms ns ≠ none) _ h
  intro ms tx ks hms hstep
  obtain ⟨l, l', r, -, -, rfl⟩ := txStep_ok hstep
  by_cases hns : ns = tx.namespaceId
  · subst hns
    simp
  · rw [Function.update_of_ne hns]
    exact hms

lemma opened_uninterrupted {s₀ : State} (h : s₀.Opened c) (height : Nat) :
    (uninterrupted c chain s₀ height).Opened c := by
  apply exec_invariant _ (I := State.Opened c) _ h
  intro s b s' hs hstep
  obtain ⟨-, rfl⟩ := blockStep_eq_ok.mp hstep
  exact ⟨storedAll_exec hs.stored _, fun ns hns => served_exec (hs.served ns hns) _, rfl⟩

lemma uninterrupted_succ {s₀ : State} {height : Nat} {block : Block} {digest : Id}
    (hnext : chain[height]? = some (block, digest))
    (hext : (uninterrupted c chain s₀ height).Extends block) :
    uninterrupted c chain s₀ (height + 1) =
      (uninterrupted c chain s₀ height).commit c block digest
        (exec (txStep c) (uninterrupted c chain s₀ height).ledgers block.txs) := by
  rw [uninterrupted, List.take_add_one, hnext, Option.toList_some, exec_concat]
  exact advance_of_ok _ (blockStep_eq_ok.mpr ⟨hext, rfl⟩)

/-- The validator is where one that applied `ref` is part way through the next block. -/
structure ResumesFrom (c : Crypto) (chain : Chain) (ref : State) (v : Validator) : Prop where
  namespaces : v.state.namespaces = ref.namespaces
  genesis : v.state.genesis = ref.genesis
  blocks : v.state.blocks = ref.blocks
  height : v.state.head.height = ref.head.height
  digest : v.state.head.digest = ref.head.digest
  ledgers : v.state.ledgers =
    exec (txStep c) ref.ledgers ((nextTxs chain ref.head.height).take v.attempted)
  root : v.attempted = 0 → v.state.head.root = ref.head.root

/-- The reference is the uninterrupted state at the validator's height. -/
def Resumes (c : Crypto) (chain : Chain) (s₀ : State) (v : Validator) : Prop :=
  ResumesFrom c chain (uninterrupted c chain s₀ v.state.head.height) v

lemma agrees_of_resumes {s₀ : State} {v : Validator} (h : Resumes c chain s₀ v) : Agrees c chain s₀ v := by
  intro hidle
  have hledgers := h.ledgers
  rw [hidle, List.take_zero, exec_nil] at hledgers
  exact State.ext h.namespaces hledgers h.genesis (Head.ext h.height h.digest (h.root hidle)) h.blocks

namespace ResumesFrom

variable {ref : State} {v : Validator}

lemma again (h : ResumesFrom c chain ref v) {event : Event} (hok : RefusesAttempted c chain v event)
    (k : Nat) :
    exec (txStep c) v.state.ledgers ((nextTxs chain ref.head.height).take k) =
      exec (txStep c) ref.ledgers ((nextTxs chain ref.head.height).take (max v.attempted k)) := by
  have hrefused : ∀ tx ∈ (nextTxs chain ref.head.height).take v.attempted,
      ∃ e, txStep c v.state.ledgers tx = .error e := by
    intro tx htx
    rw [← h.height] at htx
    have hop := hok tx htx
    rw [h.height] at htx
    rw [h.ledgers] at hop ⊢
    exact processed_refused htx hop
  rw [h.ledgers] at hrefused ⊢
  exact exec_resume (txStep c) hrefused k

lemma applied (h : ResumesFrom c chain ref v) {event : Event} (hok : RefusesAttempted c chain v event)
    {block : Block} (hnext : nextTxs chain ref.head.height = block.txs) (digest : Id) :
    v.state.commit c block digest (exec (txStep c) v.state.ledgers block.txs) =
      ref.commit c block digest (exec (txStep c) ref.ledgers block.txs) := by
  have hagain := h.again hok block.txs.length
  rw [hnext, List.take_length, List.take_of_length_le (le_max_right _ _)] at hagain
  unfold State.commit
  rw [hagain, h.namespaces, h.genesis, h.blocks]

lemma interrupted (h : ResumesFrom c chain ref v) (href : ref.Opened c) {event : Event}
    (hok : RefusesAttempted c chain v event) {block : Block}
    (hnext : nextTxs chain ref.head.height = block.txs) {fault : Fault} {s : State}
    (hs : v.state.interrupt c block fault = .ok s) :
    ResumesFrom c chain ref ⟨s, max v.attempted (fault.reached block)⟩ := by
  have hagain := h.again hok (fault.reached block)
  have hledgers : (applyTxs c v.state.ledgers (block.txs.take (fault.reached block))).1 =
      exec (txStep c) ref.ledgers ((nextTxs chain ref.head.height).take
        (max v.attempted (fault.reached block))) := by
    rw [applyTxs_fst, ← hnext]
    exact hagain
  cases fault with
  | crash k =>
    have hstored : StoredAll c (applyTxs c v.state.ledgers (block.txs.take k)).1 := by
      rw [show k = (Fault.crash k).reached block from rfl, hledgers]
      exact storedAll_exec href.stored _
    have hserved : ∀ ns ∈ v.state.namespaces, (applyTxs c v.state.ledgers (block.txs.take k)).1 ns ≠ none := by
      intro ns hns
      rw [h.namespaces] at hns
      rw [show k = (Fault.crash k).reached block from rfl, hledgers]
      exact served_exec (href.served ns hns) _
    have hopen : v.state.interrupt c block (.crash k) = _ := reopen_stored hstored hserved
    rw [hopen] at hs
    cases hs
    refine ⟨h.namespaces, h.genesis, h.blocks, h.height, h.digest, hledgers, ?_⟩
    intro hidle
    rw [Nat.max_eq_zero_iff] at hidle
    show combinedRoot c v.state.namespaces (applyTxs c v.state.ledgers (block.txs.take k)).1 = _
    rw [show k = (Fault.crash k).reached block from rfl, hledgers, hidle.1, hidle.2, href.root,
      h.namespaces]
    rfl
  | headWrite =>
    cases hs
    refine ⟨h.namespaces, h.genesis, h.blocks, h.height, h.digest, ?_, ?_⟩
    · rw [← hledgers]
      show (applyTxs c v.state.ledgers block.txs).1 = _
      rw [Fault.reached, List.take_length]
    · intro hidle
      rw [Nat.max_eq_zero_iff] at hidle
      exact h.root hidle.1

end ResumesFrom

lemma resumes_step {s₀ : State} (hs₀ : s₀.Opened c) {v w : Validator} {event : Event}
    (h : Resumes c chain s₀ v) (hok : RefusesAttempted c chain v event)
    (hstep : validatorStep c chain v event = .ok w) : Resumes c chain s₀ w := by
  unfold validatorStep at hstep
  simp only [bind_eq_ok, expect_eq_ok] at hstep
  obtain ⟨⟨block, digest⟩, hblock, hrest⟩ := hstep
  have hnext : nextTxs chain (uninterrupted c chain s₀ v.state.head.height).head.height = block.txs := by
    rw [← h.height]
    unfold nextTxs
    rw [hblock]
  cases event with
  | applied =>
    simp only [bind_eq_ok, pure_eq_ok] at hrest
    obtain ⟨⟨s, rs⟩, hs, rfl⟩ := hrest
    obtain ⟨hext, rfl⟩ := applyBlock_eq_ok.mp ⟨rs, hs⟩
    have hext' : (uninterrupted c chain s₀ v.state.head.height).Extends block :=
      ⟨hext.1.trans h.digest, hext.2.trans (congrArg (· + 1) h.height)⟩
    have hsame := h.applied hok hnext digest
    rw [← uninterrupted_succ hblock hext', ← hext.2] at hsame
    have hheight : block.height = (uninterrupted c chain s₀ block.height).head.height := by
      rw [← hsame]
      rfl
    unfold Resumes
    rw [hsame]
    show ResumesFrom c chain (uninterrupted c chain s₀ _) _
    rw [← hheight]
    exact ⟨rfl, rfl, rfl, rfl, rfl, rfl, fun _ => rfl⟩
  | interrupted fault =>
    simp only [bind_eq_ok, require_eq_ok] at hrest
    obtain ⟨-, -, hrest⟩ := hrest
    cases hs : v.state.interrupt c block fault with
    | error e =>
      rw [hs] at hrest
      cases hrest
    | ok s =>
      rw [hs] at hrest
      cases hrest
      have hfrom := h.interrupted (opened_uninterrupted hs₀ _) hok hnext hs
      have hheight : s.head.height = v.state.head.height := hfrom.height.trans h.height.symm
      unfold Resumes
      rw [hheight]
      exact hfrom

lemma resumes_start {s₀ : State} (hgenesis : s₀.head.height = 0) : Resumes c chain s₀ ⟨s₀, 0⟩ := by
  have hstart : uninterrupted c chain s₀ s₀.head.height = s₀ := by
    rw [hgenesis]
    rfl
  unfold Resumes
  rw [hstart]
  exact ⟨rfl, rfl, rfl, rfl, rfl, rfl, fun _ => rfl⟩

lemma resumes_run {s₀ : State} (hs₀ : s₀.Opened c) (hgenesis : s₀.head.height = 0) {es : List Event}
    (hes : Along (validatorStep c chain) (RefusesAttempted c chain) ⟨s₀, 0⟩ es) :
    Throughout (validatorStep c chain) (Resumes c chain s₀) ⟨s₀, 0⟩ es :=
  throughout_along (validatorStep c chain) (I := Resumes c chain s₀)
    (fun _ _ _ h hok hstep => resumes_step hs₀ h hok hstep) (resumes_start hgenesis) hes

lemma retry_completes {s₀ : State} {v : Validator} (h : Resumes c chain s₀ v)
    (hok : RefusesAttempted c chain v .applied) {block : Block} {digest : Id}
    (hblock : chain[v.state.head.height]? = some (block, digest))
    (hext : (uninterrupted c chain s₀ v.state.head.height).Extends block) :
    validatorStep c chain v .applied =
      .ok ⟨uninterrupted c chain s₀ (v.state.head.height + 1), 0⟩ := by
  have hnext : nextTxs chain (uninterrupted c chain s₀ v.state.head.height).head.height = block.txs := by
    rw [← h.height]
    unfold nextTxs
    rw [hblock]
  have hext' : v.state.Extends block :=
    ⟨hext.1.trans h.digest.symm, hext.2.trans (congrArg (· + 1) h.height.symm)⟩
  obtain ⟨rs, hrs⟩ : ∃ rs, v.state.applyBlock c block digest =
      .ok (v.state.commit c block digest (exec (txStep c) v.state.ledgers block.txs), rs) :=
    applyBlock_eq_ok.mpr ⟨hext', rfl⟩
  have hsame := h.applied hok hnext digest
  rw [← uninterrupted_succ hblock hext] at hsame
  unfold validatorStep
  simp only [bind_eq_ok, expect_eq_ok, pure_eq_ok]
  exact ⟨_, hblock, _, hrs, by rw [hsame]⟩

/-- Validators that never retry a block over ledgers its processed operations fit again hold the same
ledgers, the same head and the same combined root as one that was never interrupted, whatever crashes
and retries each of them went through. -/
theorem restart_agreement {s₀ : State} (hs₀ : s₀.Opened c) (hgenesis : s₀.head.height = 0)
    {es fs : List Event}
    (hes : Along (validatorStep c chain) (RefusesAttempted c chain) ⟨s₀, 0⟩ es)
    (hfs : Along (validatorStep c chain) (RefusesAttempted c chain) ⟨s₀, 0⟩ fs) :
    Throughout (validatorStep c chain) (Agrees c chain s₀) ⟨s₀, 0⟩ es ∧
    Throughout (validatorStep c chain) (fun v => ∀ block digest,
      chain[v.state.head.height]? = some (block, digest) →
      (uninterrupted c chain s₀ v.state.head.height).Extends block →
      RefusesAttempted c chain v .applied →
      validatorStep c chain v .applied =
        .ok ⟨uninterrupted c chain s₀ (v.state.head.height + 1), 0⟩) ⟨s₀, 0⟩ es ∧
    ∀ n m, (exec (validatorStep c chain) ⟨s₀, 0⟩ (es.take n)).attempted = 0 →
      (exec (validatorStep c chain) ⟨s₀, 0⟩ (fs.take m)).attempted = 0 →
      (exec (validatorStep c chain) ⟨s₀, 0⟩ (es.take n)).state.head.height =
        (exec (validatorStep c chain) ⟨s₀, 0⟩ (fs.take m)).state.head.height →
      (exec (validatorStep c chain) ⟨s₀, 0⟩ (es.take n)).state =
        (exec (validatorStep c chain) ⟨s₀, 0⟩ (fs.take m)).state := by
  have hruns := resumes_run hs₀ hgenesis hes
  have hruns' := resumes_run hs₀ hgenesis hfs
  refine ⟨fun n => agrees_of_resumes (hruns n), ?_, ?_⟩
  · intro n block digest hblock hext hok
    exact retry_completes (hruns n) hok hblock hext
  · intro n m hidle hidle' hheight
    rw [agrees_of_resumes (hruns n) hidle, agrees_of_resumes (hruns' m) hidle', hheight]

lemma State.opened_fresh (inst : Instance) (circuitId window : Nat) (namespaces : List Namespace)
    (genesis : Id) : (State.fresh c inst circuitId window namespaces genesis).Opened c := by
  constructor
  · intro ns l hl
    obtain ⟨-, hfresh⟩ := Option.ite_none_right_eq_some.mp hl
    exact Option.some.inj hfresh ▸ Ledger.stored_fresh inst _
  · intro ns hns hnone
    exact absurd (show ns ∈ namespaces from hns) (by simpa [State.fresh] using hnone)
  · rfl

section Sample

def sampleState : State := State.fresh sampleCrypto sampleInstance 9 4 [5] 77

def sampleRegister : RegisterEnvelope := ⟨5, 7, 3, 7⟩

def sampleAccount : Fr := accountId sampleCrypto 5 7

def sampleLedger : Ledger := Ledger.fresh sampleCrypto sampleInstance ⟨5, 9, 4⟩

/-- The account's first operation, made against the commitment its registration will set. -/
def sampleOp : OpEnvelope where
  namespaceId := 5
  circuitId := 9
  account := sampleAccount
  com := sampleLedger.initialCommitment sampleCrypto 3
  comNew := 99
  receipt := 11
  root := sampleLedger.tree.root sampleCrypto
  proof := sampleProof
  pubkey := 7
  signature := 7

def sampleBlock (txs : List Tx) : Block := ⟨1, 0, 1, 1, 77, txs⟩

def sampleChain : Chain := [(sampleBlock [⟨5, .register sampleRegister⟩, ⟨5, .op sampleOp⟩], 78)]

/-- An attempt whose head is not recorded, and the retry. -/
def sampleEvents : List Event := [.interrupted .headWrite, .applied]

lemma sampleEvents_refuse :
    Along (validatorStep sampleCrypto sampleChain) (RefusesAttempted sampleCrypto sampleChain)
      ⟨sampleState, 0⟩ sampleEvents := by
  refine ⟨fun tx htx => absurd htx List.not_mem_nil, ?_, trivial⟩
  intro tx htx env henv l hl happlicable
  have hmem := List.mem_of_mem_take htx
  have hcom : ((advance (validatorStep sampleCrypto sampleChain) ⟨sampleState, 0⟩
      (.interrupted .headWrite)).state.ledgers 5).map
        (fun l => (l.account sampleAccount).map (·.com)) = some (some 99) := by decide +kernel
  have htxs : nextTxs sampleChain (advance (validatorStep sampleCrypto sampleChain) ⟨sampleState, 0⟩
      (.interrupted .headWrite)).state.head.height =
        [⟨5, .register sampleRegister⟩, ⟨5, .op sampleOp⟩] := by decide +kernel
  rw [htxs] at hmem
  have hop : tx = ⟨5, .op sampleOp⟩ := by
    rcases List.mem_cons.mp hmem with rfl | hlast
    · cases henv
    · exact List.mem_singleton.mp hlast
  subst hop
  obtain rfl := Envelope.op.inj henv
  obtain ⟨view, hview, hold⟩ := happlicable.current
  rw [show Tx.namespaceId ⟨5, .op sampleOp⟩ = 5 from rfl] at hl
  rw [hl, Option.map_some, Option.some.injEq] at hcom
  rw [show sampleOp.account = sampleAccount from rfl] at hview
  rw [hview, Option.map_some, Option.some.injEq, hold] at hcom
  exact absurd hcom (by decide +kernel)

lemma uninterrupted_refuses (v : Validator) (hv : v.attempted = 0) :
    Along (validatorStep sampleCrypto sampleChain) (RefusesAttempted sampleCrypto sampleChain) v
      [.applied] := by
  refine ⟨?_, trivial⟩
  intro tx htx
  rw [hv] at htx
  exact absurd htx List.not_mem_nil

theorem restart_agreement_sample :
    (exec (validatorStep sampleCrypto sampleChain) ⟨sampleState, 0⟩ (sampleEvents.take 2)).state =
      (exec (validatorStep sampleCrypto sampleChain) ⟨sampleState, 0⟩ (List.take 1 [.applied])).state :=
  (restart_agreement (State.opened_fresh sampleInstance 9 4 [5] 77) rfl sampleEvents_refuse
    (uninterrupted_refuses ⟨sampleState, 0⟩ rfl)).2.2 2 1 (by decide +kernel) (by decide +kernel)
    (by decide +kernel)

/-- The operation ordered before the registration it depends on. -/
def reorderedChain : Chain := [(sampleBlock [⟨5, .op sampleOp⟩, ⟨5, .register sampleRegister⟩], 78)]

/-- Every transaction of the block passes the votes' checks, and the validator that crashed after the
last of them ends on another combined root than the one that did not. -/
theorem restart_disagrees :
    sampleState.checkBlock sampleCrypto (sampleBlock [⟨5, .op sampleOp⟩, ⟨5, .register sampleRegister⟩]) =
      .ok () ∧
    (exec (validatorStep sampleCrypto reorderedChain) ⟨sampleState, 0⟩
      [.interrupted (.crash 2), .applied]).state.head.height = 1 ∧
    (exec (validatorStep sampleCrypto reorderedChain) ⟨sampleState, 0⟩ [.applied]).state.head.height = 1 ∧
    (exec (validatorStep sampleCrypto reorderedChain) ⟨sampleState, 0⟩
      [.interrupted (.crash 2), .applied]).state.head.root ≠
    (exec (validatorStep sampleCrypto reorderedChain) ⟨sampleState, 0⟩ [.applied]).state.head.root := by
  decide +kernel

end Sample

end Peal.Links
