import Peal.Consensus.Encoding
import Peal.Consensus.Mempool

namespace Peal.Consensus
open Peal.Fallible Peal.Runs Peal.Json
open Peal.Links (Bytes Text Id Tx Block Envelope State)

/-! # Proposed blocks -/

variable {cfg : Config}

/-! ### What the mempool holds -/

/-- A transaction that may be in a block. -/
def Fits (tx : Tx) : Prop := TxTyped tx ∧ Shaped tx.envelope

lemma checkTx_shaped {c : Peal.Links.Crypto} {s : State} {tx : Tx} (h : s.checkTx c tx = .ok ()) :
    Shaped tx.envelope := by
  obtain ⟨l, -, hcheck⟩ := bind_eq_ok.mp h
  have hlength {bytes : Bytes} {proof : Nat} (hproof : Peal.Links.proofFromBytes c bytes = .ok proof) :
      bytes.length = Peal.Links.PROOF_BYTES := by
    simp only [Peal.Links.proofFromBytes, bind_eq_ok, require_eq_ok] at hproof
    obtain ⟨-, hlength, -⟩ := hproof
    exact hlength
  cases henv : tx.envelope with
  | register env => trivial
  | op env =>
    rw [henv] at hcheck
    simp only [Peal.Links.Ledger.checkOp, Peal.Links.Ledger.admitOp, bind_eq_ok] at hcheck
    obtain ⟨proof, ⟨-, -, -, -, -, -, hproof⟩, -⟩ := hcheck
    exact hlength hproof
  | mint env =>
    rw [henv] at hcheck
    simp only [Peal.Links.Ledger.checkMint, Peal.Links.Ledger.mintShape, Peal.Links.Ledger.mintProof, bind_eq_ok,
      require_eq_ok] at hcheck
    obtain ⟨-, ⟨-, -, -, -, hdeposit⟩, proof, hproof, -⟩ := hcheck
    exact ⟨hlength hproof, Nat.le_of_not_lt fun hlong => hdeposit (.inr hlong)⟩

namespace Pool

/-- Transactions under admission come from typed messages, and those admitted have passed the checks. -/
structure Vetted (p : Pool) : Prop where
  entry : ∀ e ∈ p.mempool, Fits e.tx
  admitted : ∀ a, some a ∈ p.admissions → Fits a.tx
  admitting : ∀ a ∈ p.admitting, TxTyped a.tx

variable {p p' : Pool}

lemma Vetted.of_subset (h : p.Vetted) (hpool : p'.mempool ⊆ p.mempool) (hadmitted : p'.admissions ⊆ p.admissions)
    (hadmitting : p'.admitting ⊆ p.admitting) : p'.Vetted :=
  ⟨fun e he => h.entry e (hpool he), fun a ha => h.admitted a (hadmitted ha),
    fun a ha => h.admitting a (hadmitting ha)⟩

lemma Vetted.removeFromMempool (h : p.Vetted) (id : Id) : (p.removeFromMempool id).Vetted := by
  unfold Pool.removeFromMempool
  split
  · split
    · exact h.of_subset List.eraseP_subset (List.Subset.refl _) (List.Subset.refl _)
    · exact h.of_subset (List.Subset.refl _) (List.Subset.refl _) (List.Subset.refl _)
  · exact h

lemma Vetted.answerWaiters (h : p.Vetted) (id : Id) (answer : List Waiter → List (Nat × Outcome)) :
    (p.answerWaiters id answer).Vetted :=
  h.of_subset (List.Subset.refl _) (List.Subset.refl _) (List.Subset.refl _)

lemma Vetted.foldl {β : Type} {f : Pool → β → Pool} (hf : ∀ p b, p.Vetted → (f p b).Vetted) (h : p.Vetted)
    (bs : List β) : (bs.foldl f p).Vetted := by
  induction bs generalizing p with
  | nil => exact h
  | cons b bs ih => exact ih (hf p b h)

lemma Vetted.admitTx (h : p.Vetted) {tx : Tx} (htx : TxTyped tx) (waiter : Option (Nat × Nat)) (gossip : Bool) :
    (p.admitTx tx waiter gossip).Vetted := by
  unfold Pool.admitTx
  split
  · exact h.of_subset (List.Subset.refl _) (List.Subset.refl _) (List.Subset.refl _)
  · split
    · exact h.of_subset (List.Subset.refl _) (List.Subset.refl _) (List.Subset.refl _)
    · refine ⟨h.entry, h.admitted, fun a ha => ?_⟩
      rcases List.mem_append.mp ha with hold | hnew
      · exact h.admitting a hold
      · obtain rfl := List.mem_singleton.mp hnew
        exact htx

lemma decodeTx_typed {bytes : Bytes} {tx : Tx} (h : (withJson cfg).decodeTx bytes = .ok tx) : TxTyped tx := by
  simp only [Config.decodeTx, bind_eq_ok] at h
  obtain ⟨-, -, hparse⟩ := h
  have hparse' : (parseTx bytes).mapError (fun e => s!"transaction: {e}") = .ok tx := hparse
  cases htx : parseTx bytes with
  | error e => rw [htx] at hparse'; cases hparse'
  | ok tx' =>
    rw [htx] at hparse'
    obtain rfl := Except.ok.inj hparse'
    exact parseTx_typed htx

lemma Vetted.onPeerTx (h : p.Vetted) (bytes : Bytes) : (p.onPeerTx (withJson cfg) bytes).Vetted := by
  unfold Pool.onPeerTx
  split
  · next tx htx =>
    split
    · exact h
    · exact h.admitTx (decodeTx_typed htx) none false
  · exact h

lemma Vetted.admissionDone (h : p.Vetted) (s : State) (i : Nat) (confirmed : Except String Bool) :
    (p.admissionDone cfg s i confirmed).Vetted := by
  have herase : p.admitting.eraseIdx i ⊆ p.admitting := List.eraseIdx_subset
  unfold Pool.admissionDone
  split
  · exact h
  · next a ha =>
    have htyped := h.admitting a (List.mem_of_getElem? ha)
    split
    · next hcheck =>
      have hchecked : s.checkTx cfg.crypto a.tx = .ok () := by
        obtain ⟨⟨⟩, hchecked, -⟩ := bind_eq_ok.mp hcheck
        exact hchecked
      refine ⟨h.entry, fun b hb => ?_, fun b hb => h.admitting b (herase hb)⟩
      rcases List.mem_append.mp hb with hold | hnew
      · exact h.admitted b hold
      · obtain rfl := Option.some.inj (List.mem_singleton.mp hnew)
        exact ⟨htyped, checkTx_shaped hchecked⟩
    · refine ⟨h.entry, fun b hb => ?_, fun b hb => h.admitting b (herase hb)⟩
      rcases List.mem_append.mp hb with hold | hnew
      · exact h.admitted b hold
      · cases List.mem_singleton.mp hnew

lemma Vetted.onAdmitted (h : p.Vetted) {a : Admission} (ha : Fits a.tx) (now : Nat) : (p.onAdmitted cfg a now).Vetted := by
  have hwaiting : (p.register (cfg.txId a.tx) a.waiter now).Vetted :=
    h.of_subset (List.Subset.refl _) (List.Subset.refl _) (List.Subset.refl _)
  unfold Pool.onAdmitted
  dsimp only
  split
  · exact hwaiting
  · split
    · exact hwaiting.answerWaiters _ _
    · refine ⟨fun e he => ?_, hwaiting.admitted, hwaiting.admitting⟩
      rcases List.mem_append.mp he with hold | hnew
      · exact h.entry e hold
      · obtain rfl := List.mem_singleton.mp hnew
        exact ha

lemma Vetted.onAdmission (h : p.Vetted) (i now : Nat) : (p.onAdmission cfg i now).Vetted := by
  unfold Pool.onAdmission
  split
  · exact h
  · next admitted hi =>
    have hrest : Vetted { p with
        admissions := p.admissions.eraseIdx i
        admissionsInFlight := p.admissionsInFlight - 1 } :=
      h.of_subset (List.Subset.refl _) List.eraseIdx_subset (List.Subset.refl _)
    dsimp only
    split
    · next a => exact hrest.onAdmitted (h.admitted a (List.mem_of_getElem? hi)) now
    · exact hrest

lemma Vetted.onTick (h : p.Vetted) (now : Nat) : (p.onTick cfg now).Vetted := by
  have hexpired := h.foldl (f := expire) (fun _ id h => (h.removeFromMempool id).answerWaiters id _)
    ((p.mempool.filter fun e => cfg.mempoolTtl < now - e.added).map PoolEntry.id)
  exact hexpired.of_subset (List.Subset.refl _) (List.Subset.refl _) (List.Subset.refl _)

lemma Vetted.settle (h : p.Vetted) (txs : List Tx) (results : List Outcome) : (p.settle cfg txs results).Vetted :=
  h.foldl (fun _ (x : Tx × Outcome) h => (h.removeFromMempool (cfg.txId x.1)).answerWaiters _ _) _

end Pool

namespace Actor

/-- A transaction that is submitted is a value of the transaction type. -/
def Typed : Event → Prop
  | .submit tx _ => TxTyped tx
  | _ => True

lemma vetted_step {a a' : Actor} {e : Event} (h : a.toPool.Vetted) (he : Typed e)
    (hstep : step (withJson cfg) a e = .ok a') : a'.toPool.Vetted := by
  cases e <;> simp only [step, Except.ok.injEq] at hstep <;> subst hstep
  case propose context now =>
    split
    · exact h
    · rw [onPropose_toPool]
      exact h
  case proposeNow context now =>
    rw [onPropose_toPool]
    exact h
  case verify context id now =>
    rw [(onVerify_frame ..).1]
    exact h
  case finalized id now =>
    rw [onFinalized_toPool]
    exact h
  case block raw now =>
    rw [onBlock_toPool]
    exact h
  case submit tx timeout =>
    have hcounted : Pool.Vetted { a.toPool with submitted := a.submitted + 1 } :=
      h.of_subset (List.Subset.refl _) (List.Subset.refl _) (List.Subset.refl _)
    exact hcounted.admitTx he _ true
  case peerTx bytes => exact h.onPeerTx bytes
  case admissionDone i confirmed => exact h.admissionDone a.state i confirmed
  case admission i now => exact h.onAdmission i now
  case runTask i stored =>
    rw [runTask_toPool]
    exact h
  case applied i now =>
    unfold onCompletion
    split
    · exact h
    · unfold onApplied
      dsimp only
      rw [drainFinalized, drain_toPool]
      split
      · exact h
      · exact h.settle _ _
  case drop id => exact h.removeFromMempool id
  case tick now => exact h.onTick now

end Actor

/-! ### What a validator knows of heights -/

def asNat : Value → Option Nat
  | .num (.ofNat n) => some n
  | _ => none

/-- The height written in a block's bytes. -/
def heightIn (bytes : Bytes) : Option Nat := do
  let v ← fromBytes bytes
  let fields ← asFields v
  (field fields "height".toList).bind asNat

/-- A digest goes with a height: genesis with zero, any other with the one its block states. -/
def Names (cfg : Config) (id : Id) (height : Nat) : Prop :=
  (id = cfg.genesis ∧ height = 0) ∨ ∃ bytes, cfg.digest bytes = id ∧ heightIn bytes = some height

lemma heightIn_parsed {bytes : Bytes} {block : Block} (h : parseBlock bytes = .ok block) :
    heightIn bytes = some block.height := by
  obtain ⟨v, hv, hread⟩ := Option.bind_eq_some_iff.mp (expect_eq_ok.mp h)
  simp only [readBlock, Option.bind_eq_bind, Option.bind_eq_some_iff, Option.pure_def, Option.some.injEq] at hread
  obtain ⟨fields, hfields, _, -, _, -, _, -, height, ⟨w, hw, hheight⟩, _, -, _, -, _, -, rfl⟩ := hread
  have hnat : asNat w = some height := by
    unfold asUint at hheight
    split at hheight
    · split at hheight
      · exact hheight
      · cases hheight
    · cases hheight
  simp only [heightIn, hv, hfields, hw, Option.bind_eq_bind, Option.bind_some]
  exact hnat

lemma heightIn_encodeBlock (block : Block) : heightIn (encodeBlock block) = some block.height := by
  rw [heightIn, encodeBlock, fromBytes_toBytes]
  rfl

lemma Names.unique (hdigest : Function.Injective cfg.digest) {id : Id} {m n : Nat} (hid : id ≠ cfg.genesis)
    (hm : Names cfg id m) (hn : Names cfg id n) : m = n := by
  obtain ⟨bytes, hbytes, hheight⟩ := hm.resolve_left fun h => hid h.1
  obtain ⟨bytes', hbytes', hheight'⟩ := hn.resolve_left fun h => hid h.1
  obtain rfl := hdigest (hbytes.trans hbytes'.symm)
  exact Option.some.inj (hheight.symm.trans hheight')

/-- What a store holds of blocks it wrote. -/
structure Stored (cfg : Config) (s : State) : Prop where
  head : Names cfg s.head.digest s.head.height
  blocks : ∀ e ∈ s.blocks, Names cfg e.1 e.2.height

structure Grounded (cfg : Config) (a : Chain) : Prop where
  cache : ∀ e ∈ a.blocks, Names cfg e.1 e.2.block.height
  tasks : ∀ t ∈ a.tasks, Names cfg t.1 t.2.block.height
  head : Names cfg a.head.digest a.head.height
  state : Stored cfg a.state

namespace Grounded

variable {a : Actor}

lemma parentHeight (h : Grounded cfg a.toChain) {id : Id} {n : Nat} (hn : a.parentHeight cfg id = some n) :
    Names cfg id n ∧ (id = cfg.genesis → n = 0) := by
  unfold Actor.parentHeight at hn
  split at hn
  · next hgenesis =>
    obtain rfl := Option.some.inj hn
    exact ⟨.inl ⟨hgenesis, rfl⟩, fun _ => rfl⟩
  · next hgenesis =>
    refine ⟨?_, fun heq => absurd heq hgenesis⟩
    split at hn
    · next hhead =>
      obtain rfl := Option.some.inj hn
      exact hhead ▸ h.head
    · split at hn
      · next b hb =>
        obtain rfl := Option.some.inj hn
        exact h.cache _ (Assoc.mem_of_get hb)
      · obtain ⟨block, hblock, rfl⟩ := Option.map_eq_some_iff.mp hn
        exact h.state.blocks _ (Assoc.mem_of_get hblock)

lemma request (h : Grounded cfg a.toChain) (id : Id) (now : Nat) : Grounded cfg (a.request id now).toChain := by
  rw [Actor.request_toChain]
  exact h

lemma markKnown (h : Grounded cfg a.toChain) (height : Nat) (id : Id) : Grounded cfg (a.markKnown height id).toChain :=
  ⟨h.cache, h.tasks, h.head, h.state⟩

lemma forgetKnown (h : Grounded cfg a.toChain) (height : Nat) : Grounded cfg (a.forgetKnown height).toChain :=
  ⟨h.cache, h.tasks, h.head, h.state⟩

lemma cacheBlock (h : Grounded cfg a.toChain) {id : Id} {c : Cached} (hc : Names cfg id c.block.height) :
    Grounded cfg { a.toChain with blocks := Assoc.insert a.blocks id c } := by
  refine ⟨fun e he => ?_, h.tasks, h.head, h.state⟩
  rcases Assoc.mem_insert.mp he with rfl | ⟨hmem, -⟩
  · exact hc
  · exact h.cache e hmem

lemma walk (now rounds : Nat) (cur : Id) (progressed : Bool) (h : Grounded cfg a.toChain) :
    Grounded cfg (Actor.walk now rounds cur progressed a).2.toChain := by
  induction rounds generalizing cur progressed a with
  | zero => exact h
  | succ rounds ih =>
    rw [Actor.walk]
    split
    · exact h.request _ _
    · split
      · split
        · exact h.markKnown _ _
        · exact h
      · exact ih _ _ (h.markKnown _ _)

lemma drain (now rounds : Nat) (h : Grounded cfg a.toChain) : Grounded cfg (Actor.drain cfg now rounds a).toChain := by
  induction rounds generalizing a with
  | zero => exact h
  | succ rounds ih =>
    rw [Actor.drain]
    split
    · exact h
    · next n id _ =>
      split
      · exact ih (h.forgetKnown n)
      · split
        · split
          · exact h.request _ _
          · next cached hcached =>
            split
            · exact ih (h.forgetKnown n)
            · split
              · exact h
              · refine ⟨h.cache, fun t ht => ?_, h.head, h.state⟩
                rcases List.mem_append.mp ht with hold | hnew
                · exact h.tasks t hold
                · obtain rfl := List.mem_singleton.mp hnew
                  exact h.cache _ (Assoc.mem_of_get hcached)
        · have hwalk := h.walk now cfg.rounds id false
          split <;> next b heq =>
            rw [heq] at hwalk
            first | exact ih hwalk | exact hwalk

lemma onFinalized (h : Grounded cfg a.toChain) (id : Id) (now : Nat) :
    Grounded cfg (a.onFinalized cfg id now).toChain := by
  unfold Actor.onFinalized
  split
  · exact h
  · refine drain now cfg.rounds ?_
    split
    · exact h.markKnown _ _
    · split
      · exact h
      · exact request (a := { a with finalizedUnknown := insert id a.finalizedUnknown })
          ⟨h.cache, h.tasks, h.head, h.state⟩ id now

lemma recognize (h : Grounded cfg a.toChain) (id : Id) : Grounded cfg (a.recognize id).toChain := by
  unfold Actor.recognize
  split
  · dsimp only
    split
    · exact ⟨h.cache, h.tasks, h.head, h.state⟩
    · exact ⟨h.cache, h.tasks, h.head, h.state⟩
  · exact h

lemma onBlock {a : Actor} (h : Grounded (withJson cfg) a.toChain) (raw : Bytes) (now : Nat) :
    Grounded (withJson cfg) (a.onBlock (withJson cfg) raw now).toChain := by
  unfold Actor.onBlock
  dsimp only
  split
  · exact h
  · split
    · next block hblock =>
      have hparsed : parseBlock raw = .ok block := (withJson cfg).decodeBlock_parsed hblock
      split
      · refine drain now _ (recognize ?_ _)
        rw [Actor.wake_toChain]
        exact h.cacheBlock (.inr ⟨raw, rfl, heightIn_parsed hparsed⟩)
      · exact h
    · exact h

lemma onPropose {a : Actor} (h : Grounded (withJson cfg) a.toChain) (context : Ctx) (now : Nat) :
    Grounded (withJson cfg) (a.onPropose (withJson cfg) context now).toChain := by
  unfold Actor.onPropose
  split
  · exact h.request _ _
  · exact h.cacheBlock (.inr ⟨_, rfl, heightIn_encodeBlock _⟩)

lemma runTask (h : Grounded cfg a.toChain) (i : Nat) (stored : Bool) :
    Grounded cfg (a.runTask cfg i stored).toChain := by
  unfold Actor.runTask
  split
  · exact h
  · next id cached htask =>
    have hnames : Names cfg id cached.block.height := h.tasks _ (List.mem_of_getElem? htask)
    have hrest : ∀ t ∈ a.tasks.eraseIdx i, Names cfg t.1 t.2.block.height :=
      fun t ht => h.tasks t (List.eraseIdx_subset ht)
    dsimp only
    split
    · exact ⟨h.cache, hrest, h.head, h.state⟩
    · next state results happly =>
      split
      · refine ⟨h.cache, hrest, h.head, ?_⟩
        obtain ⟨-, rfl⟩ := Peal.Links.applyBlock_eq_ok.mp ⟨results, happly⟩
        refine ⟨hnames, fun e he => ?_⟩
        rcases List.mem_append.mp he with hold | hnew
        · exact h.state.blocks e (List.mem_of_mem_filter hold)
        · obtain rfl := List.mem_singleton.mp hnew
          exact hnames
      · exact ⟨h.cache, hrest, h.head, ⟨h.state.head, h.state.blocks⟩⟩

lemma onCompletion (h : Grounded cfg a.toChain) (i now : Nat) : Grounded cfg (a.onCompletion cfg i now).toChain := by
  unfold Actor.onCompletion
  split
  · exact h
  · refine drain now cfg.rounds ?_
    split
    · exact ⟨h.cache, h.tasks, h.head, h.state⟩
    · refine ⟨fun e he => h.cache e ?_, h.tasks, h.state.head, h.state⟩
      unfold Actor.pruneBlocks at he
      dsimp only at he
      split at he
      · exact List.mem_of_mem_filter (List.mem_of_mem_filter he)
      · exact List.mem_of_mem_filter he

lemma step {a a' : Actor} {e : Actor.Event} (h : Grounded (withJson cfg) a.toChain)
    (hstep : Actor.step (withJson cfg) a e = .ok a') : Grounded (withJson cfg) a'.toChain := by
  cases e <;> simp only [Actor.step, Except.ok.injEq] at hstep <;> subst hstep
  case propose context now =>
    split
    · exact h
    · exact h.onPropose context now
  case proposeNow context now => exact h.onPropose context now
  case verify context id now =>
    rw [(a.onVerify_frame id now context).2]
    exact h
  case finalized id now => exact h.onFinalized id now
  case block raw now => exact h.onBlock raw now
  case runTask i stored => exact h.runTask i stored
  case applied i now => exact h.onCompletion i now
  all_goals exact h

end Grounded

/-! ### A proposal -/

/-- A cached block between a digest and the applied chain. -/
inductive Behind (cfg : Config) (a : Actor) : Id → Cached → Prop
  | here {cur : Id} {b : Cached} (hhead : cur ≠ a.head.digest) (hgenesis : cur ≠ cfg.genesis)
      (hb : Assoc.get a.blocks cur = some b) : Behind cfg a cur b
  | further {cur : Id} {c b : Cached} (hhead : cur ≠ a.head.digest) (hgenesis : cur ≠ cfg.genesis)
      (hc : Assoc.get a.blocks cur = some c) (hrest : Behind cfg a c.block.parent b) : Behind cfg a cur b

/-- The digests met on the way from a first one to a block. -/
def Path (cfg : Config) (a : Actor) (b : Cached) : List Id → Prop
  | [] => False
  | cur :: rest => cur ≠ a.head.digest ∧ cur ≠ cfg.genesis ∧ ∃ c, Assoc.get a.blocks cur = some c ∧
      ((rest = [] ∧ c = b) ∨ (rest.head? = some c.block.parent ∧ Path cfg a b rest))

section Proposal

variable {a : Actor}

lemma Path.drop {b : Cached} {ids : List Id} (h : Path cfg a b ids) {cur : Id} (hcur : cur ∈ ids) :
    ∃ rest, cur :: rest <:+ ids ∧ Path cfg a b (cur :: rest) := by
  induction ids with
  | nil => exact h.elim
  | cons id ids ih =>
    rcases List.mem_cons.mp hcur with rfl | htail
    · exact ⟨ids, List.suffix_refl _, h⟩
    · obtain ⟨-, -, c, -, hnext⟩ := h
      rcases hnext with ⟨rfl, -⟩ | ⟨-, hpath⟩
      · cases htail
      · obtain ⟨rest, hsuffix, hrest⟩ := ih hpath htail
        exact ⟨rest, hsuffix.trans (List.suffix_cons _ _), hrest⟩

lemma Behind.path {cur : Id} {b : Cached} (h : Behind cfg a cur b) : ∃ rest, Path cfg a b (cur :: rest) ∧
    (cur :: rest).Nodup := by
  induction h with
  | @here cur b hhead hgenesis hb => exact ⟨[], ⟨hhead, hgenesis, b, hb, .inl ⟨rfl, rfl⟩⟩, List.nodup_singleton _⟩
  | @further cur c b hhead hgenesis hc _ ih =>
    obtain ⟨rest, hpath, hnodup⟩ := ih
    by_cases hmet : cur ∈ c.block.parent :: rest
    · obtain ⟨rest', hsuffix, hpath'⟩ := hpath.drop hmet
      exact ⟨rest', hpath', hnodup.sublist hsuffix.sublist⟩
    · exact ⟨c.block.parent :: rest, ⟨hhead, hgenesis, c, hc, .inr ⟨rfl, hpath⟩⟩, List.nodup_cons.mpr ⟨hmet, hnodup⟩⟩

lemma Path.cached {b : Cached} {ids : List Id} (h : Path cfg a b ids) : ids ⊆ a.blocks.map Prod.fst := by
  induction ids with
  | nil => exact List.nil_subset _
  | cons id ids ih =>
    obtain ⟨-, -, c, hc, hnext⟩ := h
    refine List.cons_subset.mpr ⟨List.mem_map_of_mem (Assoc.mem_of_get hc), ?_⟩
    rcases hnext with ⟨rfl, -⟩ | ⟨-, hpath⟩
    · exact List.nil_subset _
    · exact ih hpath

lemma Path.excluded {b : Cached} {cur : Id} {rest : List Id} (h : Path cfg a b (cur :: rest)) {rounds : Nat}
    (hrounds : rest.length < rounds) {tx : Tx} (htx : tx ∈ b.block.txs) : cfg.txId tx ∈ a.excluded cfg rounds cur := by
  induction rest generalizing cur rounds with
  | nil =>
    obtain ⟨hhead, hgenesis, c, hc, hnext⟩ := h
    obtain ⟨rounds, rfl⟩ : ∃ k, rounds = k + 1 := ⟨rounds - 1, by omega⟩
    rcases hnext with ⟨-, rfl⟩ | ⟨-, hpath⟩
    · rw [Actor.excluded, if_neg (not_or.mpr ⟨hhead, hgenesis⟩), hc]
      exact Finset.mem_union_left _ (List.mem_toFinset.mpr (List.mem_map_of_mem htx))
    · exact hpath.elim
  | cons next rest ih =>
    obtain ⟨hhead, hgenesis, c, hc, hnext⟩ := h
    obtain ⟨rounds, rfl⟩ : ∃ k, rounds = k + 1 := ⟨rounds - 1, by omega⟩
    rcases hnext with ⟨hnil, -⟩ | ⟨hparent, hpath⟩
    · cases hnil
    · obtain rfl : next = c.block.parent := Option.some.inj hparent
      rw [Actor.excluded, if_neg (not_or.mpr ⟨hhead, hgenesis⟩), hc]
      exact Finset.mem_union_right _ (ih hpath (by rw [List.length_cons] at hrounds; omega))

lemma Behind.excluded (hrounds : a.blocks.length ≤ cfg.rounds) {cur : Id} {b : Cached} (h : Behind cfg a cur b) {tx : Tx}
    (htx : tx ∈ b.block.txs) : cfg.txId tx ∈ a.excluded cfg cfg.rounds cur := by
  obtain ⟨rest, hpath, hnodup⟩ := h.path
  have hlength := (hnodup.subperm hpath.cached).length_le
  rw [List.length_map, List.length_cons] at hlength
  exact hpath.excluded (by omega) htx

/-- The result adds to the transactions those of entries that are not excluded, as far as they fit. -/
def Selects (maxTxs : Nat) (excluded : Finset Id) (entries : List PoolEntry) (size : Nat) (txs result : List Tx) : Prop :=
  ∃ chosen : List PoolEntry, chosen.Sublist entries ∧ result = txs ++ chosen.map PoolEntry.tx ∧
    (∀ e ∈ chosen, e.id ∉ excluded) ∧ txs.length + chosen.length ≤ maxTxs ∧
    size + (chosen.map fun e => e.bytes.length + 2).sum ≤ MAX_BLOCK_BYTES

lemma selects_nothing {maxTxs : Nat} {excluded : Finset Id} {size : Nat} {txs : List Tx} (entries : List PoolEntry)
    (hsize : size ≤ MAX_BLOCK_BYTES) (htxs : txs.length ≤ maxTxs) : Selects maxTxs excluded entries size txs txs :=
  ⟨[], List.nil_sublist _, (List.append_nil _).symm, fun _ he => absurd he List.not_mem_nil, htxs, hsize⟩

lemma select_selects {maxTxs : Nat} {excluded : Finset Id} {entries : List PoolEntry} {size : Nat} {txs : List Tx}
    (hsize : size ≤ MAX_BLOCK_BYTES) (htxs : txs.length ≤ maxTxs) :
    Selects maxTxs excluded entries size txs (Actor.select maxTxs excluded entries size txs) := by
  induction entries generalizing size txs with
  | nil => exact selects_nothing [] hsize htxs
  | cons e rest ih =>
    rw [Actor.select]
    split
    · exact selects_nothing _ hsize htxs
    · next hroom =>
      split
      · obtain ⟨chosen, hsub, hrest⟩ := ih hsize htxs
        exact ⟨chosen, hsub.cons e, hrest⟩
      · next hnew =>
        split
        · exact selects_nothing _ hsize htxs
        · next hfits =>
          have hlength : (txs ++ [e.tx]).length = txs.length + 1 := List.length_append
          obtain ⟨chosen, hsub, heq, hout, hcount, hbytes⟩ :=
            @ih _ (txs ++ [e.tx]) (Nat.le_of_not_lt hfits) (by omega)
          refine ⟨e :: chosen, hsub.cons_cons e, ?_, ?_, ?_, ?_⟩
          · rw [heq, List.append_assoc, List.map_cons, List.singleton_append]
          · exact List.forall_mem_cons.mpr ⟨hnew, hout⟩
          · rw [List.length_cons]
            omega
          · rw [List.map_cons, List.sum_cons]
            omega

lemma checkTxs_ok {seen : Finset Id} {txs : List Tx} (hsize : ∀ tx ∈ txs, (cfg.encodeTx tx).length ≤ MAX_TX_BYTES)
    (hnew : ∀ tx ∈ txs, cfg.txId tx ∉ seen) (hnodup : (txs.map cfg.txId).Nodup) : cfg.checkTxs seen txs = .ok () := by
  induction txs generalizing seen with
  | nil => rfl
  | cons tx txs ih =>
    rw [List.map_cons, List.nodup_cons] at hnodup
    have hrest : cfg.checkTxs (insert (cfg.txId tx) seen) txs = .ok () := by
      refine ih (fun t ht => hsize t (List.mem_cons_of_mem _ ht)) (fun t ht hmem => ?_) hnodup.2
      rcases Finset.mem_insert.mp hmem with heq | hseen
      · exact hnodup.1 (heq ▸ List.mem_map_of_mem ht)
      · exact hnew t (List.mem_cons_of_mem _ ht) hseen
    rw [Config.checkTxs, require, if_pos (hsize tx List.mem_cons_self), require, if_pos (hnew tx List.mem_cons_self)]
    exact hrest

/-- The checks of a block against the round it is put to the vote in, for a validator that knows the parent's height. -/
def structural (context : Ctx) (block : Block) (parentHeight : Nat) : Bool :=
  block.epoch = context.epoch && block.view = context.view && block.parent = context.parent &&
    block.height = parentHeight + 1

/-- A round is named by machine integers and a digest. -/
structure CtxTyped (context : Ctx) : Prop where
  epoch : context.epoch < 2 ^ 64
  view : context.view < 2 ^ 64
  parent : context.parent < 256 ^ 32

lemma run_vetted (cfg : Config) (s : State) {es : List Actor.Event} (hes : ∀ e ∈ es, Actor.Typed e) :
    (exec (Actor.step (withJson cfg)) (Actor.start s) es).toPool.Vetted :=
  exec_invariant_along (I := fun a => a.toPool.Vetted) (Actor.step (withJson cfg))
    (fun _ _ _ h he hstep => Actor.vetted_step h he hstep)
    ⟨fun _ h => absurd h List.not_mem_nil, fun _ h => absurd h List.not_mem_nil, fun _ h => absurd h List.not_mem_nil⟩
    (along_of_forall _ (fun e he _ => hes e he) _)

lemma run_grounded {s : State} (hs : Stored (withJson cfg) s) (es : List Actor.Event) :
    Grounded (withJson cfg) (exec (Actor.step (withJson cfg)) (Actor.start s) es).toChain :=
  exec_invariant (I := fun a => Grounded (withJson cfg) a.toChain) (Actor.step (withJson cfg))
    (fun _ _ _ h hstep => h.step hstep)
    ⟨fun _ h => absurd h List.not_mem_nil, fun _ h => absurd h List.not_mem_nil, hs.head, hs⟩ es

/-- The block that a validator proposes on a parent of known height. -/
def proposal (cfg : Config) (a : Actor) (context : Ctx) (parentHeight : Nat) : Block :=
  ⟨VERSION, context.epoch, context.view, parentHeight + 1, context.parent,
    Actor.select (min cfg.maxBlockTxs MAX_BLOCK_TXS) (a.excluded cfg cfg.rounds context.parent) a.mempool 256 []⟩

lemma onPropose_eq {context : Ctx} {n : Nat} (h : a.parentHeight cfg context.parent = some n) (now : Nat) :
    a.onPropose cfg context now = { a with
      blocks := Assoc.insert a.blocks (cfg.digest (cfg.encodeBlock (proposal cfg a context n)))
        ⟨proposal cfg a context n, cfg.encodeBlock (proposal cfg a context n)⟩ } := by
  unfold Actor.onPropose
  rw [h]
  rfl

lemma proposal_selects (cfg : Config) (a : Actor) (context : Ctx) (n : Nat) :
    ∃ chosen : List PoolEntry, chosen.Sublist a.mempool ∧
      (proposal cfg a context n).txs = chosen.map PoolEntry.tx ∧
      (∀ e ∈ chosen, e.id ∉ a.excluded cfg cfg.rounds context.parent) ∧ chosen.length ≤ MAX_BLOCK_TXS ∧
      256 + (chosen.map fun e => e.bytes.length + 2).sum ≤ MAX_BLOCK_BYTES := by
  obtain ⟨chosen, hsub, heq, hout, hcount, hbytes⟩ :=
    @select_selects (min cfg.maxBlockTxs MAX_BLOCK_TXS) (a.excluded cfg cfg.rounds context.parent) a.mempool 256 []
      (by decide) (Nat.zero_le _)
  refine ⟨chosen, hsub, heq, hout, ?_, hbytes⟩
  rw [List.length_nil, Nat.zero_add] at hcount
  exact hcount.trans (Nat.min_le_right _ _)

variable {context : Ctx} {n : Nat}

lemma proposal_typed (hpool : a.toPool.Vetted) (hcontext : CtxTyped context) (hn : n + 1 < 2 ^ 64) :
    BlockTyped (proposal cfg a context n) := by
  obtain ⟨chosen, hsub, htxs, -⟩ := proposal_selects cfg a context n
  refine ⟨show VERSION < 2 ^ 8 by decide, hcontext.epoch, hcontext.view, hn, hcontext.parent, fun tx htx => ?_⟩
  rw [htxs] at htx
  obtain ⟨e, he, rfl⟩ := List.mem_map.mp htx
  exact (hpool.entry e (hsub.subset he)).1

lemma proposal_nodup (hexact : a.toPool.Exact cfg) : ((proposal cfg a context n).txs.map cfg.txId).Nodup := by
  obtain ⟨chosen, hsub, htxs, -⟩ := proposal_selects cfg a context n
  have hids : chosen.map PoolEntry.id = (chosen.map PoolEntry.tx).map cfg.txId := by
    rw [List.map_map]
    exact List.map_congr_left fun e he => (hexact.entry e (hsub.subset he)).1
  rw [htxs, ← hids]
  exact hexact.nodup.sublist (hsub.map _)

lemma proposal_size (hpool : a.toPool.Vetted) (hexact : a.toPool.Exact (withJson cfg)) (hcontext : CtxTyped context)
    (hn : n + 1 < 2 ^ 64) : (encodeBlock (proposal (withJson cfg) a context n)).length ≤ MAX_BLOCK_BYTES := by
  obtain ⟨chosen, hsub, htxs, -, -, hbytes⟩ := proposal_selects (withJson cfg) a context n
  have hlength := encodeBlock_length_le (@proposal_typed (withJson cfg) a context n hpool hcontext hn)
    (show VERSION < 10 by decide)
  have hsum : (chosen.map fun e => (encodeTx e.tx).length + 1).sum ≤ (chosen.map fun e => e.bytes.length + 2).sum := by
    refine List.sum_le_sum fun e he => ?_
    rw [(hexact.entry e (hsub.subset he)).2]
    exact Nat.le_succ _
  rw [htxs, List.map_map] at hlength
  refine hlength.trans (le_trans ?_ hbytes)
  exact Nat.add_le_add (by decide) hsum

lemma decodeBlock_ok {bytes : Bytes} {block : Block} (hsize : bytes.length ≤ MAX_BLOCK_BYTES)
    (hparsed : cfg.parseBlock bytes = .ok block) (hversion : block.version = VERSION) (hheight : block.height ≠ 0)
    (hcount : block.txs.length ≤ MAX_BLOCK_TXS) (hchecked : cfg.checkTxs ∅ block.txs = .ok ()) :
    cfg.decodeBlock bytes = .ok block := by
  unfold Config.decodeBlock
  rw [hparsed]
  simp only [Except.mapError, require, if_pos hsize, if_pos hversion, if_pos hheight, if_pos hcount, bind, Except.bind,
    hchecked]
  rfl

lemma decodeBlock_encodeBlock {block : Block} (htyped : BlockTyped block) (hversion : block.version = VERSION)
    (hheight : block.height ≠ 0) (hcount : block.txs.length ≤ MAX_BLOCK_TXS) (hfits : ∀ tx ∈ block.txs, Fits tx)
    (hnodup : (block.txs.map (withJson cfg).txId).Nodup) (hsize : (encodeBlock block).length ≤ MAX_BLOCK_BYTES) :
    (withJson cfg).decodeBlock (encodeBlock block) = .ok block := by
  have hlength : ∀ tx ∈ block.txs, ((withJson cfg).encodeTx tx).length ≤ MAX_TX_BYTES :=
    fun tx htx => encodeTx_length_le (hfits tx htx).1 (hfits tx htx).2
  have hchecked : (withJson cfg).checkTxs ∅ block.txs = .ok () :=
    checkTxs_ok hlength (fun _ _ => Finset.notMem_empty _) hnodup
  exact decodeBlock_ok hsize (parseBlock_encodeBlock htyped) hversion hheight hcount hchecked

lemma proposal_decodes (hpool : a.toPool.Vetted) (hexact : a.toPool.Exact (withJson cfg)) (hcontext : CtxTyped context)
    (hn : n + 1 < 2 ^ 64) : (withJson cfg).decodeBlock (encodeBlock (proposal (withJson cfg) a context n)) =
      .ok (proposal (withJson cfg) a context n) := by
  obtain ⟨chosen, hsub, htxs, -, hcount, -⟩ := proposal_selects (withJson cfg) a context n
  have hlength : (proposal (withJson cfg) a context n).txs.length ≤ MAX_BLOCK_TXS := by
    rw [htxs, List.length_map]
    exact hcount
  have hfits : ∀ tx ∈ (proposal (withJson cfg) a context n).txs, Fits tx := by
    intro tx htx
    rw [htxs] at htx
    obtain ⟨e, he, rfl⟩ := List.mem_map.mp htx
    exact hpool.entry e (hsub.subset he)
  exact decodeBlock_encodeBlock (proposal_typed hpool hcontext hn) rfl (Nat.succ_ne_zero n) hlength hfits
    (proposal_nodup hexact) (proposal_size hpool hexact hcontext hn)

/-- What a validator proposes fits, decodes to itself, passes the checks of every validator that knows its parent, and
repeats no transaction, its own or those of the unapplied ancestors that its cache leads to. -/
theorem proposal_acceptable (hdigest : Function.Injective cfg.digest) {s : State} (hs : Stored (withJson cfg) s)
    {es : List Actor.Event} (hes : ∀ e ∈ es, Actor.Typed e) (hcontext : CtxTyped context) (now : Nat)
    (hrounds : (exec (Actor.step (withJson cfg)) (Actor.start s) es).blocks.length ≤ cfg.rounds)
    (hparent : (exec (Actor.step (withJson cfg)) (Actor.start s) es).parentHeight (withJson cfg) context.parent = some n)
    (hn : n + 1 < 2 ^ 64) :
    let a := exec (Actor.step (withJson cfg)) (Actor.start s) es
    ∃ block, a.onPropose (withJson cfg) context now = { a with
        blocks := Assoc.insert a.blocks (cfg.digest (encodeBlock block)) ⟨block, encodeBlock block⟩ } ∧
      (∀ b, Behind (withJson cfg) a context.parent b → ∀ tx ∈ block.txs, tx ∉ b.block.txs) ∧
      (block.txs.map (withJson cfg).txId).Nodup ∧
      (encodeBlock block).length ≤ MAX_BLOCK_BYTES ∧
      (withJson cfg).decodeBlock (encodeBlock block) = .ok block ∧
      ∀ s' es' m, Stored (withJson cfg) s' →
        (exec (Actor.step (withJson cfg)) (Actor.start s') es').parentHeight (withJson cfg) block.parent = some m →
        structural context block m = true := by
  intro a
  have hexact : a.toPool.Exact (withJson cfg) := (Actor.run_accounted (withJson cfg) s es).1
  have hpool : a.toPool.Vetted := run_vetted cfg s hes
  have hgrounded : Grounded (withJson cfg) a.toChain := run_grounded hs es
  refine ⟨proposal (withJson cfg) a context n, onPropose_eq hparent now, ?_, proposal_nodup hexact,
    proposal_size hpool hexact hcontext hn, proposal_decodes hpool hexact hcontext hn, ?_⟩
  · intro b hb tx htx hmem
    obtain ⟨chosen, hsub, htxs, hout, -⟩ := proposal_selects (withJson cfg) a context n
    rw [htxs] at htx
    obtain ⟨e, he, rfl⟩ := List.mem_map.mp htx
    have hid := (hexact.entry e (hsub.subset he)).1
    exact hout e he (hid ▸ @Behind.excluded (withJson cfg) a hrounds _ _ hb _ hmem)
  · intro s' es' m hs' hm
    obtain ⟨hnames, hgenesis⟩ := hgrounded.parentHeight hparent
    obtain ⟨hnames', hgenesis'⟩ := (run_grounded hs' es').parentHeight hm
    have hheight : m = n := by
      by_cases hid : context.parent = (withJson cfg).genesis
      · rw [hgenesis hid, hgenesis' hid]
      · exact Names.unique hdigest hid hnames' hnames
    simp [structural, proposal, hheight]

end Proposal

/-! ### A registration, and a parent whose own parent is missing -/

/-- Each byte as that many zeros behind a one. -/
def unary (bytes : Bytes) : Nat := bytes.reverse.foldr (fun b acc => (2 * acc + 1) * 2 ^ b) 0

lemma odd_mul_pow_inj {a a' b b' : Nat} (h : (2 * a + 1) * 2 ^ b = (2 * a' + 1) * 2 ^ b') : a = a' ∧ b = b' := by
  induction b generalizing b' with
  | zero =>
    cases b' with
    | zero => exact ⟨by omega, rfl⟩
    | succ b' =>
      rw [pow_succ, ← mul_assoc] at h
      omega
  | succ b ih =>
    cases b' with
    | zero =>
      rw [pow_succ, ← mul_assoc] at h
      omega
    | succ b' =>
      rw [pow_succ, pow_succ, ← mul_assoc, ← mul_assoc] at h
      obtain ⟨ha, hb⟩ := ih (Nat.eq_of_mul_eq_mul_right (by decide) h)
      exact ⟨ha, by rw [hb]⟩

lemma unary_injective : Function.Injective unary := by
  have hfold : Function.Injective (List.foldr (fun b acc => (2 * acc + 1) * 2 ^ b) 0) := by
    intro x y h
    have hpos (b acc : Nat) : 0 < (2 * acc + 1) * 2 ^ b := Nat.mul_pos (Nat.succ_pos _) (Nat.two_pow_pos b)
    induction x generalizing y with
    | nil =>
      cases y with
      | nil => rfl
      | cons b y => exact absurd h (hpos b _).ne
    | cons b x ih =>
      cases y with
      | nil => exact absurd h (hpos b _).ne'
      | cons b' y =>
        obtain ⟨hrest, rfl⟩ := odd_mul_pow_inj h
        rw [ih hrest]
  intro x y h
  exact List.reverse_injective (hfold h)

/-- A validator of one ledger. -/
def validatorConfig (digest : Bytes → Id) : Config where
  crypto := Peal.Links.sampleCrypto
  genesis := 77
  maxBlockTxs := 64
  mempoolTtl := 30000
  encodeTx := encodeTx
  parseTx := parseTx
  encodeBlock := encodeBlock
  parseBlock := parseBlock
  digest := digest
  rounds := 4

def registration : Tx := ⟨5, .register Peal.Links.sampleRegister⟩

/-- The registration enters the mempool. -/
def registrationWaits : List Actor.Event :=
  [.submit registration 5000, .admissionDone 0 (.ok true), .admission 0 1000]

lemma registration_typed : TxTyped registration := ⟨by decide, ⟨by decide, by decide, by decide, by decide⟩⟩

lemma sampleState_stored (digest : Bytes → Id) : Stored (withJson (validatorConfig digest)) Peal.Links.sampleState :=
  ⟨.inl ⟨rfl, rfl⟩, fun _ h => absurd h List.not_mem_nil⟩

theorem proposal_acceptable_sample :
    let cfg := validatorConfig unary
    let a := exec (Actor.step (withJson cfg)) (Actor.start Peal.Links.sampleState) registrationWaits
    ∃ block, a.onPropose (withJson cfg) ⟨0, 1, 77⟩ 2000 = { a with
        blocks := Assoc.insert a.blocks (cfg.digest (encodeBlock block)) ⟨block, encodeBlock block⟩ } ∧
      (∀ b, Behind (withJson cfg) a 77 b → ∀ tx ∈ block.txs, tx ∉ b.block.txs) ∧
      (block.txs.map (withJson cfg).txId).Nodup ∧
      (encodeBlock block).length ≤ MAX_BLOCK_BYTES ∧
      (withJson cfg).decodeBlock (encodeBlock block) = .ok block ∧
      ∀ s' es' m, Stored (withJson cfg) s' →
        (exec (Actor.step (withJson cfg)) (Actor.start s') es').parentHeight (withJson cfg) block.parent = some m →
        structural ⟨0, 1, 77⟩ block m = true :=
  proposal_acceptable unary_injective (sampleState_stored unary)
    (by
      intro e he
      simp only [registrationWaits, List.mem_cons, List.not_mem_nil, or_false] at he
      rcases he with rfl | rfl | rfl
      · exact registration_typed
      · trivial
      · trivial)
    ⟨by decide, by decide, by decide⟩ 2000 (Nat.zero_le _) (show _ = some 0 from rfl) (show 0 + 1 < 2 ^ 64 by decide)

/-- A block between a digest and the applied chain, whether the validator has it or not. -/
inductive Ancestor (cfg : Config) (a : Actor) : Id → Block → Prop
  | here {cur : Id} {bytes : Bytes} {b : Block} (hhead : cur ≠ a.head.digest) (hgenesis : cur ≠ cfg.genesis)
      (hdigest : cfg.digest bytes = cur) (hb : cfg.decodeBlock bytes = .ok b) : Ancestor cfg a cur b
  | further {cur : Id} {bytes : Bytes} {c b : Block} (hhead : cur ≠ a.head.digest) (hgenesis : cur ≠ cfg.genesis)
      (hdigest : cfg.digest bytes = cur) (hc : cfg.decodeBlock bytes = .ok c) (hrest : Ancestor cfg a c.parent b) :
      Ancestor cfg a cur b

/-- A digest of thirty-two bytes. -/
@[irreducible]
def rollingDigest (bytes : Bytes) : Id := bytes.foldl (fun acc b => (257 * acc + b + 1) % 256 ^ 32) 0

/-- The block with the registration, which the validator never gets. -/
def missingBlock : Block := ⟨VERSION, 0, 1, 1, 77, [registration]⟩

def parentBlock : Block := ⟨VERSION, 0, 2, 2, rollingDigest (encodeBlock missingBlock), []⟩

/-- The mempool has the registration and the cache the parent to build on, but not the block before it. -/
def parentArrives : List Actor.Event := registrationWaits ++ [.block (encodeBlock parentBlock) 1100]

lemma rollingDigest_lt (bytes : Bytes) : rollingDigest bytes < 256 ^ 32 := by
  have hfold (acc : Nat) (h : acc < 256 ^ 32) :
      bytes.foldl (fun acc b => (257 * acc + b + 1) % 256 ^ 32) acc < 256 ^ 32 := by
    induction bytes generalizing acc with
    | nil => exact h
    | cons b bytes ih => exact ih _ (Nat.mod_lt _ (by decide))
  unfold rollingDigest
  exact hfold 0 (by decide)

lemma missingBlock_decodes :
    (withJson (validatorConfig rollingDigest)).decodeBlock (encodeBlock missingBlock) = .ok missingBlock := by
  have htyped : BlockTyped missingBlock :=
    ⟨by decide, by decide, by decide, by decide, by decide, List.forall_mem_singleton.mpr registration_typed⟩
  have hfits : Fits registration := ⟨registration_typed, trivial⟩
  have hsize := encodeBlock_length_le htyped (by decide)
  have htx := encodeTx_length_le hfits.1 hfits.2
  refine decodeBlock_encodeBlock htyped rfl (by decide) (by decide) (List.forall_mem_singleton.mpr hfits)
    (List.nodup_singleton _) (hsize.trans ?_)
  rw [missingBlock, List.map_cons, List.map_nil, List.sum_cons, List.sum_nil]
  unfold MAX_TX_BYTES at htx
  unfold MAX_BLOCK_BYTES
  omega

lemma parentBlock_decodes :
    (withJson (validatorConfig rollingDigest)).decodeBlock (encodeBlock parentBlock) = .ok parentBlock := by
  have htyped : BlockTyped parentBlock :=
    ⟨by decide, by decide, by decide, by decide, rollingDigest_lt _, fun _ h => absurd h List.not_mem_nil⟩
  exact decodeBlock_encodeBlock htyped rfl (by decide) (by decide) (fun _ h => absurd h List.not_mem_nil)
    List.nodup_nil ((encodeBlock_length_le htyped (by decide)).trans (by decide))

lemma parentArrives_leaves :
    let cfg := withJson (validatorConfig rollingDigest)
    let a := exec (Actor.step cfg) (Actor.start Peal.Links.sampleState) parentArrives
    let context : Ctx := ⟨0, 3, rollingDigest (encodeBlock parentBlock)⟩
    a.blocks.length ≤ 4 ∧ a.parentHeight cfg context.parent = some 2 ∧ a.head.digest = 77 ∧
      rollingDigest (encodeBlock parentBlock) ≠ 77 ∧ rollingDigest (encodeBlock missingBlock) ≠ 77 ∧
      registration ∈ (proposal cfg a context 2).txs := by
  decide +kernel

/-- A proposal repeats the transaction of an unapplied ancestor that the validator does not have. -/
theorem ancestor_repeated :
    ¬∀ (cfg : Config) (s : State) (es : List Actor.Event) (context : Ctx),
      Stored (withJson cfg) s → (∀ e ∈ es, Actor.Typed e) → CtxTyped context →
      let a := exec (Actor.step (withJson cfg)) (Actor.start s) es
      a.blocks.length ≤ cfg.rounds → ∀ n, a.parentHeight (withJson cfg) context.parent = some n →
        ∀ b, Ancestor (withJson cfg) a context.parent b →
          ∀ tx ∈ (proposal (withJson cfg) a context n).txs, tx ∉ b.txs := by
  intro hclaim
  have htyped : ∀ e ∈ parentArrives, Actor.Typed e := by
    intro e he
    simp only [parentArrives, registrationWaits, List.cons_append, List.nil_append, List.mem_cons, List.not_mem_nil,
      or_false] at he
    rcases he with rfl | rfl | rfl | rfl
    · exact registration_typed
    · trivial
    · trivial
    · trivial
  obtain ⟨hlength, hparent, hhead, hne, hne', hproposed⟩ := parentArrives_leaves
  have hmissing : Ancestor (withJson (validatorConfig rollingDigest))
      (exec (Actor.step (withJson (validatorConfig rollingDigest))) (Actor.start Peal.Links.sampleState) parentArrives)
      (rollingDigest (encodeBlock parentBlock)) missingBlock :=
    .further (hhead ▸ hne) hne rfl parentBlock_decodes (.here (hhead ▸ hne') hne' rfl missingBlock_decodes)
  exact hclaim (validatorConfig rollingDigest) Peal.Links.sampleState parentArrives
    ⟨0, 3, rollingDigest (encodeBlock parentBlock)⟩ (sampleState_stored rollingDigest) htyped
    ⟨by decide, by decide, rollingDigest_lt _⟩ hlength 2 hparent missingBlock hmissing registration hproposed
    (List.mem_singleton_self _)

end Peal.Consensus
