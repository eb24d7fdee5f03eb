import Peal.Library.Assoc
import Peal.Links.Blocks
import Mathlib.Data.Finset.Dedup

namespace Peal.Consensus
open Peal.Fallible Peal.Runs
open Peal.Links (Crypto Bytes Id Tx Block Head State Applied Error MintEnvelope)

/-! # The consensus actor of a validator

Its mempool, its cache of blocks and its queue of finalized ones, with the tasks it has under way. Votes, proposals as
they go out, network messages and gathers change nothing here. -/

/-! Times are in milliseconds. -/

def REQUEST_RETRY : Nat := 500
def BLOCK_CACHE_BEHIND : Nat := 64
def BLOCK_WINDOW_AHEAD : Nat := 256
def MAX_BLOCK_CACHE : Nat := 4096
def MAX_MEMPOOL_TXS : Nat := 4096
def MAX_MEMPOOL_BYTES : Nat := 32 * 1024 * 1024
def MAX_ADMISSIONS_IN_FLIGHT : Nat := 64
def WAIT_TTL : Nat := 10000
def VERSION : Nat := 1
def MAX_TX_BYTES : Nat := 16 * 1024
def MAX_BLOCK_TXS : Nat := 128
def MAX_BLOCK_BYTES : Nat := 900 * 1024

/-- JSON and SHA-256 are those of the libraries. `rounds` is how often the loops that follow blocks to their parents are
let go round. -/
structure Config where
  crypto : Crypto
  genesis : Id
  maxBlockTxs : Nat
  mempoolTtl : Nat
  encodeTx : Tx → Bytes
  parseTx : Bytes → Except String Tx
  encodeBlock : Block → Bytes
  parseBlock : Bytes → Except String Block
  digest : Bytes → Id
  rounds : Nat

namespace Config

variable (cfg : Config)

def txId (tx : Tx) : Id := cfg.digest (cfg.encodeTx tx)

def decodeTx (bytes : Bytes) : Except String Tx := do
  require (bytes.length ≤ MAX_TX_BYTES) "transaction too large"
  (cfg.parseTx bytes).mapError fun e => s!"transaction: {e}"

/-- No transaction of a block is too large or there twice. -/
def checkTxs : Finset Id → List Tx → Except String Unit
  | _, [] => return
  | seen, tx :: txs => do
    require ((cfg.encodeTx tx).length ≤ MAX_TX_BYTES) "transaction too large"
    require (cfg.txId tx ∉ seen) "duplicate transaction in block"
    checkTxs (insert (cfg.txId tx) seen) txs

def decodeBlock (bytes : Bytes) : Except String Block := do
  require (bytes.length ≤ MAX_BLOCK_BYTES) "block too large"
  let block ← (cfg.parseBlock bytes).mapError fun e => s!"block: {e}"
  require (block.version = VERSION) s!"unsupported block version {block.version}"
  require (block.height ≠ 0) "block height must be positive"
  require (block.txs.length ≤ MAX_BLOCK_TXS) "too many transactions in block"
  cfg.checkTxs ∅ block.txs
  return block

lemma decodeBlock_parsed {bytes : Bytes} {block : Block} (h : cfg.decodeBlock bytes = .ok block) :
    cfg.parseBlock bytes = .ok block := by
  unfold decodeBlock at h
  simp only [bind_eq_ok, pure_eq_ok] at h
  obtain ⟨-, -, parsed, hparsed, -, -, -, -, -, -, -, -, rfl⟩ := h
  cases hp : cfg.parseBlock bytes with
  | error e => rw [hp] at hparsed; cases hparsed
  | ok b => rw [hp] at hparsed; exact hparsed

end Config

/-- What the errors of the ledger say. -/
def display : Error → String
  | .wire reason => s!"wire format error: {reason}"
  | .nonCanonicalField => "non-canonical field element"
  | .invalidPoint => "invalid group element (off curve or off subgroup)"
  | .invalidProof => "proof does not verify"
  | .unknownAccount => "account is not registered"
  | .accountExists => "account is already registered"
  | .staleCommitment => "stale account commitment: the account moved since this proof was made"
  | .rootNotRecent => "revealed receipt root is not within the recent-root window"
  | .receiptLogFull => "receipt log is full"
  | .wrongNamespace => "wrong namespace"
  | .badSignature => "bad signature"
  | .wallet reason => s!"wallet state error: {reason}"
  | .storage reason => s!"storage error: {reason}"

structure Cached where
  block : Block
  bytes : Bytes
  deriving DecidableEq, Repr

structure Ctx where
  epoch : Nat
  view : Nat
  parent : Id
  deriving DecidableEq, Repr

structure PoolEntry where
  id : Id
  tx : Tx
  bytes : Bytes
  added : Nat
  deriving DecidableEq, Repr

/-- A submitter's channel, by the number of its submission, and its deadline. -/
structure Waiter where
  reply : Nat
  expires : Nat
  deriving DecidableEq, Repr

structure Admission where
  tx : Tx
  waiter : Option (Nat × Nat)
  gossip : Bool
  deriving DecidableEq, Repr

abbrev Outcome := Except Error Applied

/-- The mempool and the submitters who wait for it. `admitting` are the admission tasks under way and `admissions` the
messages they have left; `answers` are the replies sent and `submitted` how many submissions there have been. -/
structure Pool where
  mempool : List PoolEntry
  mempoolIds : Finset Id
  mempoolBytes : Nat
  admissionsInFlight : Nat
  waiters : List (Id × Waiter)
  admitting : List Admission
  admissions : List (Option Admission)
  submitted : Nat
  answers : List (Nat × Outcome)

/-- The applied chain and what is finalized of it. `tasks` are the applications under way, `completions` the messages
they have left, and `calls` the blocks handed to `apply_block` so far, each with whether it was stored. -/
structure Chain where
  state : State
  head : Head
  blocks : List (Id × Cached)
  applying : Bool
  finalizedKnown : List (Nat × Id)
  finalizedUnknown : Finset Id
  tasks : List (Id × Cached)
  completions : List (Id × Cached × Except String (List Outcome))
  calls : List (Cached × Bool)

/-- What waits for blocks that are not here. -/
structure Sync where
  verifyWaiters : Id → List Ctx
  parentWaiters : Id → List Id
  requested : Id → Option Nat
  waitingSince : Id → Option Nat

structure Actor extends Pool, Chain, Sync

variable (cfg : Config)

/-! ### The mempool -/

namespace Pool

def reply (p : Pool) (waiter : Option (Nat × Nat)) (r : Outcome) : Pool :=
  { p with answers := p.answers ++ waiter.toList.map fun w => (w.1, r) }

def removeFromMempool (p : Pool) (id : Id) : Pool :=
  if id ∈ p.mempoolIds then
    match p.mempool.find? fun e => e.id = id with
    | some e => { p with
        mempoolIds := p.mempoolIds.erase id
        mempool := p.mempool.eraseP fun e => e.id = id
        mempoolBytes := p.mempoolBytes - e.bytes.length }
    | none => { p with mempoolIds := p.mempoolIds.erase id }
  else p

/-- Every waiter of the transaction is answered and forgotten. -/
def answerWaiters (p : Pool) (id : Id) (answer : List Waiter → List (Nat × Outcome)) : Pool :=
  { p with
    waiters := p.waiters.filter fun w => w.1 ≠ id
    answers := p.answers ++ answer ((p.waiters.filter fun w => w.1 = id).map Prod.snd) }

/-- One answer for all. -/
def same (r : Outcome) (waiters : List Waiter) : List (Nat × Outcome) := waiters.map fun w => (w.reply, r)

def admitTx (p : Pool) (tx : Tx) (waiter : Option (Nat × Nat)) (gossip : Bool) : Pool :=
  if MAX_ADMISSIONS_IN_FLIGHT ≤ p.admissionsInFlight then
    p.reply waiter (.error (.storage "validator is busy admitting operations; retry"))
  else if MAX_MEMPOOL_TXS ≤ p.mempool.length then
    p.reply waiter (.error (.storage "mempool is full; retry"))
  else { p with
    admissionsInFlight := p.admissionsInFlight + 1
    admitting := p.admitting ++ [⟨tx, waiter, gossip⟩] }

def onSubmit (p : Pool) (tx : Tx) (timeout : Nat) : Pool :=
  { p with submitted := p.submitted + 1 }.admitTx tx (some (p.submitted, timeout)) true

def onPeerTx (p : Pool) (bytes : Bytes) : Pool :=
  match cfg.decodeTx bytes with
  | .ok tx => if cfg.txId tx ∈ p.mempoolIds then p else p.admitTx tx none false
  | .error _ => p

/-- What an admission task finds: the checks of the state, and for a mint the validator's own view of the deposit. -/
def checkAdmission (s : State) (tx : Tx) (confirmed : Except String Bool) : Except Error Unit := do
  s.checkTx cfg.crypto tx
  match tx.envelope, confirmed with
  | .mint _, .ok true => return
  | .mint _, .ok false => .error (.storage "deposit is not confirmed on this validator's chain view")
  | .mint _, .error e => .error (.storage s!"chain unreachable while confirming the deposit: {e}")
  | _, _ => return

/-- The `i`-th admission task ends. -/
def admissionDone (p : Pool) (s : State) (i : Nat) (confirmed : Except String Bool) : Pool :=
  match p.admitting[i]? with
  | none => p
  | some a =>
    match checkAdmission cfg s a.tx confirmed with
    | .ok () => { p with admitting := p.admitting.eraseIdx i, admissions := p.admissions ++ [some a] }
    | .error e => { p with admitting := p.admitting.eraseIdx i, admissions := p.admissions ++ [none] }.reply a.waiter (.error e)

/-- A submitter starts to wait. -/
def register (p : Pool) (id : Id) (waiter : Option (Nat × Nat)) (now : Nat) : Pool :=
  { p with waiters := p.waiters ++ waiter.toList.map fun w => (id, ⟨w.1, now + w.2⟩) }

def onAdmitted (p : Pool) (a : Admission) (now : Nat) : Pool :=
  let id := cfg.txId a.tx
  let p := p.register id a.waiter now
  if id ∈ p.mempoolIds then p
  else
    let bytes := cfg.encodeTx a.tx
    if MAX_MEMPOOL_TXS ≤ p.mempool.length ∨ MAX_MEMPOOL_BYTES < p.mempoolBytes + bytes.length then
      p.answerWaiters id (same (.error (.storage "mempool is full; retry")))
    else { p with
      mempoolIds := insert id p.mempoolIds
      mempoolBytes := p.mempoolBytes + bytes.length
      mempool := p.mempool ++ [⟨id, a.tx, bytes, now⟩] }

/-- The `i`-th message of an admission task. -/
def onAdmission (p : Pool) (i now : Nat) : Pool :=
  match p.admissions[i]? with
  | none => p
  | some admitted =>
    let p := { p with admissions := p.admissions.eraseIdx i, admissionsInFlight := p.admissionsInFlight - 1 }
    match admitted with
    | some a => p.onAdmitted cfg a now
    | none => p

/-- A transaction that has waited too long is dropped, and its submitters are told. -/
def expire (p : Pool) (id : Id) : Pool :=
  (p.removeFromMempool id).answerWaiters id
    (same (.error (.storage "consensus did not include the operation in time")))

def onTick (p : Pool) (now : Nat) : Pool :=
  let expired := (p.mempool.filter fun e => cfg.mempoolTtl < now - e.added).map PoolEntry.id
  let p := expired.foldl expire p
  { p with
    waiters := p.waiters.filter fun w => now < w.2.expires
    answers := p.answers ++ same (.error (.storage "consensus did not finalize the operation in time"))
      ((p.waiters.filter fun w => w.2.expires ≤ now).map Prod.snd) }

/-- The answers to a transaction's waiters: the later ones get a copy of the first one's. -/
def resultAnswers (r : Outcome) : List Waiter → List (Nat × Outcome)
  | [] => []
  | first :: rest => same (r.mapError fun e => .storage (display e)) rest ++ [(first.reply, r)]

/-- The transactions of an applied block leave the mempool and their submitters get their results. -/
def settle (p : Pool) (txs : List Tx) (results : List Outcome) : Pool :=
  (txs.zip results).foldl (fun p x =>
    (p.removeFromMempool (cfg.txId x.1)).answerWaiters (cfg.txId x.1) (resultAnswers x.2)) p

end Pool

/-! ### Blocks -/

namespace Actor

def request (a : Actor) (id : Id) (now : Nat) : Actor :=
  if (a.requested id).any fun t => now - t < REQUEST_RETRY then a
  else { a with requested := Function.update a.requested id (some now) }

def parentHeight (a : Actor) (parent : Id) : Option Nat :=
  if parent = cfg.genesis then some 0
  else if parent = a.head.digest then some a.head.height
  else match Assoc.get a.blocks parent with
    | some b => some b.block.height
    | none => (Assoc.get a.state.blocks parent).map Block.height

/-- The transactions of the blocks between a parent and the applied chain. -/
def excluded (a : Actor) : Nat → Id → Finset Id
  | 0, _ => ∅
  | rounds + 1, cur =>
    if cur = a.head.digest ∨ cur = cfg.genesis then ∅
    else match Assoc.get a.blocks cur with
      | some b => (b.block.txs.map cfg.txId).toFinset ∪ excluded a rounds b.block.parent
      | none => ∅

/-- The transactions of a proposal, in mempool order, as long as they fit. -/
def select (maxTxs : Nat) (excluded : Finset Id) : List PoolEntry → Nat → List Tx → List Tx
  | [], _, txs => txs
  | e :: rest, size, txs =>
    if maxTxs ≤ txs.length then txs
    else if e.id ∈ excluded then select maxTxs excluded rest size txs
    else if MAX_BLOCK_BYTES < size + (e.bytes.length + 2) then txs
    else select maxTxs excluded rest (size + (e.bytes.length + 2)) (txs ++ [e.tx])

def onPropose (a : Actor) (context : Ctx) (now : Nat) : Actor :=
  match a.parentHeight cfg context.parent with
  | none => a.request context.parent now
  | some parentHeight =>
    let txs := select (min cfg.maxBlockTxs MAX_BLOCK_TXS) (a.excluded cfg cfg.rounds context.parent) a.mempool 256 []
    let block : Block := ⟨VERSION, context.epoch, context.view, parentHeight + 1, context.parent, txs⟩
    let bytes := cfg.encodeBlock block
    { a with blocks := Assoc.insert a.blocks (cfg.digest bytes) ⟨block, bytes⟩ }

/-- `entry(id).or_insert(now)`. -/
def since (a : Actor) (id : Id) (now : Nat) : Actor :=
  { a with waitingSince := Function.update a.waitingSince id ((a.waitingSince id).orElse fun _ => some now) }

/-- What `on_verify` leaves; a block that is here with its parent is put to the vote, which changes nothing here. -/
def onVerify (a : Actor) (context : Ctx) (id : Id) (now : Nat) : Actor :=
  let waiting := { a with verifyWaiters := Function.update a.verifyWaiters id (a.verifyWaiters id ++ [context]) }
  match Assoc.get a.blocks id with
  | none => (waiting.since id now).request id now
  | some cached =>
    match a.parentHeight cfg cached.block.parent with
    | some _ => a
    | none =>
      let parent := cached.block.parent
      let a := (waiting.since parent now).since id now
      { a with parentWaiters := Function.update a.parentWaiters parent (a.parentWaiters parent ++ [id]) }.request parent now

/-- The votes that waited for a block are taken up again. -/
def retry (a : Actor) (id : Id) (now : Nat) : Actor :=
  (a.verifyWaiters id).foldl (fun a context => a.onVerify cfg context id now)
    { a with verifyWaiters := Function.update a.verifyWaiters id [] }

/-! ### Finalization -/

def markKnown (a : Actor) (height : Nat) (id : Id) : Actor :=
  { a with finalizedKnown := Assoc.insertSorted a.finalizedKnown height id }

def forgetKnown (a : Actor) (height : Nat) : Actor :=
  { a with finalizedKnown := Assoc.erase a.finalizedKnown height }

/-- From a finalized block down to the head: every known ancestor is marked finalized, the first unknown one is asked
for. The flag tells whether any was new. -/
def walk (now : Nat) : Nat → Id → Bool → Actor → Bool × Actor
  | 0, _, progressed, a => (progressed, a)
  | rounds + 1, cur, progressed, a =>
    match Assoc.get a.blocks cur with
    | none => (progressed, a.request cur now)
    | some b =>
      if b.block.height ≤ a.head.height + 1 then
        if b.block.height = a.head.height + 1 then
          (progressed || (Assoc.get a.finalizedKnown b.block.height).isNone, a.markKnown b.block.height cur)
        else (progressed, a)
      else
        walk now rounds b.block.parent (progressed || (Assoc.get a.finalizedKnown (b.block.height - 1)).isNone)
          (a.markKnown (b.block.height - 1) b.block.parent)

def drain (now : Nat) : Nat → Actor → Actor
  | 0, a => a
  | rounds + 1, a =>
    match a.finalizedKnown.head? with
    | none => a
    | some (height, id) =>
      if height ≤ a.head.height then drain now rounds (a.forgetKnown height)
      else if height = a.head.height + 1 then
        match Assoc.get a.blocks id with
        | none => a.request id now
        | some cached =>
          if cached.block.parent ≠ a.head.digest then drain now rounds (a.forgetKnown height)
          else if a.applying then a
          else { a with applying := true, tasks := a.tasks ++ [(id, cached)] }
      else
        match walk now cfg.rounds id false a with
        | (true, a) => drain now rounds a
        | (false, a) => a

def drainFinalized (a : Actor) (now : Nat) : Actor := drain cfg now cfg.rounds a

def onFinalized (a : Actor) (id : Id) (now : Nat) : Actor :=
  if id = cfg.genesis then a
  else
    let a := match Assoc.get a.blocks id with
      | some b => a.markKnown b.block.height id
      | none =>
        if id ∈ a.finalizedUnknown then a
        else { a with finalizedUnknown := insert id a.finalizedUnknown }.request id now
    a.drainFinalized cfg now

/-- A block that was finalized before it came is marked at its height. -/
def recognize (a : Actor) (id : Id) : Actor :=
  if id ∈ a.finalizedUnknown then
    let a := { a with finalizedUnknown := a.finalizedUnknown.erase id }
    match Assoc.get a.blocks id with
    | some b => a.markKnown b.block.height id
    | none => a
  else a

/-- Whatever waited for a block is taken up again. -/
def wake (a : Actor) (id : Id) (now : Nat) : Actor :=
  let a := { a with
    requested := Function.update a.requested id none
    waitingSince := Function.update a.waitingSince id none }
  let a := a.retry cfg id now
  (a.parentWaiters id).foldl (fun a child => a.retry cfg child now)
    { a with parentWaiters := Function.update a.parentWaiters id [] }

def onBlockAvailable (a : Actor) (id : Id) (now : Nat) : Actor :=
  ((a.wake cfg id now).recognize id).drainFinalized cfg now

def wantsBlock (a : Actor) (id : Id) (height : Nat) : Bool :=
  (a.requested id).isSome || !(a.verifyWaiters id).isEmpty || id ∈ a.finalizedUnknown ||
    (a.head.height < height && height ≤ a.head.height + BLOCK_WINDOW_AHEAD && a.blocks.length < MAX_BLOCK_CACHE)

/-- A block from a peer, hashed as it came. -/
def onBlock (a : Actor) (raw : Bytes) (now : Nat) : Actor :=
  let id := cfg.digest raw
  if (Assoc.get a.blocks id).isSome then a
  else match cfg.decodeBlock raw with
    | .ok block =>
      if a.wantsBlock id block.height then
        { a with blocks := Assoc.insert a.blocks id ⟨block, raw⟩ }.onBlockAvailable cfg id now
      else a
    | .error _ => a

/-- The `i`-th application task runs: `apply_block` under the state's lock. The ledgers keep their own stores; the block
and the head are written after them, if `stored`. -/
def runTask (a : Actor) (i : Nat) (stored : Bool) : Actor :=
  match a.tasks[i]? with
  | none => a
  | some (id, cached) =>
    let a := { a with tasks := a.tasks.eraseIdx i, calls := a.calls ++ [(cached, stored)] }
    match a.state.applyBlock cfg.crypto cached.block id with
    | .error e => { a with completions := a.completions ++ [(id, cached, .error e)] }
    | .ok (state, results) =>
      if stored then { a with state, completions := a.completions ++ [(id, cached, .ok results)] }
      else { a with
        state := { a.state with ledgers := state.ledgers }
        completions := a.completions ++ [(id, cached, .error "block store")] }

def pruneBlocks (a : Actor) : Actor :=
  let floor := a.head.height - BLOCK_CACHE_BEHIND
  let kept := a.blocks.filter fun e => floor ≤ e.2.block.height
  { a with blocks := if MAX_BLOCK_CACHE < kept.length then kept.filter fun e => a.head.height < e.2.block.height else kept }

def onApplied (a : Actor) (cached : Cached) (results : Except String (List Outcome)) (now : Nat) : Actor :=
  let a := { a with applying := false }.forgetKnown cached.block.height
  let a := match results with
    | .error _ => a
    | .ok results => { a with head := a.state.head, toPool := a.toPool.settle cfg cached.block.txs results }.pruneBlocks
  a.drainFinalized cfg now

/-- The `i`-th message of an application task. -/
def onCompletion (a : Actor) (i now : Nat) : Actor :=
  match a.completions[i]? with
  | none => a
  | some (_, cached, results) => { a with completions := a.completions.eraseIdx i }.onApplied cfg cached results now

/-- Whatever nobody supplied is given up on, unless it is known to be finalized, and the rest is asked for again. -/
def refresh (a : Actor) (now : Nat) : Actor :=
  let stale id := (a.waitingSince id).any fun t => WAIT_TTL < now - t
  let a := { a with
    waitingSince := fun id => if stale id then none else a.waitingSince id
    verifyWaiters := fun id => if stale id then [] else a.verifyWaiters id
    parentWaiters := fun id => if stale id then [] else a.parentWaiters id
    requested := fun id => if stale id ∧ id ∉ a.finalizedUnknown then none else a.requested id }
  let wanted id := (a.verifyWaiters id ≠ [] ∨ a.parentWaiters id ≠ [] ∨ id ∈ a.finalizedUnknown) ∧
    (Assoc.get a.blocks id).isNone
  { a with requested := fun id =>
      if wanted id ∧ ¬(a.requested id).any fun t => now - t < REQUEST_RETRY then some now else a.requested id }

def onTick (a : Actor) (now : Nat) : Actor := { a with toPool := a.toPool.onTick cfg now }.refresh now

/-! ### The system -/

/-- A validator that starts over its stored state. -/
def start (s : State) : Actor where
  mempool := []
  mempoolIds := ∅
  mempoolBytes := 0
  admissionsInFlight := 0
  waiters := []
  admitting := []
  admissions := []
  submitted := 0
  answers := []
  state := s
  head := s.head
  blocks := []
  applying := false
  finalizedKnown := []
  finalizedUnknown := ∅
  tasks := []
  completions := []
  calls := []
  verifyWaiters _ := []
  parentWaiters _ := []
  requested _ := none
  waitingSince _ := none

/-- The messages the actor handles and the ends of its tasks, each with the clock where it is read. -/
inductive Event where
  | propose (context : Ctx) (now : Nat)
  | proposeNow (context : Ctx) (now : Nat)
  | verify (context : Ctx) (id : Id) (now : Nat)
  | finalized (id : Id) (now : Nat)
  | block (raw : Bytes) (now : Nat)
  | submit (tx : Tx) (timeout : Nat)
  | peerTx (bytes : Bytes)
  | admissionDone (i : Nat) (confirmed : Except String Bool)
  | admission (i now : Nat)
  | runTask (i : Nat) (stored : Bool)
  | applied (i now : Nat)
  | drop (id : Id)
  | tick (now : Nat)

def step (a : Actor) : Event → Except Empty Actor
  | .propose context now => .ok (if a.mempool = [] then a else a.onPropose cfg context now)
  | .proposeNow context now => .ok (a.onPropose cfg context now)
  | .verify context id now => .ok (a.onVerify cfg context id now)
  | .finalized id now => .ok (a.onFinalized cfg id now)
  | .block raw now => .ok (a.onBlock cfg raw now)
  | .submit tx timeout => .ok { a with toPool := a.toPool.onSubmit tx timeout }
  | .peerTx bytes => .ok { a with toPool := a.toPool.onPeerTx cfg bytes }
  | .admissionDone i confirmed => .ok { a with toPool := a.toPool.admissionDone cfg a.state i confirmed }
  | .admission i now => .ok { a with toPool := a.toPool.onAdmission cfg i now }
  | .runTask i stored => .ok (a.runTask cfg i stored)
  | .applied i now => .ok (a.onCompletion cfg i now)
  | .drop id => .ok { a with toPool := a.toPool.removeFromMempool id }
  | .tick now => .ok (a.onTick cfg now)

/-! ### What the handlers leave alone -/

variable {cfg}

section Frame

variable (a : Actor) (id : Id) (now : Nat)

lemma request_frame : (a.request id now).toPool = a.toPool ∧ (a.request id now).toChain = a.toChain := by
  unfold request
  split_ifs <;> exact ⟨rfl, rfl⟩

@[simp] lemma request_toPool : (a.request id now).toPool = a.toPool := (a.request_frame id now).1

@[simp] lemma request_toChain : (a.request id now).toChain = a.toChain := (a.request_frame id now).2

lemma onVerify_frame (context : Ctx) :
    (a.onVerify cfg context id now).toPool = a.toPool ∧ (a.onVerify cfg context id now).toChain = a.toChain := by
  unfold onVerify
  dsimp only
  split
  · exact ⟨request_toPool .., request_toChain ..⟩
  · split
    · exact ⟨rfl, rfl⟩
    · exact ⟨request_toPool .., request_toChain ..⟩

lemma foldl_frame {β : Type} {f : Actor → β → Actor}
    (h : ∀ a b, (f a b).toPool = a.toPool ∧ (f a b).toChain = a.toChain) (bs : List β) :
    (bs.foldl f a).toPool = a.toPool ∧ (bs.foldl f a).toChain = a.toChain := by
  induction bs generalizing a with
  | nil => exact ⟨rfl, rfl⟩
  | cons b bs ih =>
    obtain ⟨hpool, hchain⟩ := h a b
    rw [List.foldl_cons, ← hpool, ← hchain]
    exact ih (f a b)

variable (cfg) in
lemma retry_frame : (a.retry cfg id now).toPool = a.toPool ∧ (a.retry cfg id now).toChain = a.toChain :=
  foldl_frame _ (fun a context => a.onVerify_frame id now context) _

lemma wake_frame : (a.wake cfg id now).toPool = a.toPool ∧ (a.wake cfg id now).toChain = a.toChain := by
  obtain ⟨hpool, hchain⟩ := retry_frame cfg { a with
    requested := Function.update a.requested id none
    waitingSince := Function.update a.waitingSince id none } id now
  obtain ⟨hpool', hchain'⟩ := foldl_frame _ (fun a child => a.retry_frame cfg child now) _
  exact ⟨hpool'.trans hpool, hchain'.trans hchain⟩

@[simp] lemma wake_toPool : (a.wake cfg id now).toPool = a.toPool := (a.wake_frame id now).1

@[simp] lemma wake_toChain : (a.wake cfg id now).toChain = a.toChain := (a.wake_frame id now).2

lemma walk_toPool (rounds : Nat) (progressed : Bool) : (walk now rounds id progressed a).2.toPool = a.toPool := by
  induction rounds generalizing id progressed a with
  | zero => rfl
  | succ rounds ih =>
    rw [walk]
    split
    · exact request_toPool ..
    · split_ifs
      · rfl
      · rfl
      · exact ih _ _ _

lemma drain_toPool (rounds : Nat) : (drain cfg now rounds a).toPool = a.toPool := by
  induction rounds generalizing a with
  | zero => rfl
  | succ rounds ih =>
    rw [drain]
    split
    · rfl
    · next height id _ =>
      split
      · exact ih _
      · split
        · split
          · exact request_toPool ..
          · split
            · exact ih _
            · split <;> rfl
        · have hwalk := walk_toPool a id now cfg.rounds false
          split <;> next b heq =>
            rw [heq] at hwalk
            first | exact (ih b).trans hwalk | exact hwalk

lemma onFinalized_toPool : (a.onFinalized cfg id now).toPool = a.toPool := by
  unfold onFinalized
  split
  · rfl
  · dsimp only
    rw [drainFinalized, drain_toPool]
    split
    · rfl
    · split
      · rfl
      · exact request_toPool ..

lemma recognize_toPool : (a.recognize id).toPool = a.toPool := by
  unfold recognize
  split_ifs
  · dsimp only
    split <;> rfl
  · rfl

lemma onBlock_toPool (raw : Bytes) : (a.onBlock cfg raw now).toPool = a.toPool := by
  unfold onBlock
  dsimp only
  split_ifs
  · rfl
  · split
    · split_ifs
      · rw [onBlockAvailable, drainFinalized, drain_toPool, recognize_toPool, wake_toPool]
      · rfl
    · rfl

lemma onPropose_toPool (context : Ctx) : (a.onPropose cfg context now).toPool = a.toPool := by
  unfold onPropose
  split
  · exact request_toPool ..
  · rfl

lemma runTask_toPool (i : Nat) (stored : Bool) : (a.runTask cfg i stored).toPool = a.toPool := by
  unfold runTask
  split
  · rfl
  · dsimp only
    split
    · rfl
    · split_ifs <;> rfl

end Frame

end Actor

end Peal.Consensus
