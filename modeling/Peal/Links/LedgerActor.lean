import Peal.Library.Linearizable
import Peal.Library.Runs
import Peal.Links.ReceiptTree
import Peal.Links.Replay

namespace Peal.Links.LedgerActor
open Peal.Fallible Peal.Methods Peal.Runs Peal.Linearizable
open OpenLedger (Trusted During screen member verifies)

/-! # One thread that owns a ledger and gathers operations into batches -/

inductive Command where
  | apply (env : OpEnvelope)
  | register (env : RegisterEnvelope)
  | mint (env : MintEnvelope)
  | account (id : Fr)
  | summary
  | path (pos : Nat) (size : Option Nat)
  | history (start limit : Nat)
  deriving DecidableEq, Repr

structure Summary where
  namespaceId : Namespace
  seq : Nat
  receiptCount : Nat
  receiptRoot : Fr
  stateRoot : Nat
  recentRoots : List Fr
  mintedTotal : Nat
  deriving DecidableEq, Repr

structure PathOut where
  position : Nat
  size : Nat
  root : Fr
  leaf : Fr
  path : MerklePath
  deriving DecidableEq, Repr

inductive Reply where
  | applied (result : Except Error Applied)
  | account (view : Option AccountView)
  | summary (out : Summary)
  | path (result : Except Error PathOut)
  | history (rows : List OpRow)
  deriving DecidableEq

section Commands

variable (c : Crypto)

def summary (o : OpenLedger) : Summary where
  namespaceId := o.cfg.namespaceId
  seq := o.seq
  receiptCount := o.tree.size
  receiptRoot := o.tree.root c
  stateRoot := o.stateRoot
  recentRoots := o.recent
  mintedTotal := (o.conn.reads.deposits.map DepositRow.amount).sum

def path (o : OpenLedger) (pos : Nat) (size : Option Nat) : Except Error PathOut := do
  let size := size.getD o.tree.size
  let p ← o.tree.pathAt c pos size
  let root ← o.tree.rootAt c size
  let leaf ← expect o.tree.leaves[pos]? (.wallet "path_at checked the position")
  return ⟨pos, size, root, leaf, p⟩

/-- One command on the ledger. -/
def handle (o : OpenLedger) (fault : OpenLedger.Fault) : Command → Reply × OpenLedger
  | .apply env => let out := outcome (OpenLedger.apply c env fault) o; (.applied out.1, out.2)
  | .register env => let out := outcome (OpenLedger.register c env fault) o; (.applied out.1, out.2)
  | .mint env => let out := outcome (OpenLedger.mint c env fault) o; (.applied out.1, out.2)
  | .account id => (.account (o.account id), o)
  | .summary => (.summary (summary c o), o)
  | .path pos size => (.path (path c o pos size), o)
  | .history start limit => (.history (o.history start (min limit 500)), o)

end Commands

/-! ### The actor -/

/-- Between batches the actor works off what it has set aside: the replies of commands done, and commands to do. -/
inductive Phase where
  | gathering (batch : List (Nat × OpEnvelope)) (deferred : List (Nat × Command))
  | serving (results : List (Nat × Reply)) (deferred : List (Nat × Command))

structure Actor where
  ledger : OpenLedger
  queue : List (Nat × Command)
  phase : Phase
  next : Nat
  seen : List (Observed Command Reply)

/-- A client sends a command; the actor receives one, ends its gathering, handles a deferred command or replies. -/
inductive Event where
  | send (cmd : Command)
  | receive
  | close (coins : Nat)
  | handle
  | reply

variable (c : Crypto) (batchVerify : Nat → List (Nat × List Fr) → Bool) (storage : Nat → OpenLedger.Fault) (max : Nat)

/-- `storage` tells at which statement the store fails a command, `max` bounds a batch. -/
def step (s : Actor) : Event → Except String Actor
  | .send cmd => .ok { s with
      queue := s.queue ++ [(s.next, cmd)]
      next := s.next + 1
      seen := s.seen ++ [.sent s.next cmd] }
  | .receive =>
    match s.phase, s.queue with
    | .serving [] [], (id, .apply env) :: queue =>
      .ok { s with queue := queue, phase := .gathering [(id, env)] [] }
    | .serving [] [], (id, cmd) :: queue => .ok { s with queue := queue, phase := .serving [] [(id, cmd)] }
    | .gathering batch deferred, (id, cmd) :: queue =>
      if batch.length < max then
        match cmd with
        | .apply env => .ok { s with queue := queue, phase := .gathering (batch ++ [(id, env)]) deferred }
        | cmd => .ok { s with queue := queue, phase := .gathering batch (deferred ++ [(id, cmd)]) }
      else .error "the batch is full"
    | _, _ => .error "nothing to receive"
  | .close coins =>
    match s.phase with
    | .gathering batch deferred =>
      let faults := fun slot => (batch[slot]?.map fun m => storage m.1).getD none
      match OpenLedger.applyBatch c batchVerify coins (batch.map Prod.snd) faults s.ledger with
      | (some results, ledger) => .ok { s with
          ledger := ledger
          phase := .serving ((batch.map Prod.fst).zip (results.map .applied)) deferred }
      | (none, _) => .error "a slot is unfilled"
    | _ => .error "no batch"
  | .handle =>
    match s.phase with
    | .serving [] ((id, cmd) :: deferred) =>
      let out := handle c s.ledger (storage id) cmd
      .ok { s with ledger := out.2, phase := .serving [(id, out.1)] deferred }
    | _ => .error "nothing to handle"
  | .reply =>
    match s.phase with
    | .serving ((id, r) :: results) deferred =>
      .ok { s with phase := .serving results deferred, seen := s.seen ++ [.answered id r] }
    | _ => .error "nothing to answer"

def start (o : OpenLedger) : Actor := ⟨o, [], .serving [] [], 0, []⟩

/-- The commands not performed yet. -/
def Actor.waiting (s : Actor) : List (Nat × Command) :=
  match s.phase with
  | .gathering batch deferred => batch.map (fun m => (m.1, .apply m.2)) ++ (deferred ++ s.queue)
  | .serving _ deferred => deferred ++ s.queue

/-- The replies not given yet. -/
def Actor.results (s : Actor) : List (Nat × Reply) :=
  match s.phase with
  | .gathering _ _ => []
  | .serving results _ => results

/-- The commands sent and not answered yet. -/
def Actor.owed (s : Actor) : List Nat := s.results.map Prod.fst ++ s.waiting.map Prod.fst

def Actor.sent (s : Actor) : List Nat := s.seen.filterMap fun
  | .sent id _ => some id
  | .answered _ _ => none

def Actor.answered (s : Actor) : List Nat := s.seen.filterMap fun
  | .answered id _ => some id
  | .sent _ _ => none

/-- One command on the ledger, with the failures of the store it meets. -/
def performs (id : Nat) (o : OpenLedger) (cmd : Command) : Reply × OpenLedger := handle c o (storage id) cmd

/-- What the actor does of itself. -/
def Event.own : Event → Bool
  | .send _ => false
  | _ => true

/-- How many steps the actor still has to take for the commands it owes. -/
def Actor.work (s : Actor) : Nat :=
  match s.phase with
  | .gathering batch deferred => 2 * batch.length + 3 * deferred.length + 4 * s.queue.length + 1
  | .serving results deferred => results.length + 3 * deferred.length + 4 * s.queue.length

variable {c batchVerify storage max}

/-! ### A batch as a sequence of operations -/

section Batch

variable {o s : OpenLedger}

/-- No statement changes the configuration. -/
def KeepsConfig {α : Type} (m : Method Error OpenLedger α) : Prop :=
  ∀ o, Meets m o (fun _ o' => o'.cfg = o.cfg) (fun _ o' => o'.cfg = o.cfg)

lemma keepsConfig_bind {α β : Type} {m : Method Error OpenLedger α} {f : α → Method Error OpenLedger β}
    (hm : KeepsConfig m) (hf : ∀ a, KeepsConfig (f a)) : KeepsConfig (m >>= f) := by
  intro o
  rw [meets_bind]
  exact (hm o).mono (fun a s hs => (hf a s).mono (fun _ _ h => h.trans hs) fun _ _ h => h.trans hs) fun _ _ h => h

lemma keepsConfig_lift {α : Type} (x : Except Error α) : KeepsConfig (lift x : Method Error OpenLedger α) := by
  intro o
  rw [meets_lift]
  exact ⟨fun _ _ => rfl, fun _ _ => rfl⟩

lemma keepsConfig_get_bind {β : Type} {f : OpenLedger → Method Error OpenLedger β} (hf : ∀ a, KeepsConfig (f a)) :
    KeepsConfig (get >>= f) := by
  intro o
  rw [meets_bind, meets_get]
  exact hf o o

lemma keepsConfig_statement (fault : OpenLedger.Fault) (number : Nat) (command : Links.Command) :
    KeepsConfig (OpenLedger.statement fault number command) := by
  intro o
  unfold OpenLedger.statement
  simp only [meets_bind, meets_get, meets_lift, meets_set, implies_true, and_self]

lemma keepsConfig_statements (fault : OpenLedger.Fault) (number : Nat) (commands : List Links.Command) :
    KeepsConfig (OpenLedger.statements fault number commands) := by
  induction commands generalizing number with
  | nil => exact fun _ => rfl
  | cons command commands ih =>
    exact keepsConfig_bind (keepsConfig_statement fault number command) fun _ => ih (number + 1)

lemma keepsConfig_writeAll (fault : OpenLedger.Fault) (writes : List Write) : KeepsConfig (OpenLedger.writeAll fault writes) := by
  intro o
  unfold OpenLedger.writeAll
  rw [meets_closing]
  exact keepsConfig_statements fault 1 _ o

lemma keepsConfig_reloadTree : KeepsConfig (OpenLedger.reloadTree c) := by
  intro o
  unfold OpenLedger.reloadTree
  simp only [meets_bind, meets_get, meets_lift, meets_set, implies_true, and_self]

lemma keepsConfig_commitReceipt (kind : String) (a com receipt : Fr) (own : Write) (envelope : Envelope)
    (fault : OpenLedger.Fault) : KeepsConfig (OpenLedger.commitReceipt c kind a com receipt own envelope fault) := by
  intro o
  unfold OpenLedger.commitReceipt
  simp only [meets_bind, meets_get, meets_lift, meets_set, meets_onFailure, meets_modify, meets_pure, implies_true,
    and_true]
  intro tree _
  refine (keepsConfig_writeAll fault _ _).mono (fun _ _ h => h) fun _ o' h => ?_
  exact (keepsConfig_reloadTree o').mono (fun _ _ h' => h'.trans h) fun _ _ h' => h'.trans h

lemma keepsConfig_apply (env : OpEnvelope) (fault : OpenLedger.Fault) : KeepsConfig (OpenLedger.apply c env fault) := by
  unfold OpenLedger.apply
  refine keepsConfig_get_bind fun o => keepsConfig_bind (keepsConfig_lift _) fun found =>
    keepsConfig_bind (keepsConfig_lift _) fun _ => ?_
  unfold OpenLedger.applyVerified
  refine keepsConfig_get_bind fun o => keepsConfig_bind (keepsConfig_lift _) fun latest =>
    keepsConfig_bind (keepsConfig_lift _) fun _ => keepsConfig_bind (keepsConfig_lift _) fun _ =>
      keepsConfig_bind (keepsConfig_statement _ _ _) fun _ => ?_
  intro o'
  rw [meets_closing]
  exact keepsConfig_bind (keepsConfig_lift _) (fun _ => keepsConfig_commitReceipt _ _ _ _ _ _ _) o'

lemma apply_config (env : OpEnvelope) (fault : OpenLedger.Fault) (s : OpenLedger) :
    (outcome (OpenLedger.apply c env fault) s).2.cfg = s.cfg := by
  obtain ⟨hok, herror⟩ := meets_iff_outcome.mp (keepsConfig_apply (c := c) env fault s)
  cases hres : outcome (OpenLedger.apply c env fault) s with
  | mk result s' =>
    cases result with
    | ok r => exact hok r s' hres
    | error e => exact herror e s' hres

lemma apply_screened {env : OpEnvelope} {e : Error} (h : screen c env s = .error e) (fault : OpenLedger.Fault) :
    outcome (OpenLedger.apply c env fault) s = (.error e, s) := by
  unfold OpenLedger.apply
  rw [outcome_bind_ok outcome_get]
  exact outcome_bind_error (by rw [outcome_lift, h])

lemma screen_of_admitted {env : OpEnvelope} {proof : Nat} (h : OpenLedger.admitOp c env s = .ok proof) :
    screen c env s = (do
      let current ← expect (s.account env.account) .unknownAccount
      require (current.com = env.com) .staleCommitment
      require (s.rootIsRecent env.root = true) .rootNotRecent
      return (proof, current)) := by
  unfold OpenLedger.screen
  rw [h]
  rfl

lemma member_exact (hconfig : s.cfg = o.cfg) {env : OpEnvelope} {found : Nat × AccountView}
    (hfound : screen c env o = .ok found)
    (hverify : verifies c (found.1, Ledger.publicInput env found.2.com) = true) (fault : OpenLedger.Fault) :
    outcome (member c o (verifies c) env fault) s = outcome (OpenLedger.apply c env fault) s := by
  obtain ⟨hadmitted, -, hcom, -⟩ := OpenLedger.screen_eq_ok.mp hfound
  have hadmitted' : OpenLedger.admitOp c env s = .ok found.1 := (OpenLedger.admitOp_congr hconfig env).trans hadmitted
  have hscreen := screen_of_admitted hadmitted'
  have hmember : member c o (verifies c) env fault = OpenLedger.applyMember c env found.2 true fault := by
    unfold OpenLedger.member
    rw [hfound, ← hverify]
    rfl
  rw [hmember]
  have hread : ∀ {f : AccountView → Method Error OpenLedger Applied} {out},
      outcome (lift (expect (s.account env.account) .unknownAccount) >>= f) s = out →
      outcome (do
        lift (require (true = true) .invalidProof)
        let o ← get
        let now ← lift (expect (o.account env.account) .unknownAccount)
        f now : Method Error OpenLedger Applied) s = out := by
    intro f out hout
    rw [outcome_bind_ok (a := ()) (u := s) (by rw [outcome_lift]; rfl), outcome_bind_ok outcome_get]
    exact hout
  cases hnow : s.account env.account with
  | none =>
    rw [hnow] at hscreen
    rw [apply_screened hscreen]
    exact hread (outcome_bind_error (by rw [outcome_lift, hnow]; rfl))
  | some now =>
    rw [hnow] at hscreen
    have hfirst : outcome (lift (expect (s.account env.account) .unknownAccount) : Method Error OpenLedger AccountView) s
        = (.ok now, s) := by
      rw [outcome_lift, hnow]
      rfl
    by_cases hsame : now.com = found.2.com
    · by_cases hrecent : s.rootIsRecent env.root = true
      · refine OpenLedger.applyMember_apply fault hnow hsame ?_ (by rw [hsame]; exact hverify)
        exact OpenLedger.screen_eq_ok.mpr ⟨hadmitted', hnow, hsame.trans hcom, hrecent⟩
      · have herror : screen c env s = .error .rootNotRecent := by
          rw [hscreen]
          simp [expect, require, hsame.trans hcom, hrecent, bind, Except.bind]
        rw [apply_screened herror]
        refine hread ?_
        rw [outcome_bind_ok hfirst, outcome_bind_ok (a := ()) (u := s) (by rw [outcome_lift, require_eq_ok.mpr hsame])]
        unfold OpenLedger.applyVerified
        rw [outcome_bind_ok outcome_get, outcome_bind_ok hfirst,
          outcome_bind_ok (a := ()) (u := s) (by rw [outcome_lift, require_eq_ok.mpr rfl])]
        exact outcome_bind_error (by rw [outcome_lift, require, if_neg hrecent])
    · have herror : screen c env s = .error .staleCommitment := by
        have hstale : now.com ≠ env.com := fun heq => hsame (heq.trans hcom.symm)
        rw [hscreen]
        simp [expect, require, hstale, bind, Except.bind]
      rw [apply_screened herror]
      refine hread ?_
      rw [outcome_bind_ok hfirst]
      exact outcome_bind_error (by rw [outcome_lift, require, if_neg hsame])

/-- The members that pass every check made before the batch; the others are refused wherever they stand. -/
def admitted (c : Crypto) (o : OpenLedger) (env : OpEnvelope) : Bool :=
  match screen c env o with
  | .ok found => verifies c (found.1, Ledger.publicInput env found.2.com)
  | .error _ => false

lemma member_admitted (hconfig : s.cfg = o.cfg) {env : OpEnvelope} (h : admitted c o env = true) (fault : OpenLedger.Fault) :
    outcome (member c o (verifies c) env fault) s = outcome (OpenLedger.apply c env fault) s := by
  unfold admitted at h
  split at h
  · next found hfound => exact member_exact hconfig hfound h fault
  · cases h

lemma member_not_admitted {env : OpEnvelope} (h : admitted c o env = false) (fault fault' : OpenLedger.Fault) (s : OpenLedger) :
    ∃ e, outcome (member c o (verifies c) env fault) s = (.error e, s) ∧
      outcome (OpenLedger.apply c env fault') o = (.error e, o) := by
  unfold admitted at h
  split at h
  · next found hfound =>
    refine ⟨.invalidProof, ?_, ?_⟩
    · unfold OpenLedger.member
      rw [outcome_bind_ok (a := found) (u := s) (by rw [outcome_lift, hfound])]
      exact outcome_bind_error (by rw [outcome_lift, h]; rfl)
    · unfold OpenLedger.apply
      rw [outcome_bind_ok outcome_get, outcome_bind_ok (a := found) (u := o) (by rw [outcome_lift, hfound])]
      refine outcome_bind_error ?_
      unfold OpenLedger.verifies at h
      rw [outcome_lift, require, if_neg (by rw [h]; simp)]
  · next e hscreen =>
    refine ⟨e, ?_, apply_screened hscreen fault'⟩
    unfold OpenLedger.member
    exact outcome_bind_error (by rw [outcome_lift, hscreen])

def entryOf (m : Nat × OpEnvelope) (r : Except Error Applied) : Entry Command Reply := ⟨m.1, .apply m.2, .applied r⟩

def admittedEntry (c : Crypto) (o : OpenLedger) (e : Entry Command Reply) : Bool :=
  match e.cmd with
  | .apply env => admitted c o env
  | _ => true

/-- What a batch does with its members, each proof verified on its own. -/
def inBatch (c : Crypto) (storage : Nat → OpenLedger.Fault) (o : OpenLedger) (batch : List (Nat × OpEnvelope)) :
    OpenLedger → List (Except Error Applied) × OpenLedger :=
  inTurn (batch.map fun m => member c o (verifies c) m.2 (storage m.1))

variable (storage) in
lemma inBatch_sequential (hconfig : s.cfg = o.cfg) (batch : List (Nat × OpEnvelope)) :
    Sequential (performs c storage) o ((batch.zipWith entryOf (inBatch c storage o batch s).1).filter fun e =>
        !admittedEntry c o e) o ∧
      Sequential (performs c storage) s ((batch.zipWith entryOf (inBatch c storage o batch s).1).filter
        (admittedEntry c o)) (inBatch c storage o batch s).2 := by
  induction batch generalizing s with
  | nil => exact ⟨.nil o, .nil s⟩
  | cons m batch ih =>
    have hunfold : inBatch c storage o (m :: batch) s =
        ((outcome (member c o (verifies c) m.2 (storage m.1)) s).1 ::
          (inBatch c storage o batch (outcome (member c o (verifies c) m.2 (storage m.1)) s).2).1,
          (inBatch c storage o batch (outcome (member c o (verifies c) m.2 (storage m.1)) s).2).2) := rfl
    rw [hunfold, List.zipWith_cons_cons]
    cases hadmitted : admitted c o m.2 with
    | true =>
      have hsame := member_admitted (s := s) hconfig hadmitted (storage m.1)
      have hentry : admittedEntry c o (entryOf m (outcome (member c o (verifies c) m.2 (storage m.1)) s).1) = true :=
        hadmitted
      have hnext : (outcome (member c o (verifies c) m.2 (storage m.1)) s).2.cfg = o.cfg := by
        rw [hsame, apply_config]
        exact hconfig
      obtain ⟨hrefused, hrest⟩ := ih hnext
      rw [List.filter_cons_of_neg (by rw [hentry]; simp), List.filter_cons_of_pos hentry]
      refine ⟨hrefused, .cons ?_ hrest⟩
      rw [hsame]
      rfl
    | false =>
      obtain ⟨e, hout, happly⟩ := member_not_admitted hadmitted (storage m.1) (storage m.1) s
      have hentry : admittedEntry c o (entryOf m (outcome (member c o (verifies c) m.2 (storage m.1)) s).1) = false :=
        hadmitted
      rw [List.filter_cons_of_pos (by rw [hentry]; rfl), List.filter_cons_of_neg (by rw [hentry]; simp), hout]
      obtain ⟨hrefused, hrest⟩ := ih hconfig
      refine ⟨.cons ?_ hrefused, hrest⟩
      show ((Reply.applied (outcome (OpenLedger.apply c m.2 (storage m.1)) o).1,
        (outcome (OpenLedger.apply c m.2 (storage m.1)) o).2) : Reply × OpenLedger) = _
      rw [happly]
      rfl

lemma passes_exact (htrust : Trusted c batchVerify) (coins : Nat) {envs : List OpEnvelope} {m : OpEnvelope × Nat}
    (hm : m ∈ envs.zipIdx) (fault : OpenLedger.Fault) :
    member c o (OpenLedger.passes batchVerify c o coins envs) m.1 fault = member c o (verifies c) m.1 fault := by
  unfold OpenLedger.member
  cases hscreen : screen c m.1 o with
  | error e => rfl
  | ok found =>
    have hpass : OpenLedger.passes batchVerify c o coins envs (found.1, Ledger.publicInput m.1 found.2.com) =
        verifies c (found.1, Ledger.publicInput m.1 found.2.com) := by
      rw [Bool.eq_iff_iff]
      refine ⟨OpenLedger.passes_verifies htrust coins hm hscreen, fun hverify => ?_⟩
      unfold OpenLedger.passes
      rw [show c.verify .op found.1 (Ledger.publicInput m.1 found.2.com) = true from hverify, Bool.or_true]
    show OpenLedger.applyMember c m.1 found.2 _ fault = OpenLedger.applyMember c m.1 found.2 _ fault
    rw [hpass]

lemma applyBatch_inBatch (htrust : Trusted c batchVerify) (coins : Nat) (batch : List (Nat × OpEnvelope))
    (o : OpenLedger) :
    OpenLedger.applyBatch c batchVerify coins (batch.map Prod.snd)
      (fun slot => (batch[slot]?.map fun m => storage m.1).getD none) o =
      (some (inBatch c storage o batch o).1, (inBatch c storage o batch o).2) := by
  rw [OpenLedger.applyBatch_eq]
  have hmethods : ((batch.map Prod.snd).zipIdx.map fun m =>
      member c o (OpenLedger.passes batchVerify c o coins (batch.map Prod.snd)) m.1
        ((batch[m.2]?.map fun m => storage m.1).getD none)) =
      batch.map fun m => member c o (verifies c) m.2 (storage m.1) := by
    apply List.ext_getElem
    · simp
    · intro i hi hi'
      have hlt : i < batch.length := by simpa using hi'
      simp only [List.getElem_map, List.getElem_zipIdx, Nat.zero_add, List.getElem?_eq_getElem hlt, Option.map_some,
        Option.getD_some]
      have hm : ((batch[i]).2, i) ∈ (batch.map Prod.snd).zipIdx := by
        rw [List.mk_mem_zipIdx_iff_getElem?]
        simp [hlt]
      exact passes_exact htrust coins hm _
  dsimp only
  rw [hmethods]
  rfl

end Batch

/-! ### Runs of the actor -/

/-- Everything the actor has done so far is explained by one order, and everything else is still under way. -/
structure Explained (c : Crypto) (storage : Nat → OpenLedger.Fault) (o : OpenLedger) (s : Actor)
    (order : List (Entry Command Reply)) : Prop where
  linear : Linearizes (performs c storage) o s.seen order s.ledger
  results : ∀ p ∈ s.results, ∃ e ∈ order, e.id = p.1 ∧ e.reply = p.2
  sent : ∀ p ∈ s.waiting, Observed.sent p.1 p.2 ∈ s.seen
  fresh : ∀ p ∈ s.waiting, p.1 ∉ order.map Entry.id
  numbered : s.sent = List.range s.next
  once : (s.answered ++ s.owed).Perm (List.range s.next)

namespace Explained

variable {o : OpenLedger} {s s' : Actor} {order : List (Entry Command Reply)}

lemma mem_sent {i : Nat} : i ∈ s.sent ↔ ∃ cmd, Observed.sent i cmd ∈ s.seen := by
  unfold Actor.sent
  rw [List.mem_filterMap]
  constructor
  · rintro ⟨o, ho, heq⟩
    cases o with
    | sent j cmd =>
      cases heq
      exact ⟨cmd, ho⟩
    | answered j r => cases heq
  · rintro ⟨cmd, hcmd⟩
    exact ⟨_, hcmd, rfl⟩

lemma mem_answered {i : Nat} : i ∈ s.answered ↔ ∃ r, Observed.answered i r ∈ s.seen := by
  unfold Actor.answered
  rw [List.mem_filterMap]
  constructor
  · rintro ⟨o, ho, heq⟩
    cases o with
    | sent j cmd => cases heq
    | answered j r =>
      cases heq
      exact ⟨r, ho⟩
  · rintro ⟨r, hr⟩
    exact ⟨_, hr, rfl⟩

lemma waiting_nodup (h : Explained c storage o s order) : (s.waiting.map Prod.fst).Nodup := by
  have hall : (s.answered ++ s.owed).Nodup := h.once.nodup_iff.mpr List.nodup_range
  exact ((List.nodup_append.mp hall).2.1).sublist (List.sublist_append_right _ _)

lemma send (h : Explained c storage o s order) (cmd : Command) : Explained c storage o { s with
    queue := s.queue ++ [(s.next, cmd)], next := s.next + 1, seen := s.seen ++ [.sent s.next cmd] } order := by
  have hwaiting : ∀ t : Actor, t = { s with
      queue := s.queue ++ [(s.next, cmd)], next := s.next + 1, seen := s.seen ++ [.sent s.next cmd] } →
      t.waiting = s.waiting ++ [(s.next, cmd)] ∧ t.results = s.results ∧ t.answered = s.answered ∧
        t.sent = s.sent ++ [s.next] := by
    rintro t rfl
    refine ⟨?_, rfl, by simp [Actor.answered], by simp [Actor.sent]⟩
    unfold Actor.waiting
    cases s.phase <;> simp
  obtain ⟨hw, hr, ha, hs⟩ := hwaiting _ rfl
  have hnew : s.next ∉ order.map Entry.id := by
    intro hin
    obtain ⟨e, he, heq⟩ := List.mem_map.mp hin
    have hlt := List.mem_range.mp (h.numbered ▸ mem_sent.mpr ⟨e.cmd, h.linear.sent e he⟩)
    omega
  refine ⟨h.linear.send cmd hnew, hr ▸ h.results, ?_, ?_, ?_, ?_⟩
  · rw [hw]
    intro p hp
    rcases List.mem_append.mp hp with hbefore | hlast
    · exact List.mem_append_left _ (h.sent p hbefore)
    · rw [List.mem_singleton.mp hlast]
      exact List.mem_append_right _ List.mem_cons_self
  · rw [hw]
    intro p hp
    rcases List.mem_append.mp hp with hbefore | hlast
    · exact h.fresh p hbefore
    · rw [List.mem_singleton.mp hlast]
      exact hnew
  · rw [hs, h.numbered, List.range_succ]
  · rw [ha, Actor.owed, hw, hr, List.map_append, List.range_succ, ← List.append_assoc, ← List.append_assoc]
    have hbefore := h.once
    rw [Actor.owed, ← List.append_assoc] at hbefore
    exact hbefore.append_right [s.next]

lemma sorts (h : Explained c storage o s order) {queue : List (Nat × Command)} {phase : Phase}
    (hwaiting : (Actor.waiting { s with queue := queue, phase := phase }).Perm s.waiting)
    (hresults : Actor.results { s with queue := queue, phase := phase } = s.results) :
    Explained c storage o { s with queue := queue, phase := phase } order := by
  refine ⟨h.linear, hresults ▸ h.results, fun p hp => h.sent p (hwaiting.subset hp),
    fun p hp => h.fresh p (hwaiting.subset hp), h.numbered, ?_⟩
  rw [Actor.owed, hresults]
  exact (((hwaiting.map Prod.fst).append_left _).append_left _).trans h.once

lemma receive (h : Explained c storage o s order) (hstep : step c batchVerify storage max s .receive = .ok s') :
    Explained c storage o s' order := by
  unfold step at hstep
  dsimp only at hstep
  split at hstep
  · next id env queue hphase hqueue =>
    cases hstep
    exact h.sorts (by simp [Actor.waiting, hphase, hqueue]) (by simp [Actor.results, hphase])
  · next id cmd queue _ hphase hqueue =>
    cases hstep
    exact h.sorts (by simp [Actor.waiting, hphase, hqueue]) (by simp [Actor.results, hphase])
  · next batch deferred id cmd queue hphase hqueue =>
    split_ifs at hstep
    split at hstep
    · next env =>
      cases hstep
      refine h.sorts ?_ (by simp [Actor.results, hphase])
      simp only [Actor.waiting, hphase, hqueue, List.map_append, List.map_singleton, List.append_assoc,
        List.singleton_append]
      exact (List.perm_middle.symm.trans (by simp)).append_left _
    · cases hstep
      exact h.sorts (by simp [Actor.waiting, hphase, hqueue]) (by simp [Actor.results, hphase])
  · cases hstep

lemma performed (h : Explained c storage o s order) {ledger : OpenLedger} {phase : Phase}
    {es es' : List (Entry Command Reply)} (hseq : Sequential (performs c storage) s.ledger es' ledger)
    (hperm : es'.Perm es) (hresults : s.results = [])
    (hkept : Actor.results { s with ledger := ledger, phase := phase } = es.map fun e => (e.id, e.reply))
    (hsplit : s.waiting.Perm (es.map (fun e => (e.id, e.cmd)) ++
      Actor.waiting { s with ledger := ledger, phase := phase })) :
    Explained c storage o { s with ledger := ledger, phase := phase } (order ++ es') := by
  have hwaits : ∀ e ∈ es', (e.id, e.cmd) ∈ s.waiting := fun e he =>
    hsplit.symm.subset (List.mem_append_left _ (List.mem_map.mpr ⟨e, hperm.subset he, rfl⟩))
  have hids : (s.waiting.map Prod.fst).Perm (es.map Entry.id ++
      (Actor.waiting { s with ledger := ledger, phase := phase }).map Prod.fst) := by
    have hmap := hsplit.map Prod.fst
    rwa [List.map_append, List.map_map] at hmap
  have hapart := List.nodup_append.mp (hids.nodup_iff.mp h.waiting_nodup)
  refine ⟨?_, ?_, ?_, ?_, h.numbered, ?_⟩
  · refine h.linear.execute hseq (fun e he => h.sent _ (hwaits e he)) ?_ fun e he => h.fresh _ (hwaits e he)
    exact (hperm.map Entry.id).nodup_iff.mpr hapart.1
  · rw [hkept]
    intro p hp
    obtain ⟨e, he, rfl⟩ := List.mem_map.mp hp
    exact ⟨e, List.mem_append_right _ (hperm.symm.subset he), rfl, rfl⟩
  · exact fun p hp => h.sent p (hsplit.symm.subset (List.mem_append_right _ hp))
  · intro p hp hin
    rw [List.map_append] at hin
    rcases List.mem_append.mp hin with hbefore | hnow
    · exact h.fresh p (hsplit.symm.subset (List.mem_append_right _ hp)) hbefore
    · exact hapart.2.2 p.1 ((hperm.map Entry.id).subset hnow) p.1 (List.mem_map_of_mem hp) rfl
  · have howed : (Actor.owed { s with ledger := ledger, phase := phase }).Perm s.owed := by
      unfold Actor.owed
      rw [hkept, hresults, List.map_map]
      exact hids.symm
    exact (howed.append_left _).trans h.once

lemma entries_commands (batch : List (Nat × OpEnvelope)) (rs : List (Except Error Applied))
    (h : rs.length = batch.length) :
    (batch.zipWith entryOf rs).map (fun e => (e.id, e.cmd)) = batch.map fun m => (m.1, .apply m.2) := by
  rw [List.map_zipWith]
  apply List.ext_getElem
  · simp [h]
  · intro i hi hi'
    simp [entryOf]

lemma entries_replies (batch : List (Nat × OpEnvelope)) (rs : List (Except Error Applied)) :
    (batch.zipWith entryOf rs).map (fun e => (e.id, e.reply)) =
      (batch.map Prod.fst).zip (rs.map .applied) := by
  rw [List.map_zipWith, List.zip, List.zipWith_map]
  rfl

lemma close (htrust : Trusted c batchVerify) (h : Explained c storage o s order) {coins : Nat}
    (hstep : step c batchVerify storage max s (.close coins) = .ok s') :
    ∃ order', Explained c storage o s' order' := by
  unfold step at hstep
  dsimp only at hstep
  split at hstep
  · next batch deferred hphase =>
    rw [applyBatch_inBatch htrust] at hstep
    cases hstep
    obtain ⟨hrefused, hadmitted⟩ := inBatch_sequential (c := c) storage (rfl : s.ledger.cfg = s.ledger.cfg) batch
    have hperm := List.perm_append_comm.trans (List.filter_append_perm (admittedEntry c s.ledger)
      (batch.zipWith entryOf (inBatch c storage s.ledger batch s.ledger).1))
    refine ⟨_, h.performed (hrefused.append hadmitted) hperm ?_ ?_ ?_⟩
    · simp [Actor.results, hphase]
    · exact (entries_replies batch _).symm
    · rw [entries_commands batch _ (by rw [inBatch, length_inTurn, List.length_map])]
      simp [Actor.waiting, hphase]
  · cases hstep

lemma handle (h : Explained c storage o s order) (hstep : step c batchVerify storage max s .handle = .ok s') :
    ∃ order', Explained c storage o s' order' := by
  unfold step at hstep
  dsimp only at hstep
  split at hstep
  · next id cmd deferred hphase =>
    cases hstep
    have hone : Sequential (performs c storage) s.ledger
        [⟨id, cmd, (LedgerActor.handle c s.ledger (storage id) cmd).1⟩]
        (LedgerActor.handle c s.ledger (storage id) cmd).2 := .cons rfl (.nil _)
    refine ⟨_, h.performed hone (List.Perm.refl _) ?_ ?_ ?_⟩
    · simp [Actor.results, hphase]
    · simp [Actor.results]
    · simp [Actor.waiting, hphase]
  · cases hstep

lemma reply (h : Explained c storage o s order) (hstep : step c batchVerify storage max s .reply = .ok s') :
    Explained c storage o s' order := by
  unfold step at hstep
  dsimp only at hstep
  split at hstep
  · next id r results deferred hphase =>
    cases hstep
    have hresults : s.results = (id, r) :: results := by simp [Actor.results, hphase]
    have hwaiting : s.waiting = deferred ++ s.queue := by simp [Actor.waiting, hphase]
    obtain ⟨e, he, heq, hreply⟩ := h.results (id, r) (hresults ▸ List.mem_cons_self)
    have hlinear := h.linear.answer he
    rw [heq, hreply] at hlinear
    refine ⟨hlinear, ?_, ?_, ?_, ?_, ?_⟩
    · exact fun p hp => h.results p (hresults ▸ List.mem_cons_of_mem _ hp)
    · exact fun p hp => List.mem_append_left _ (h.sent p (hwaiting ▸ hp))
    · exact fun p hp => h.fresh p (hwaiting ▸ hp)
    · have hbefore := h.numbered
      simpa [Actor.sent] using hbefore
    · have hbefore := h.once
      rw [Actor.owed, hresults, hwaiting, List.map_cons, List.cons_append] at hbefore
      refine List.Perm.trans ?_ hbefore
      simp [Actor.answered, Actor.owed, Actor.results, Actor.waiting, List.filterMap_append]
  · cases hstep

lemma step_explained (htrust : Trusted c batchVerify) (h : ∃ order, Explained c storage o s order) {a : Event}
    (hstep : step c batchVerify storage max s a = .ok s') : ∃ order, Explained c storage o s' order := by
  obtain ⟨order, h⟩ := h
  cases a with
  | send cmd =>
    cases hstep
    exact ⟨order, h.send cmd⟩
  | receive => exact ⟨order, h.receive hstep⟩
  | close coins => exact h.close htrust hstep
  | handle => exact h.handle hstep
  | reply => exact ⟨order, h.reply hstep⟩

lemma complete (h : Explained c storage o s order) (howed : s.owed = []) :
    (order.map Entry.id).Perm s.sent := by
  have hall : (s.answered ++ s.owed).Perm s.sent := h.numbered.symm ▸ h.once
  rw [howed, List.append_nil] at hall
  have hnodup : s.sent.Nodup := h.numbered ▸ List.nodup_range
  rw [List.perm_ext_iff_of_nodup h.linear.once hnodup]
  intro i
  constructor
  · intro hi
    obtain ⟨e, he, rfl⟩ := List.mem_map.mp hi
    exact mem_sent.mpr ⟨e.cmd, h.linear.sent e he⟩
  · intro hi
    obtain ⟨r, hr⟩ := mem_answered.mp (hall.symm.subset hi)
    obtain ⟨e, he, rfl, -⟩ := h.linear.answered i r hr
    exact List.mem_map_of_mem he

end Explained

lemma explained_start (o : OpenLedger) : Explained c storage o (start o) [] where
  linear := .start o
  results _ hp := absurd hp List.not_mem_nil
  sent _ hp := absurd hp List.not_mem_nil
  fresh _ hp := absurd hp List.not_mem_nil
  numbered := rfl
  once := List.Perm.refl _

/-! ### The actor goes on while it owes a reply -/

lemma own_work {s s' : Actor} {a : Event} (hown : a.own = true)
    (hstep : step c batchVerify storage max s a = .ok s') : s'.work < s.work := by
  cases a with
  | send cmd => cases hown
  | receive =>
    unfold step at hstep
    dsimp only at hstep
    split at hstep
    · next id env queue hphase hqueue =>
      cases hstep
      simp only [Actor.work, hphase, hqueue, List.length_cons, List.length_nil]
      omega
    · next id cmd queue _ hphase hqueue =>
      cases hstep
      simp only [Actor.work, hphase, hqueue, List.length_cons]
      omega
    · next batch deferred id cmd queue hphase hqueue =>
      split_ifs at hstep
      split at hstep
      all_goals
        cases hstep
        simp only [Actor.work, hphase, hqueue, List.length_append, List.length_cons, List.length_nil]
        omega
    · cases hstep
  | close coins =>
    unfold step at hstep
    dsimp only at hstep
    split at hstep
    · next batch deferred hphase =>
      split at hstep
      · cases hstep
        simp only [Actor.work, hphase, List.length_zip, List.length_map]
        omega
      · cases hstep
    · cases hstep
  | handle =>
    unfold step at hstep
    dsimp only at hstep
    split at hstep
    · next id cmd deferred hphase =>
      cases hstep
      simp only [Actor.work, hphase, List.length_cons]
      omega
    · cases hstep
  | reply =>
    unfold step at hstep
    dsimp only at hstep
    split at hstep
    · next id r results deferred hphase =>
      cases hstep
      simp only [Actor.work, hphase, List.length_cons]
      omega
    · cases hstep

lemma owed_goes_on (htrust : Trusted c batchVerify) {s : Actor} (howed : s.owed ≠ []) :
    ∃ a, Event.own a = true ∧ ∃ s', step c batchVerify storage max s a = .ok s' := by
  cases hphase : s.phase with
  | gathering batch deferred =>
    refine ⟨.close 0, rfl, ?_⟩
    unfold step
    simp only [hphase, applyBatch_inBatch htrust]
    exact ⟨_, rfl⟩
  | serving results deferred =>
    cases results with
    | cons p results =>
      refine ⟨.reply, rfl, ?_⟩
      unfold step
      simp only [hphase]
      exact ⟨_, rfl⟩
    | nil =>
      cases deferred with
      | cons p deferred =>
        refine ⟨.handle, rfl, ?_⟩
        unfold step
        simp only [hphase]
        exact ⟨_, rfl⟩
      | nil =>
        cases hqueue : s.queue with
        | nil => exact absurd (by simp [Actor.owed, Actor.results, Actor.waiting, hphase, hqueue]) howed
        | cons p queue =>
          refine ⟨.receive, rfl, ?_⟩
          obtain ⟨id, cmd⟩ := p
          unfold step
          cases cmd <;> exact ⟨_, by simp only [hphase, hqueue]; rfl⟩

section Sample

open OpenLedger (raceLedger raceOps verifyEach verifyEach_exact)

/-- A summary is asked for while a batch is gathered, and waits until the four members have their replies. -/
def gatheredSchedule : List Event :=
  (raceOps.take 2).map (fun env => .send (.apply env)) ++ .send .summary ::
    ((raceOps.drop 2).map (fun env => .send (.apply env)) ++
      [.receive, .receive, .receive, .receive, .receive, .close 0, .reply, .reply, .reply, .reply, .handle, .reply])

def gathered : Actor := exec (step sampleCrypto verifyEach (fun _ => none) 4) (start raceLedger) gatheredSchedule

end Sample

end Peal.Links.LedgerActor
