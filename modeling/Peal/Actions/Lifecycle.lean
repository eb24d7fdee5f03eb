import Peal.Actions.Intent
import Peal.Library.Methods
import Peal.Library.Paths

namespace Peal.Actions
open Peal.Fallible Peal.Methods Peal.Paths
open Peal.Links (Text Bytes)

/-! # The intent lifecycle -/

inductive IntentState where
  | DRAFT
  | SEALED
  | SUBMITTED
  | VALIDATED
  | BATCHED
  | ORDER_COMMITTED
  | COLLECTING_SHARES
  | THRESHOLD_REACHED
  | REVEALED
  | QUOTING
  | QUOTE_VALIDATED
  | AUTHORIZATION_REQUIRED
  | AUTHORIZED
  | SUBMITTED_FOR_EXECUTION
  | CONFIRMED
  | SETTLED
  | FAILED
  | EXPIRED
  | CANCELLED
  deriving DecidableEq, Repr

open IntentState

def IntentState.name : IntentState → Text
  | DRAFT => "DRAFT".toList
  | SEALED => "SEALED".toList
  | SUBMITTED => "SUBMITTED".toList
  | VALIDATED => "VALIDATED".toList
  | BATCHED => "BATCHED".toList
  | ORDER_COMMITTED => "ORDER_COMMITTED".toList
  | COLLECTING_SHARES => "COLLECTING_SHARES".toList
  | THRESHOLD_REACHED => "THRESHOLD_REACHED".toList
  | REVEALED => "REVEALED".toList
  | QUOTING => "QUOTING".toList
  | QUOTE_VALIDATED => "QUOTE_VALIDATED".toList
  | AUTHORIZATION_REQUIRED => "AUTHORIZATION_REQUIRED".toList
  | AUTHORIZED => "AUTHORIZED".toList
  | SUBMITTED_FOR_EXECUTION => "SUBMITTED_FOR_EXECUTION".toList
  | CONFIRMED => "CONFIRMED".toList
  | SETTLED => "SETTLED".toList
  | FAILED => "FAILED".toList
  | EXPIRED => "EXPIRED".toList
  | CANCELLED => "CANCELLED".toList

def STATES : List IntentState := [DRAFT, SEALED, SUBMITTED, VALIDATED, BATCHED, ORDER_COMMITTED, COLLECTING_SHARES,
  THRESHOLD_REACHED, REVEALED, QUOTING, QUOTE_VALIDATED, AUTHORIZATION_REQUIRED, AUTHORIZED, SUBMITTED_FOR_EXECUTION,
  CONFIRMED, SETTLED, FAILED, EXPIRED, CANCELLED]

lemma mem_STATES (s : IntentState) : s ∈ STATES := by cases s <;> decide

def TERMINAL : List IntentState := [SETTLED, FAILED, EXPIRED, CANCELLED]

def EDGES : IntentState → List IntentState
  | DRAFT => [SEALED, CANCELLED]
  | SEALED => [SUBMITTED, CANCELLED, EXPIRED]
  | SUBMITTED => [VALIDATED, FAILED, CANCELLED, EXPIRED]
  | VALIDATED => [BATCHED, FAILED, CANCELLED, EXPIRED]
  -- from here to REVEALED the intent belongs to the batch
  | BATCHED => [ORDER_COMMITTED, FAILED, EXPIRED]
  | ORDER_COMMITTED => [COLLECTING_SHARES, FAILED]
  | COLLECTING_SHARES => [THRESHOLD_REACHED, FAILED, EXPIRED]
  | THRESHOLD_REACHED => [REVEALED, FAILED]
  | REVEALED => [QUOTING, FAILED, EXPIRED, CANCELLED]
  | QUOTING => [QUOTE_VALIDATED, FAILED, EXPIRED, CANCELLED]
  | QUOTE_VALIDATED => [AUTHORIZATION_REQUIRED, FAILED, EXPIRED, CANCELLED]
  | AUTHORIZATION_REQUIRED => [AUTHORIZED, CANCELLED, EXPIRED]
  | AUTHORIZED => [SUBMITTED_FOR_EXECUTION, CANCELLED, FAILED, EXPIRED]
  | SUBMITTED_FOR_EXECUTION => [CONFIRMED, FAILED]
  | CONFIRMED => [SETTLED, FAILED]
  | SETTLED => []
  | FAILED => []
  | EXPIRED => []
  | CANCELLED => []

def canTransition (source target : IntentState) : Bool := target ∈ EDGES source

inductive LifecycleError where
  | invalidTransition (source target : IntentState)
  | notContiguous (source target expected : IntentState)
  deriving DecidableEq, Repr

def LifecycleError.message : LifecycleError → Text
  | .invalidTransition source target =>
    "illegal intent transition ".toList ++ source.name ++ " -> ".toList ++ target.name
  | .notContiguous source target expected =>
    "history is not contiguous at ".toList ++ source.name ++ " -> ".toList ++ target.name ++
      ": expected from=".toList ++ expected.name

def assertTransition (source target : IntentState) : Except LifecycleError Unit :=
  require (canTransition source target = true) (.invalidTransition source target)

structure TransitionRecord where
  from_ : IntentState
  to_ : IntentState
  at_ : Int
  code : Option Text
  deriving DecidableEq, Repr

structure IntentLifecycle where
  intentId : Text
  current : IntentState
  log : List TransitionRecord
  deriving DecidableEq, Repr

namespace IntentLifecycle

def new (intentId : Text) : IntentLifecycle := ⟨intentId, DRAFT, []⟩

def isTerminal (lc : IntentLifecycle) : Bool := lc.current ∈ TERMINAL

def mayRequestQuote (lc : IntentLifecycle) : Bool := lc.current = REVEALED ∨ lc.current = QUOTING

/-- The method `to`, with what the clock reads. -/
def to_ (next : IntentState) (code : Option Text) (clock : Int) : Method LifecycleError IntentLifecycle TransitionRecord := do
  let lc ← get
  lift (assertTransition lc.current next)
  let rec_ : TransitionRecord := ⟨lc.current, next, clock, code⟩
  modify fun lc => { lc with log := lc.log ++ [rec_] }
  modify fun lc => { lc with current := next }
  return rec_

def load (lc : IntentLifecycle) (r : TransitionRecord) : Except LifecycleError IntentLifecycle := do
  require (r.from_ = lc.current) (.notContiguous r.from_ r.to_ lc.current)
  assertTransition r.from_ r.to_
  return { lc with log := lc.log ++ [r], current := r.to_ }

def fromHistory (intentId : Text) (records : List TransitionRecord) : Except LifecycleError IntentLifecycle :=
  records.foldlM load (new intentId)

/-- A call of `to`, legal or not. -/
structure Move where
  next : IntentState
  code : Option Text
  clock : Int

def moved (lc : IntentLifecycle) (moves : List Move) : IntentLifecycle :=
  moves.foldl (fun lc m => (outcome (to_ m.next m.code m.clock) lc).2) lc

/-- Started, or loaded, and moved by any calls. -/
inductive Reached : IntentLifecycle → Prop where
  | fresh (intentId : Text) : Reached (new intentId)
  | loaded {intentId : Text} {records : List TransitionRecord} {lc : IntentLifecycle} :
      fromHistory intentId records = .ok lc → Reached lc
  | move {lc : IntentLifecycle} (m : Move) : Reached lc → Reached (lc.moved [m])

end IntentLifecycle

/-- Contiguous, along legal edges, from the first state on. -/
def Legal (log : List TransitionRecord) (current : IntentState) : Prop :=
  Path TransitionRecord.from_ TransitionRecord.to_ (fun s t => canTransition s t = true) DRAFT log current

/-! ### What a history shows -/

/-- The order was committed, and the batch revealed after it. -/
def Opened (log : List TransitionRecord) : Prop := ∃ front committed between revealed back,
  log = front ++ committed :: between ++ revealed :: back ∧ committed.to_ = ORDER_COMMITTED ∧ revealed.to_ = REVEALED

/-- No record is of a terminal state. -/
def Unended (log : List TransitionRecord) : Prop := ∀ r ∈ log, r.from_ ∉ TERMINAL ∧ r.to_ ∉ TERMINAL

variable {lc lc' : IntentLifecycle} {log : List TransitionRecord} {s : IntentState}

/-- States that are reached without a committed order. -/
def UNORDERED : List IntentState := [DRAFT, SEALED, SUBMITTED, VALIDATED, BATCHED, FAILED, EXPIRED, CANCELLED]

/-- States that are reached from a committed order without the reveal. -/
def UNREVEALED : List IntentState := [ORDER_COMMITTED, COLLECTING_SHARES, THRESHOLD_REACHED, FAILED, EXPIRED]

lemma canTransition_iff {s t : IntentState} : canTransition s t = true ↔ t ∈ EDGES s := decide_eq_true_iff

lemma edge_induct {P : IntentState → IntentState → Prop} (h : ∀ x ∈ STATES, ∀ y ∈ EDGES x, P x y)
    {s t : IntentState} (hedge : canTransition s t = true) : P s t :=
  h s (mem_STATES s) t (canTransition_iff.mp hedge)

lemma terminal_stuck (h : s ∈ TERMINAL) (t : IntentState) : ¬canTransition s t = true := fun hedge =>
  edge_induct (P := fun x _ => x ∉ TERMINAL) (by decide) hedge h

/-- A state past the reveal is reached through the commitment of the order, then the reveal. -/
theorem Legal.opened (h : Legal log s) (hordered : s ∉ UNORDERED) (hrevealed : s ∉ UNREVEALED) : Opened log := by
  have hcommit : ∀ x y, canTransition x y = true → x ∈ UNORDERED → y ∉ UNORDERED → y = ORDER_COMMITTED := by
    intro x y hedge
    exact edge_induct (P := fun x y => x ∈ UNORDERED → y ∉ UNORDERED → y = ORDER_COMMITTED) (by decide) hedge
  have hreveal : ∀ x y, canTransition x y = true → x ∈ UNREVEALED → y ∉ UNREVEALED → y = REVEALED := by
    intro x y hedge
    exact edge_induct (P := fun x y => x ∈ UNREVEALED → y ∉ UNREVEALED → y = REVEALED) (by decide) hedge
  obtain ⟨front, committed, rest, rfl, hto, hrest⟩ := Path.enters hcommit (by decide) hordered h
  obtain ⟨between, revealed, back, rfl, hto', -⟩ := Path.enters hreveal (by decide) hrevealed hrest
  exact ⟨front, committed, between, revealed, back, by rw [List.append_assoc, List.cons_append], hto, hto'⟩

/-- A history holds a terminal state only as the state that it ends in. -/
theorem Legal.unended_iff (h : Legal log s) : Unended log ↔ s ∉ TERMINAL := by
  constructor
  · intro hopen hs
    rcases List.eq_nil_or_concat' log with rfl | ⟨front, r, rfl⟩
    · obtain rfl : DRAFT = s := h
      exact absurd hs (by decide)
    · obtain ⟨t, -, -, -, hend⟩ := path_append.mp h
      obtain rfl : r.to_ = s := hend
      exact (hopen r (List.mem_append_right _ (List.mem_singleton_self r))).2 hs
  · intro hs r hr
    obtain ⟨front, back, rfl⟩ := List.append_of_mem hr
    obtain ⟨t, -, hsource, hedge, -⟩ := path_append.mp h
    refine ⟨fun hend => terminal_stuck hend r.to_ (hsource ▸ hedge), fun hend => ?_⟩
    obtain ⟨-, rfl⟩ := Path.ends (terminal_stuck hend) h
    exact hs hend

/-! ### Moving and loading -/

namespace IntentLifecycle

lemma outcome_to (next : IntentState) (code : Option Text) (clock : Int) (lc : IntentLifecycle) :
    outcome (to_ next code clock) lc = if canTransition lc.current next = true then
      (.ok ⟨lc.current, next, clock, code⟩, ⟨lc.intentId, next, lc.log ++ [⟨lc.current, next, clock, code⟩]⟩)
    else (.error (.invalidTransition lc.current next), lc) := by
  unfold to_ assertTransition
  rw [outcome_bind_ok outcome_get]
  by_cases hedge : canTransition lc.current next = true
  · rw [if_pos hedge, require_eq_ok (u := ()).mpr hedge]
    rfl
  · rw [if_neg hedge, require_eq_error.mpr ⟨hedge, rfl⟩]
    rfl

lemma load_eq_ok {r : TransitionRecord} : lc.load r = .ok lc' ↔ r.from_ = lc.current ∧
    canTransition r.from_ r.to_ = true ∧ lc' = ⟨lc.intentId, r.to_, lc.log ++ [r]⟩ := by
  simp only [load, assertTransition, bind_eq_ok, require_eq_ok, pure_eq_ok, exists_const]
  constructor
  · rintro ⟨hfrom, hedge, rfl⟩
    exact ⟨hfrom, hedge, rfl⟩
  · rintro ⟨hfrom, hedge, rfl⟩
    exact ⟨hfrom, hedge, rfl⟩

lemma foldlM_load {records : List TransitionRecord} : records.foldlM load lc = .ok lc' ↔
    Path TransitionRecord.from_ TransitionRecord.to_ (fun s t => canTransition s t = true) lc.current records
      lc'.current ∧ lc'.intentId = lc.intentId ∧ lc'.log = lc.log ++ records := by
  induction records generalizing lc with
  | nil =>
    rw [List.foldlM_nil, pure_eq_ok, List.append_nil]
    constructor
    · rintro rfl
      exact ⟨rfl, rfl, rfl⟩
    · rintro ⟨hcurrent, hid, hlog⟩
      obtain ⟨intentId, current, log⟩ := lc'
      obtain rfl : lc.current = current := hcurrent
      obtain rfl : intentId = lc.intentId := hid
      obtain rfl : log = lc.log := hlog
      rfl
  | cons r records ih =>
    rw [foldlM_cons_eq_ok]
    constructor
    · rintro ⟨mid, hmid, hrest⟩
      obtain ⟨hfrom, hedge, rfl⟩ := load_eq_ok.mp hmid
      obtain ⟨hpath, hid, hlog⟩ := ih.mp hrest
      exact ⟨⟨hfrom, hfrom ▸ hedge, hpath⟩, hid, hlog.trans (List.append_assoc _ _ _)⟩
    · rintro ⟨⟨hfrom, hedge, hpath⟩, hid, hlog⟩
      refine ⟨_, load_eq_ok.mpr ⟨hfrom, hfrom ▸ hedge, rfl⟩, ih.mpr ⟨hpath, hid, ?_⟩⟩
      exact hlog.trans (List.append_assoc _ [r] records).symm

/-- A history is loaded exactly when it is a legal one, and is the one loaded. -/
theorem fromHistory_eq_ok {intentId : Text} {records : List TransitionRecord} :
    fromHistory intentId records = .ok lc ↔ Legal records lc.current ∧ lc.intentId = intentId ∧ lc.log = records :=
  foldlM_load

lemma legal_move (h : Legal lc.log lc.current) (m : Move) : Legal (lc.moved [m]).log (lc.moved [m]).current := by
  show Legal (outcome (to_ m.next m.code m.clock) lc).2.log (outcome (to_ m.next m.code m.clock) lc).2.current
  rw [outcome_to]
  split_ifs with hedge
  · have hconcat : Paths.Path TransitionRecord.from_ TransitionRecord.to_ _ _ _ _ :=
      Paths.Path.concat (r := (⟨lc.current, m.next, m.clock, m.code⟩ : TransitionRecord)) h hedge
    exact hconcat
  · exact h

/-- Every lifecycle's history is a legal path to where it stands. -/
theorem Reached.legal (h : Reached lc) : Legal lc.log lc.current := by
  induction h with
  | fresh intentId => rfl
  | loaded hload =>
    obtain ⟨hlegal, -, hlog⟩ := fromHistory_eq_ok.mp hload
    rwa [hlog]
  | move m _ ih => exact legal_move ih m

lemma moved_append (lc : IntentLifecycle) (moves moves' : List Move) :
    lc.moved (moves ++ moves') = (lc.moved moves).moved moves' := List.foldl_append

lemma Reached.moved (h : Reached lc) (moves : List Move) : Reached (lc.moved moves) := by
  induction moves generalizing lc with
  | nil => exact h
  | cons m moves ih => exact ih (h.move m)

end IntentLifecycle

end Peal.Actions
