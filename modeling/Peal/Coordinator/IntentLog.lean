import Peal.Coordinator.Ordering
import Peal.Coordinator.Reads

namespace Peal.Coordinator
open Peal.Fallible Peal.Runs

/-! # The event log of intents

A handler changes an intent's row and appends an event, each in a statement of its own. -/

/-! ### Paths -/

section Paths

variable {σ ε : Type} (source target : ε → σ) (can : σ → σ → Bool)

/-- Each event starts where the one before it ended, and makes a move that `can` allows. -/
def Walk : σ → List ε → σ → Prop
  | a, [], b => a = b
  | a, e :: es, b => source e = a ∧ can a (target e) = true ∧ Walk (target e) es b

variable {source target can} {a b : σ} {es : List ε}

lemma Walk.snoc (h : Walk source target can a es b) {e : ε} (hsource : source e = b) (hcan : can b (target e) = true) :
    Walk source target can a (es ++ [e]) (target e) := by
  induction es generalizing a with
  | nil =>
    obtain rfl : a = b := h
    exact ⟨hsource, hcan, rfl⟩
  | cons d es ih =>
    obtain ⟨hd, hcan', hrest⟩ := h
    exact ⟨hd, hcan', ih hrest⟩

lemma Walk.getLast (h : Walk source target can a es b) (hne : es ≠ []) : es.getLast?.map target = some b := by
  induction es generalizing a with
  | nil => exact absurd rfl hne
  | cons d es ih =>
    obtain ⟨-, -, hrest⟩ := h
    cases es with
    | nil => exact congrArg some hrest
    | cons d' es =>
      rw [List.getLast?_cons_cons]
      exact ih hrest (List.cons_ne_nil d' es)

end Paths

/-! ### The handlers -/

/-- A row of `intent_events`. -/
structure EventRow extends IntentEvent where
  intentId : Text
  deriving DecidableEq, Repr

/-- The tables with `intent_events`, in row order. -/
structure IntentLog where
  db : Database
  events : List EventRow

def IntentState.word : IntentState → String
  | .draft => "DRAFT"
  | .sealed => "SEALED"
  | .submitted => "SUBMITTED"
  | .validated => "VALIDATED"
  | .batched => "BATCHED"
  | .orderCommitted => "ORDER_COMMITTED"
  | .collectingShares => "COLLECTING_SHARES"
  | .thresholdReached => "THRESHOLD_REACHED"
  | .revealed => "REVEALED"
  | .quoting => "QUOTING"
  | .quoteValidated => "QUOTE_VALIDATED"
  | .authorizationRequired => "AUTHORIZATION_REQUIRED"
  | .authorized => "AUTHORIZED"
  | .submittedForExecution => "SUBMITTED_FOR_EXECUTION"
  | .confirmed => "CONFIRMED"
  | .settled => "SETTLED"
  | .failed => "FAILED"
  | .expired => "EXPIRED"
  | .cancelled => "CANCELLED"

def illegalTransition (state : IntentState) : ApiError :=
  ⟨409, "ILLEGAL_TRANSITION", s!"cannot authorize from state {state.word}"⟩

def submissionModes : List Text :=
  ["private".toList, "solver".toList, "public-rpc".toList, "simulated".toList]

variable (cfg : EngineConfig)

namespace IntentLog

/-- What `GET /v1/intents/:id/events` serves. -/
def eventsOf (s : IntentLog) (id : Text) : List IntentEvent :=
  (s.events.filter fun r => r.intentId = id).map EventRow.toIntentEvent

def append (s : IntentLog) (id : Text) (from_ to_ : IntentState) (now : Int) : IntentLog :=
  { s with events := s.events ++ [⟨⟨from_, to_, none, now⟩, id⟩] }

/-- `submit_intent` up to its row, the event not yet written. -/
def submitRow (s : IntentLog) (req : SubmitIntent) (now : Int) : Except ApiError (IntentLog × IntentAccepted) := do
  let (db, out) ← Coordinator.submitIntent cfg s.db req now
  return ({ s with db }, out)

def submitIntent (s : IntentLog) (req : SubmitIntent) (now : Int) : Except ApiError (IntentLog × IntentAccepted) := do
  let (s, out) ← submitRow cfg s req now
  return (if out.duplicate then s else s.append req.intentId .sealed .submitted now, out)

/-- `post_authorization` up to its row: the state it found is what the event starts from. -/
def authorizeRow (s : IntentLog) (id authorizationHash signature submissionMode : Text) (now : Int) :
    Except ApiError (IntentLog × IntentState) := do
  require (isHex64 authorizationHash) ⟨400, "BAD_AUTH_HASH", "authorizationHash must be 32 lowercase hex bytes"⟩
  require (submissionMode ∈ submissionModes) ⟨400, "BAD_SUBMISSION_MODE", "unknown submission mode"⟩
  let intent ← expect (s.db.intents.find? fun it => it.id = id) ⟨404, "UNKNOWN_INTENT", "no such intent"⟩
  require (cfg.authorizationSigned authorizationHash signature intent.signer)
    ⟨400, "BAD_SIGNATURE", "authorization signature does not verify for this intent's signer"⟩
  require (now < intent.expiresAt) ⟨409, "EXPIRED", "intent has expired"⟩
  require (canTransition intent.state .authorized) (illegalTransition intent.state)
  let intents := s.db.intents.map fun it =>
    if it.id = id then { it with state := .authorized, authorizationHash := some authorizationHash } else it
  return ({ s with db := { s.db with intents } }, intent.state)

def postAuthorization (s : IntentLog) (id authorizationHash signature submissionMode : Text) (now : Int) :
    Except ApiError IntentLog := do
  let (s, from_) ← authorizeRow cfg s id authorizationHash signature submissionMode now
  return s.append id from_ .authorized now

/-- One turn of the loop, on a row that was read before the loop. -/
def advanceRow (to_ : IntentState) (now : Int) (s : IntentLog) (row : Text × IntentState) : IntentLog :=
  if canTransition row.2 to_ then
    let intents := s.db.intents.map fun it => if it.id = row.1 then { it with state := to_ } else it
    { s with db := { s.db with intents } }.append row.1 row.2 to_ now
  else s

/-- The tables and how many intents have moved. -/
def advanceConditionIntents (s : IntentLog) (conditionId : Text) (to_ : IntentState) (now : Int) : IntentLog × Nat :=
  let rows := (s.db.intents.filter fun it => it.conditionId = conditionId).map fun it => (it.id, it.state)
  (rows.foldl (advanceRow to_ now) s, rows.countP fun row => canTransition row.2 to_)

def recordCommitment (s : IntentLog) (row : BatchCommitment) : IntentLog :=
  { s with db := { s.db with batchCommitments := Coordinator.recordCommitment s.db.batchCommitments row } }

/-- The two requests whole, or stopped between their row and their event; what the freeze does, in its transaction; and
whatever else happens to the other tables. -/
inductive Event where
  | submitIntent (req : SubmitIntent) (now : Int)
  | submitTorn (req : SubmitIntent) (now : Int)
  | postAuthorization (id authorizationHash signature submissionMode : Text) (now : Int)
  | authorizationTorn (id authorizationHash signature submissionMode : Text) (now : Int)
  | advance (conditionId : Text) (to_ : IntentState) (now : Int)
  | recordCommitment (row : BatchCommitment)
  | elsewhere (db : Database)

def step (s : IntentLog) : Event → Except ApiError IntentLog
  | .submitIntent req now => Prod.fst <$> submitIntent cfg s req now
  | .submitTorn req now => Prod.fst <$> submitRow cfg s req now
  | .postAuthorization id authorizationHash signature submissionMode now =>
    postAuthorization cfg s id authorizationHash signature submissionMode now
  | .authorizationTorn id authorizationHash signature submissionMode now =>
    Prod.fst <$> authorizeRow cfg s id authorizationHash signature submissionMode now
  | .advance conditionId to_ now => .ok (advanceConditionIntents s conditionId to_ now).1
  | .recordCommitment row => .ok (recordCommitment s row)
  | .elsewhere db => do
    require (db.intents = s.db.intents) internal
    return { s with db }

def start : IntentLog := ⟨.empty, []⟩

/-- The clock of a step that reads it. -/
def Event.clock : Event → Option Int
  | .submitIntent _ now | .submitTorn _ now | .postAuthorization _ _ _ _ now | .authorizationTorn _ _ _ _ now
  | .advance _ _ now => some now
  | .recordCommitment _ | .elsewhere _ => none

/-- The step stops between the row of this intent and its event. -/
def Event.Tears (id : Text) : Event → Prop
  | .submitTorn req _ => req.intentId = id
  | .authorizationTorn id' _ _ _ _ => id' = id
  | _ => False

/-- The events of an intent are a path from its first state to the state of its row. -/
def Traced (s : IntentLog) (it : Intent) : Prop :=
  Walk IntentEvent.from_ IntentEvent.to_ canTransition .sealed (s.eventsOf it.id) it.state ∧ s.eventsOf it.id ≠ []

end IntentLog

/-- The columns of an intent that no statement changes. -/
def Intent.fixed (it : Intent) : Intent := { it with state := .draft, authorizationHash := none }

/-- A submission under this request's key finds this intent. -/
def SubmitIntent.Finds (req : SubmitIntent) (it : Intent) : Prop :=
  it.signer = req.pseudonymousSigner.map Char.toLower ∧ it.idempotencyKey ≠ none ∧
    it.idempotencyKey = req.idempotencyKey

instance (req : SubmitIntent) : DecidablePred req.Finds :=
  fun it => inferInstanceAs (Decidable (_ ∧ it.idempotencyKey ≠ none ∧ _))

section Proof

variable {cfg : EngineConfig} {s s' : IntentLog} {id : Text}

namespace IntentLog

/-! ### What a step does -/

lemma submitIntent_found {db : Database} {req : SubmitIntent} {now : Int} {x : Intent}
    (hcheck : checkIntent cfg req now = .ok ()) (hx : db.intents.find? req.Finds = some x) :
    Coordinator.submitIntent cfg db req now = .ok (db, ⟨x.id, x.state, true⟩) := by
  simp only [Coordinator.submitIntent, bind_eq_ok]
  refine ⟨(), hcheck, ?_⟩
  split
  · rename_i y hy
    obtain rfl : x = y := Option.some.inj (hx.symm.trans hy)
    rfl
  · rename_i hnone
    exact absurd (hx.symm.trans hnone) (Option.some_ne_none x)

lemma submitIntent_cases {db db' : Database} {req : SubmitIntent} {now : Int} {out : IntentAccepted}
    (h : Coordinator.submitIntent cfg db req now = .ok (db', out)) :
    (∃ x, db.intents.find? req.Finds = some x ∧ db' = db ∧ out = ⟨x.id, x.state, true⟩) ∨
      db.intents.find? req.Finds = none ∧ ∃ it : Intent, it.id = req.intentId ∧
        it.signer = req.pseudonymousSigner.map Char.toLower ∧ it.idempotencyKey = req.idempotencyKey ∧
        it.state = .submitted ∧ db' = { db with intents := db.intents ++ [it] } ∧
        out = ⟨req.intentId, .submitted, false⟩ ∧
        ∀ x ∈ db.intents, x.id ≠ it.id ∧ (x.signer, x.nonce) ≠ (it.signer, it.nonce) := by
  simp only [Coordinator.submitIntent, bind_eq_ok] at h
  obtain ⟨⟨⟩, -, h⟩ := h
  split at h
  · rename_i x hx
    rw [pure_eq_ok, Prod.mk.injEq] at h
    exact .inl ⟨x, hx, h.1.symm, h.2.symm⟩
  · rename_i hnone
    simp only [bind_eq_ok, require_eq_ok, expect_eq_ok, pure_eq_ok, Prod.mk.injEq] at h
    obtain ⟨⟨⟩, -, -, -, ⟨⟩, -, ⟨⟩, hreplay, rfl, rfl⟩ := h
    refine .inr ⟨hnone, _, rfl, rfl, rfl, rfl, rfl, rfl, fun x hx => ?_⟩
    have hfresh : ¬(x.id = req.intentId ∨
        x.signer = req.pseudonymousSigner.map Char.toLower ∧ x.nonce = req.nonce) := by
      intro htaken
      exact hreplay (List.any_eq_true.mpr ⟨x, hx, by simpa using htaken⟩)
    rw [not_or] at hfresh
    exact ⟨hfresh.1, fun heq => hfresh.2 (Prod.mk.inj heq)⟩

/-- One intent makes one move: its row changes, and nothing else of the rows. -/
structure Moved (s s' : IntentLog) (it : Intent) (to_ : IntentState) : Prop where
  known : it ∈ s.db.intents
  edge : canTransition it.state to_ = true
  rows : ∃ hash : Intent → Option Text, s'.db.intents = s.db.intents.map fun x =>
    if x.id = it.id then { x with state := to_, authorizationHash := hash x } else x

/-- The event of a move. -/
def entry (it : Intent) (to_ : IntentState) (now : Int) : EventRow := ⟨⟨it.state, to_, none, now⟩, it.id⟩

lemma authorizeRow_ok {hash signature mode : Text} {now : Int} {from_ : IntentState}
    (h : authorizeRow cfg s id hash signature mode now = .ok (s', from_)) :
    ∃ it, it.id = id ∧ it.state = from_ ∧ now < it.expiresAt ∧ Moved s s' it .authorized ∧ s'.events = s.events := by
  simp only [authorizeRow, bind_eq_ok, require_eq_ok, expect_eq_ok, pure_eq_ok, Prod.mk.injEq] at h
  obtain ⟨⟨⟩, -, ⟨⟩, -, it, hit, ⟨⟩, -, ⟨⟩, hunexpired, ⟨⟩, hcan, rfl, rfl⟩ := h
  have hfound := List.find?_some hit
  have hid : it.id = id := of_decide_eq_true hfound
  subst hid
  exact ⟨it, rfl, rfl, hunexpired, ⟨List.mem_of_find?_eq_some hit, hcan, fun _ => some hash, rfl⟩, rfl⟩

lemma step_cases {e : Event} (h : step cfg s e = .ok s') :
    (s'.db.intents = s.db.intents ∧ s'.events = s.events) ∨
      (∃ it : Intent, ∃ req now, it.id = req.intentId ∧ it.state = .submitted ∧ s'.db.intents = s.db.intents ++ [it] ∧
        (∀ x ∈ s.db.intents, x.id ≠ it.id ∧ (x.signer, x.nonce) ≠ (it.signer, it.nonce)) ∧
        (e = .submitIntent req now ∧ s'.events = s.events ++ [⟨⟨.sealed, .submitted, none, now⟩, it.id⟩] ∨
          e = .submitTorn req now ∧ s'.events = s.events)) ∨
      (∃ it hash signature mode now, now < it.expiresAt ∧ Moved s s' it .authorized ∧
        (e = .postAuthorization it.id hash signature mode now ∧ s'.events = s.events ++ [entry it .authorized now] ∨
          e = .authorizationTorn it.id hash signature mode now ∧ s'.events = s.events)) ∨
      ∃ c to_ now, e = .advance c to_ now ∧ s' = (advanceConditionIntents s c to_ now).1 := by
  cases e with
  | submitIntent req now =>
    simp only [step, submitIntent, submitRow, map_eq_ok, bind_eq_ok, pure_eq_ok, Prod.exists, Prod.mk.injEq] at h
    obtain ⟨s₁, out, ⟨s₂, out', ⟨db, out'', hok, rfl, rfl⟩, rfl, rfl⟩, rfl⟩ := h
    rcases submitIntent_cases hok with ⟨x, -, rfl, rfl⟩ | ⟨-, it, hid, -, -, hstate, rfl, rfl, hfresh⟩
    · exact .inl ⟨rfl, rfl⟩
    · refine .inr (.inl ⟨it, req, now, hid, hstate, rfl, hfresh, .inl ⟨rfl, ?_⟩⟩)
      rw [hid]
      rfl
  | submitTorn req now =>
    simp only [step, submitRow, map_eq_ok, bind_eq_ok, pure_eq_ok, Prod.exists, Prod.mk.injEq] at h
    obtain ⟨s₁, out, ⟨db, out', hok, rfl, rfl⟩, rfl⟩ := h
    rcases submitIntent_cases hok with ⟨x, -, rfl, rfl⟩ | ⟨-, it, hid, -, -, hstate, rfl, rfl, hfresh⟩
    · exact .inl ⟨rfl, rfl⟩
    · exact .inr (.inl ⟨it, req, now, hid, hstate, rfl, hfresh, .inr ⟨rfl, rfl⟩⟩)
  | postAuthorization id hash signature mode now =>
    simp only [step, postAuthorization, bind_eq_ok, pure_eq_ok, Prod.exists] at h
    obtain ⟨s₁, from_, hok, rfl⟩ := h
    obtain ⟨it, rfl, rfl, hunexpired, hmoved, hevents⟩ := authorizeRow_ok hok
    refine .inr (.inr (.inl ⟨it, hash, signature, mode, now, hunexpired, ⟨hmoved.known, hmoved.edge, hmoved.rows⟩,
      .inl ⟨rfl, ?_⟩⟩))
    exact congrArg (· ++ [entry it .authorized now]) hevents
  | authorizationTorn id hash signature mode now =>
    obtain ⟨⟨s₁, from_⟩, hok, rfl⟩ := map_eq_ok.mp h
    obtain ⟨it, rfl, rfl, hunexpired, hmoved, hevents⟩ := authorizeRow_ok hok
    exact .inr (.inr (.inl ⟨it, hash, signature, mode, now, hunexpired, hmoved, .inr ⟨rfl, hevents⟩⟩))
  | advance c to_ now => exact .inr (.inr (.inr ⟨c, to_, now, rfl, (Except.ok.inj h).symm⟩))
  | recordCommitment row =>
    rw [← Except.ok.inj h]
    exact .inl ⟨rfl, rfl⟩
  | elsewhere db =>
    simp only [step, bind_eq_ok, require_eq_ok, pure_eq_ok] at h
    obtain ⟨⟨⟩, hsame, rfl⟩ := h
    exact .inl ⟨hsame, rfl⟩

lemma advance_induct {P : IntentLog → Prop} {to_ : IntentState} {now : Int}
    (hstep : ∀ s s' it, Moved s s' it to_ → s'.events = s.events ++ [entry it to_ now] → P s → P s')
    (hids : (s.db.intents.map Intent.id).Nodup) (hP : P s) (c : Text) :
    P (advanceConditionIntents s c to_ now).1 := by
  have hfold (rows : List (Text × IntentState)) (hnodup : (rows.map Prod.fst).Nodup) (s : IntentLog) (hP : P s)
      (hcurrent : ∀ row ∈ rows, ∃ it ∈ s.db.intents, it.id = row.1 ∧ it.state = row.2) :
      P (rows.foldl (advanceRow to_ now) s) := by
    induction rows generalizing s with
    | nil => exact hP
    | cons row rows ih =>
      obtain ⟨hout, hrest⟩ := List.nodup_cons.mp hnodup
      obtain ⟨it, hit, hid, hstate⟩ := hcurrent row List.mem_cons_self
      obtain ⟨rowId, rowState⟩ := row
      obtain rfl : it.id = rowId := hid
      obtain rfl : it.state = rowState := hstate
      rw [List.foldl_cons]
      by_cases hcan : canTransition it.state to_ = true
      · let next := s.db.intents.map fun x => if x.id = it.id then { x with state := to_ } else x
        have hturn : advanceRow to_ now s (it.id, it.state) =
            { s with db := { s.db with intents := next } }.append it.id it.state to_ now := if_pos hcan
        rw [hturn]
        refine ih hrest _ (hstep s _ it ⟨hit, hcan, Intent.authorizationHash, rfl⟩ rfl hP) fun row' hrow' => ?_
        obtain ⟨x, hx, hxid, hxstate⟩ := hcurrent row' (List.mem_cons_of_mem _ hrow')
        have hne : x.id ≠ it.id := by
          intro heq
          exact hout (List.mem_map.mpr ⟨row', hrow', by rw [← hxid, heq]⟩)
        exact ⟨x, List.mem_map.mpr ⟨x, hx, if_neg hne⟩, hxid, hxstate⟩
      · have hturn : advanceRow to_ now s (it.id, it.state) = s := if_neg hcan
        rw [hturn]
        exact ih hrest s hP fun row' hrow' => hcurrent row' (List.mem_cons_of_mem _ hrow')
  refine hfold _ ?_ s hP fun row hrow => ?_
  · rw [List.map_map]
    exact hids.sublist (List.filter_sublist.map _)
  · obtain ⟨it, hit, rfl⟩ := List.mem_map.mp hrow
    exact ⟨it, List.mem_of_mem_filter hit, rfl, rfl⟩

/-! ### What every step keeps -/

lemma Moved.fixed {it : Intent} {to_ : IntentState} (h : Moved s s' it to_) :
    s'.db.intents.map Intent.fixed = s.db.intents.map Intent.fixed := by
  obtain ⟨hash, hrows⟩ := h.rows
  rw [hrows, List.map_map]
  apply List.map_congr_left
  intro x _
  simp only [Function.comp_apply]
  split_ifs
  · rfl
  · rfl

/-- One intent per id and per nonce of a signer, and no event without its intent. -/
structure Kept (s : IntentLog) : Prop where
  ids : (s.db.intents.map Intent.id).Nodup
  nonces : (s.db.intents.map fun it => (it.signer, it.nonce)).Nodup
  owned : ∀ row ∈ s.events, ∃ it ∈ s.db.intents, it.id = row.intentId

lemma Kept.of_fixed (h : Kept s) (hfixed : s'.db.intents.map Intent.fixed = s.db.intents.map Intent.fixed)
    (howned : ∀ row ∈ s'.events, row ∈ s.events ∨ ∃ it ∈ s.db.intents, it.id = row.intentId) : Kept s' := by
  have hids : s'.db.intents.map Intent.id = s.db.intents.map Intent.id := by
    have heq := congrArg (List.map Intent.id) hfixed
    simpa only [List.map_map, Function.comp_def, Intent.fixed] using heq
  have hnonces : (s'.db.intents.map fun it => (it.signer, it.nonce)) =
      s.db.intents.map fun it => (it.signer, it.nonce) := by
    have heq := congrArg (List.map fun it : Intent => (it.signer, it.nonce)) hfixed
    simpa only [List.map_map, Function.comp_def, Intent.fixed] using heq
  refine ⟨hids ▸ h.ids, hnonces ▸ h.nonces, fun row hrow => ?_⟩
  have hknown : ∃ it ∈ s.db.intents, it.id = row.intentId := (howned row hrow).elim (h.owned row) id
  obtain ⟨it, hit, heq⟩ := hknown
  have hmem : it.id ∈ s'.db.intents.map Intent.id := hids ▸ List.mem_map_of_mem hit
  obtain ⟨it', hit', heq'⟩ := List.mem_map.mp hmem
  exact ⟨it', hit', heq'.trans heq⟩

lemma Kept.moved (h : Kept s) {it : Intent} {to_ : IntentState} (hmoved : Moved s s' it to_) {now : Int}
    (hevents : s'.events = s.events ++ [entry it to_ now] ∨ s'.events = s.events) : Kept s' := by
  refine h.of_fixed hmoved.fixed fun row hrow => ?_
  rcases hevents with heq | heq
  · rw [heq] at hrow
    rcases List.mem_append.mp hrow with hold | hnew
    · exact .inl hold
    · obtain rfl := List.mem_singleton.mp hnew
      exact .inr ⟨it, hmoved.known, rfl⟩
  · exact .inl (heq ▸ hrow)

lemma Kept.added (h : Kept s) {it : Intent} (hrows : s'.db.intents = s.db.intents ++ [it])
    (hfresh : ∀ x ∈ s.db.intents, x.id ≠ it.id ∧ (x.signer, x.nonce) ≠ (it.signer, it.nonce))
    (howned : ∀ row ∈ s'.events, row ∈ s.events ∨ row.intentId = it.id) : Kept s' := by
  have hnodup {β : Type} (f : Intent → β) (hf : (s.db.intents.map f).Nodup)
      (hnew : ∀ x ∈ s.db.intents, f x ≠ f it) : (s'.db.intents.map f).Nodup := by
    rw [hrows, List.map_append]
    refine List.nodup_append.mpr ⟨hf, List.nodup_singleton _, fun a ha b hb hab => ?_⟩
    obtain ⟨x, hx, rfl⟩ := List.mem_map.mp ha
    obtain rfl := List.mem_singleton.mp hb
    exact hnew x hx hab
  refine ⟨hnodup _ h.ids fun x hx => (hfresh x hx).1, hnodup _ h.nonces fun x hx => (hfresh x hx).2,
    fun row hrow => ?_⟩
  rw [hrows]
  rcases howned row hrow with hold | hnew
  · obtain ⟨x, hx, heq⟩ := h.owned row hold
    exact ⟨x, List.mem_append_left _ hx, heq⟩
  · exact ⟨it, List.mem_append_right _ List.mem_cons_self, hnew.symm⟩

theorem Kept.step (h : Kept s) {e : Event} (hstep : IntentLog.step cfg s e = .ok s') : Kept s' := by
  rcases step_cases hstep with ⟨hrows, hevents⟩ | ⟨it, req, now, -, -, hrows, hfresh, hlogged⟩ |
    ⟨it, hash, signature, mode, now, -, hmoved, hlogged⟩ | ⟨c, to_, now, rfl, rfl⟩
  · exact h.of_fixed (by rw [hrows]) fun row hrow => .inl (hevents ▸ hrow)
  · refine h.added hrows hfresh fun row hrow => ?_
    rcases hlogged with ⟨-, heq⟩ | ⟨-, heq⟩
    · rw [heq] at hrow
      rcases List.mem_append.mp hrow with hold | hnew
      · exact .inl hold
      · obtain rfl := List.mem_singleton.mp hnew
        exact .inr rfl
    · exact .inl (heq ▸ hrow)
  · exact @Kept.moved _ _ h it _ hmoved now (hlogged.imp And.right And.right)
  · exact advance_induct (fun s s' it hmoved heq hs => hs.moved hmoved (.inl heq)) h.ids h c

lemma step_fixed (h : Kept s) {e : Event} (hstep : IntentLog.step cfg s e = .ok s') :
    s.db.intents.map Intent.fixed <+: s'.db.intents.map Intent.fixed := by
  rcases step_cases hstep with ⟨hrows, -⟩ | ⟨it, -, -, -, -, hrows, -⟩ | ⟨it, -, -, -, -, -, hmoved, -⟩ |
    ⟨c, to_, now, -, rfl⟩
  · rw [hrows]
  · rw [hrows, List.map_append]
    exact List.prefix_append _ _
  · rw [hmoved.fixed]
  · refine advance_induct (P := fun s' => s.db.intents.map Intent.fixed <+: s'.db.intents.map Intent.fixed)
      (fun s₁ s₂ it hmoved _ hbegins => ?_) h.ids (List.prefix_refl _) c
    rw [hmoved.fixed]
    exact hbegins

theorem run_fixed (h : Kept s) (es : List Event) :
    Kept (exec (step cfg) s es) ∧
      s.db.intents.map Intent.fixed <+: (exec (step cfg) s es).db.intents.map Intent.fixed :=
  exec_invariant (step cfg) (I := fun s' => Kept s' ∧ s.db.intents.map Intent.fixed <+: s'.db.intents.map Intent.fixed)
    (fun _ _ _ hs hstep => ⟨hs.1.step hstep, hs.2.trans (step_fixed hs.1 hstep)⟩) ⟨h, List.prefix_refl _⟩ es

lemma kept_start : Kept start :=
  ⟨List.nodup_nil, List.nodup_nil, fun _ hrow => absurd hrow List.not_mem_nil⟩

/-! ### The path of an intent -/

lemma eventsOf_append {row : EventRow} (h : s'.events = s.events ++ [row]) (id : Text) :
    s'.eventsOf id = s.eventsOf id ++ if row.intentId = id then [row.toIntentEvent] else [] := by
  unfold eventsOf
  rw [h, List.filter_append, List.map_append]
  by_cases hid : row.intentId = id <;> simp [hid]

lemma eventsOf_unlogged (h : Kept s) (hid : ∀ x ∈ s.db.intents, x.id ≠ id) : s.eventsOf id = [] := by
  unfold eventsOf
  rw [List.map_eq_nil_iff, List.filter_eq_nil_iff]
  intro row hrow
  obtain ⟨x, hx, heq⟩ := h.owned row hrow
  have hne := hid x hx
  rw [heq] at hne
  simpa using hne

/-- The rows under this id are traced. -/
def Follows (id : Text) (s : IntentLog) : Prop := ∀ it ∈ s.db.intents, it.id = id → Traced s it

lemma Follows.moved (h : Follows id s) (hkept : Kept s) {it : Intent} {to_ : IntentState} {now : Int}
    (hmoved : Moved s s' it to_) (hevents : s'.events = s.events ++ [entry it to_ now]) : Follows id s' := by
  intro x hx hid
  obtain ⟨hash, hrows⟩ := hmoved.rows
  rw [hrows] at hx
  obtain ⟨y, hy, rfl⟩ := List.mem_map.mp hx
  by_cases hyid : y.id = it.id
  · obtain rfl := List.inj_on_of_nodup_map hkept.ids hy hmoved.known hyid
    rw [if_pos rfl] at hid ⊢
    obtain ⟨hwalk, -⟩ := h y hy hid
    have hpath : s'.eventsOf y.id = s.eventsOf y.id ++ [(entry y to_ now).toIntentEvent] := by
      have hown : (entry y to_ now).intentId = y.id := rfl
      rw [eventsOf_append hevents, if_pos hown]
    constructor
    · show Walk _ _ _ _ (s'.eventsOf y.id) to_
      rw [hpath]
      exact hwalk.snoc (e := (entry y to_ now).toIntentEvent) rfl hmoved.edge
    · show s'.eventsOf y.id ≠ []
      rw [hpath]
      exact List.append_ne_nil_of_right_ne_nil _ (List.cons_ne_nil _ _)
  · rw [if_neg hyid] at hid ⊢
    have hpath : s'.eventsOf y.id = s.eventsOf y.id := by
      have hother : (entry it to_ now).intentId ≠ y.id := Ne.symm hyid
      rw [eventsOf_append hevents, if_neg hother, List.append_nil]
    unfold Traced
    rw [hpath]
    exact h y hy hid

lemma Follows.unlogged (h : Follows id s) (hevents : s'.events = s.events)
    (hrows : ∀ x ∈ s'.db.intents, x.id = id → x ∈ s.db.intents) : Follows id s' := by
  intro x hx hid
  have hpath : s'.eventsOf x.id = s.eventsOf x.id := by
    unfold eventsOf
    rw [hevents]
  unfold Traced
  rw [hpath]
  exact h x (hrows x hx hid) hid

lemma Follows.added (h : Follows id s) (hkept : Kept s) {it : Intent} {now : Int}
    (hrows : s'.db.intents = s.db.intents ++ [it]) (hstate : it.state = .submitted)
    (hfresh : ∀ x ∈ s.db.intents, x.id ≠ it.id)
    (hevents : s'.events = s.events ++ [⟨⟨.sealed, .submitted, none, now⟩, it.id⟩]) : Follows id s' := by
  intro x hx hid
  rw [hrows] at hx
  have hpath := eventsOf_append hevents x.id
  rcases List.mem_append.mp hx with hold | hnew
  · rw [if_neg (hfresh x hold).symm, List.append_nil] at hpath
    unfold Traced
    rw [hpath]
    exact h x hold hid
  · obtain rfl := List.mem_singleton.mp hnew
    rw [if_pos rfl, eventsOf_unlogged hkept hfresh, List.nil_append] at hpath
    unfold Traced
    rw [hpath, hstate]
    exact ⟨⟨rfl, rfl, rfl⟩, List.cons_ne_nil _ _⟩

theorem Follows.step (h : Follows id s) (hkept : Kept s) {e : Event} (htears : ¬e.Tears id)
    (hstep : IntentLog.step cfg s e = .ok s') : Follows id s' := by
  rcases step_cases hstep with ⟨hrows, hevents⟩ | ⟨it, req, now, hreq, hstate, hrows, hfresh, hlogged⟩ |
    ⟨it, hash, signature, mode, now, -, hmoved, hlogged⟩ | ⟨c, to_, now, rfl, rfl⟩
  · exact h.unlogged hevents fun x hx _ => hrows ▸ hx
  · rcases hlogged with ⟨-, heq⟩ | ⟨rfl, heq⟩
    · exact h.added hkept hrows hstate (fun x hx => (hfresh x hx).1) heq
    · refine h.unlogged heq fun x hx hid => ?_
      rw [hrows] at hx
      refine (List.mem_append.mp hx).resolve_right fun hnew => htears ?_
      obtain rfl := List.mem_singleton.mp hnew
      exact hreq.symm.trans hid
  · rcases hlogged with ⟨-, heq⟩ | ⟨rfl, heq⟩
    · exact h.moved hkept hmoved heq
    · refine h.unlogged heq fun x hx hid => ?_
      obtain ⟨columns, hrows⟩ := hmoved.rows
      rw [hrows] at hx
      obtain ⟨y, hy, rfl⟩ := List.mem_map.mp hx
      by_cases hyid : y.id = it.id
      · rw [if_pos hyid] at hid
        exact absurd (hyid.symm.trans hid) htears
      · rw [if_neg hyid]
        exact hy
  · refine (advance_induct (P := fun s => Kept s ∧ Follows id s) (fun s s' it hmoved heq hs => ?_) hkept.ids
      ⟨hkept, h⟩ c).2
    exact ⟨hs.1.moved hmoved (.inl heq), hs.2.moved hs.1 hmoved heq⟩

/-! ### Who becomes authorized -/

/-- Every intent authorized after the step was so before it. -/
def NoneAuthorized (s s' : IntentLog) : Prop :=
  ∀ x' ∈ s'.db.intents, x'.state = .authorized → ∃ x ∈ s.db.intents, x.id = x'.id ∧ x.state = .authorized

lemma Moved.noneAuthorized {it : Intent} {to_ : IntentState} (h : Moved s s' it to_) (hto : to_ ≠ .authorized) :
    NoneAuthorized s s' := by
  intro x' hx' hstate
  obtain ⟨hash, hrows⟩ := h.rows
  rw [hrows] at hx'
  obtain ⟨x, hx, rfl⟩ := List.mem_map.mp hx'
  by_cases hid : x.id = it.id
  · rw [if_pos hid] at hstate
    exact absurd hstate hto
  · rw [if_neg hid] at hstate ⊢
    exact ⟨x, hx, rfl, hstate⟩

lemma NoneAuthorized.trans {s₁ s₂ s₃ : IntentLog} (h : NoneAuthorized s₁ s₂) (h' : NoneAuthorized s₂ s₃) :
    NoneAuthorized s₁ s₃ := by
  intro x₃ hx₃ hstate₃
  obtain ⟨x₂, hx₂, hid₂, hstate₂⟩ := h' x₃ hx₃ hstate₃
  obtain ⟨x₁, hx₁, hid₁, hstate₁⟩ := h x₂ hx₂ hstate₂
  exact ⟨x₁, hx₁, hid₁.trans hid₂, hstate₁⟩

/-- Only an authorization within the intent's time makes an intent authorized. -/
theorem authorized_unexpired (h : Kept s) {e : Event} (hstep : step cfg s e = .ok s')
    (hadvance : ∀ c now, e ≠ .advance c .authorized now) {it it' : Intent} (hit : it ∈ s.db.intents)
    (hit' : it' ∈ s'.db.intents) (hid : it'.id = it.id) (hbefore : it.state ≠ .authorized)
    (hafter : it'.state = .authorized) : ∃ now, e.clock = some now ∧ now < it.expiresAt := by
  have hnone : ¬NoneAuthorized s s' := by
    intro hnone
    obtain ⟨x, hx, hxid, hxstate⟩ := hnone it' hit' hafter
    obtain rfl := List.inj_on_of_nodup_map h.ids hx hit (hxid.trans hid)
    exact hbefore hxstate
  rcases step_cases hstep with ⟨hrows, -⟩ | ⟨new, req, now, -, hstate, hrows, -⟩ |
    ⟨moved, hash, signature, mode, now, hunexpired, hmoved, hlogged⟩ | ⟨c, to_, now, rfl, rfl⟩
  · exact absurd (fun x hx hxstate => ⟨x, hrows ▸ hx, rfl, hxstate⟩) hnone
  · refine absurd (fun x hx hxstate => ?_) hnone
    rw [hrows] at hx
    rcases List.mem_append.mp hx with hold | hnew
    · exact ⟨x, hold, rfl, hxstate⟩
    · obtain rfl := List.mem_singleton.mp hnew
      rw [hstate] at hxstate
      cases hxstate
  · obtain ⟨columns, hrows⟩ := hmoved.rows
    rw [hrows] at hit'
    obtain ⟨x, hx, rfl⟩ := List.mem_map.mp hit'
    by_cases hx' : x.id = moved.id
    · rw [if_pos hx'] at hid
      obtain rfl := List.inj_on_of_nodup_map h.ids hx hit hid
      obtain rfl := List.inj_on_of_nodup_map h.ids hx hmoved.known hx'
      refine ⟨now, ?_, hunexpired⟩
      rcases hlogged with ⟨rfl, -⟩ | ⟨rfl, -⟩
      · rfl
      · rfl
    · rw [if_neg hx'] at hid hafter
      obtain rfl := List.inj_on_of_nodup_map h.ids hx hit hid
      exact absurd hafter hbefore
  · have hto : to_ ≠ .authorized := by
      rintro rfl
      exact hadvance c now rfl
    refine absurd (advance_induct (fun s₁ s₂ x hmoved _ hs => ?_) h.ids
      (fun x hx hxstate => ⟨x, hx, rfl, hxstate⟩) c) hnone
    exact hs.trans (hmoved.noneAuthorized hto)

/-! ### Submitting again -/

/-- What the tables keep of a submission that was answered with this id. -/
structure Answered (s : IntentLog) (req : SubmitIntent) (id : Text) : Prop where
  found : req.idempotencyKey ≠ none → (s.db.intents.find? req.Finds).map Intent.id = some id
  taken : req.idempotencyKey = none → ∃ it ∈ s.db.intents, it.id = req.intentId

lemma find?_fixed (rows : List Intent) (req : SubmitIntent) :
    (rows.find? req.Finds).map Intent.id = ((rows.map Intent.fixed).find? req.Finds).map Intent.id := by
  have hsame : (fun it => decide (req.Finds it)) ∘ Intent.fixed = fun it => decide (req.Finds it) := rfl
  rw [List.find?_map, hsame, Option.map_map]
  rfl

lemma Answered.extend {req : SubmitIntent} (h : Answered s req id)
    (hbegins : s.db.intents.map Intent.fixed <+: s'.db.intents.map Intent.fixed) : Answered s' req id := by
  obtain ⟨added, hadded⟩ := hbegins
  constructor
  · intro hkey
    have hfound := h.found hkey
    rw [find?_fixed] at hfound ⊢
    obtain ⟨x, hx, hxid⟩ := Option.map_eq_some_iff.mp hfound
    rw [← hadded, List.find?_append, hx]
    exact congrArg some hxid
  · intro hkey
    obtain ⟨it, hit, hid⟩ := h.taken hkey
    have hmem : it.fixed ∈ s'.db.intents.map Intent.fixed := by
      rw [← hadded]
      exact List.mem_append_left _ (List.mem_map_of_mem hit)
    obtain ⟨it', hit', hfixed⟩ := List.mem_map.mp hmem
    have hcolumns := congrArg Intent.id hfixed
    have hsame : it'.id = it.id := hcolumns
    exact ⟨it', hit', hsame.trans hid⟩

lemma submitIntent_ok_iff {req : SubmitIntent} {now : Int} {out : IntentAccepted} :
    submitIntent cfg s req now = .ok (s', out) ↔ ∃ db, Coordinator.submitIntent cfg s.db req now = .ok (db, out) ∧
      s' = if out.duplicate then { s with db } else { s with db }.append req.intentId .sealed .submitted now := by
  simp only [submitIntent, submitRow, bind_eq_ok, pure_eq_ok, Prod.exists, Prod.mk.injEq]
  constructor
  · rintro ⟨s₁, out₁, ⟨db, out₂, hok, rfl, rfl⟩, rfl, rfl⟩
    exact ⟨db, hok, rfl⟩
  · rintro ⟨db, hok, rfl⟩
    exact ⟨_, out, ⟨db, out, hok, rfl, rfl⟩, rfl, rfl⟩

lemma answered_of_ok {req : SubmitIntent} {now : Int} {out : IntentAccepted}
    (h : submitIntent cfg s req now = .ok (s', out)) : Answered s' req out.intentId := by
  obtain ⟨db, hok, rfl⟩ := submitIntent_ok_iff.mp h
  rcases submitIntent_cases hok with ⟨x, hx, rfl, rfl⟩ | ⟨hnone, it, hid, hsigner, hkey, -, rfl, rfl, -⟩
  · refine ⟨fun _ => congrArg (Option.map Intent.id) hx, fun hnokey => ?_⟩
    have hfinds : req.Finds x := by
      have hfound := List.find?_some hx
      exact of_decide_eq_true hfound
    exact absurd (hfinds.2.2.trans hnokey) hfinds.2.1
  · constructor
    · intro hsome
      show ((s.db.intents ++ [it]).find? req.Finds).map Intent.id = some req.intentId
      have hfinds : req.Finds it := ⟨hsigner, hkey ▸ hsome, hkey⟩
      rw [List.find?_append, hnone, Option.none_or, List.find?_singleton, if_pos (decide_eq_true hfinds)]
      exact congrArg some hid
    · intro _
      exact ⟨it, List.mem_append_right _ List.mem_cons_self, hid⟩

lemma Answered.again {req : SubmitIntent} (h : Answered s req id) {now : Int} {out : IntentAccepted}
    (hok : submitIntent cfg s req now = .ok (s', out)) : s' = s ∧ out.intentId = id := by
  obtain ⟨db, hsubmitted, rfl⟩ := submitIntent_ok_iff.mp hok
  rcases submitIntent_cases hsubmitted with ⟨x, hx, rfl, rfl⟩ | ⟨hnone, it, hid, -, -, -, -, -, hfresh⟩
  · refine ⟨rfl, ?_⟩
    have hkey : req.idempotencyKey ≠ none := by
      have hfound := List.find?_some hx
      have hfinds : req.Finds x := of_decide_eq_true hfound
      exact hfinds.2.2 ▸ hfinds.2.1
    have hsame := h.found hkey
    rw [hx] at hsame
    exact Option.some.inj hsame
  · by_cases hkey : req.idempotencyKey = none
    · obtain ⟨x, hx, hxid⟩ := h.taken hkey
      exact absurd (hxid.trans hid.symm) (hfresh x hx).1
    · have hfound := h.found hkey
      rw [hnone] at hfound
      cases hfound

lemma checkIntent_later {req : SubmitIntent} {now now' : Int} (h : checkIntent cfg req now = .ok ())
    (hlater : now ≤ now') (hunexpired : now' < req.expiresAt) : checkIntent cfg req now' = .ok () := by
  simp only [checkIntent, bind_eq_ok, require_eq_ok] at h ⊢
  obtain ⟨⟨⟩, hversion, ⟨⟩, hid, ⟨⟩, hnonce, ⟨⟩, hhash, ⟨⟩, hkey, ⟨⟩, hsigner, ⟨⟩, hdomain, ⟨⟩, -, ⟨⟩, hcreated, hsigned⟩ := h
  exact ⟨(), hversion, (), hid, (), hnonce, (), hhash, (), hkey, (), hsigner, (), hdomain, (), hunexpired, (),
    by omega, hsigned⟩

lemma Answered.answers {req : SubmitIntent} (h : Answered s req id) (hkey : req.idempotencyKey ≠ none) {now : Int}
    (hcheck : checkIntent cfg req now = .ok ()) :
    ∃ out, submitIntent cfg s req now = .ok (s, out) ∧ out.intentId = id := by
  obtain ⟨x, hx, hid⟩ := Option.map_eq_some_iff.mp (h.found hkey)
  refine ⟨⟨x.id, x.state, true⟩, ?_, hid⟩
  exact submitIntent_ok_iff.mpr ⟨s.db, submitIntent_found hcheck hx, rfl⟩

end IntentLog

/-! ### Every run -/

/-- In every run: the events of an intent are a path from its first state to its row's, unless a step stopped between
the two; a signer has one intent per nonce; an accepted submission that comes again changes nothing, is answered with
its id when it carries its key and is in time, and is never answered with another; and no intent becomes authorized
once it is expired. -/
theorem intent_log_kept (cfg : EngineConfig) (es : List IntentLog.Event) :
    let s := exec (IntentLog.step cfg) IntentLog.start es
    (∀ id, (∀ e ∈ es, ¬e.Tears id) → ∀ it ∈ s.db.intents, it.id = id →
        IntentLog.Traced s it ∧ (s.eventsOf id).getLast?.map IntentEvent.to_ = some it.state) ∧
      (∀ it ∈ s.db.intents, ∀ it' ∈ s.db.intents, it.signer = it'.signer → it.nonce = it'.nonce → it = it') ∧
      (∀ req now s₁ out, IntentLog.submitIntent cfg s req now = .ok (s₁, out) → ∀ later now',
        (∀ s₂ out', IntentLog.submitIntent cfg (exec (IntentLog.step cfg) s₁ later) req now' = .ok (s₂, out') →
          s₂ = exec (IntentLog.step cfg) s₁ later ∧ out'.intentId = out.intentId) ∧
        (req.idempotencyKey ≠ none → now ≤ now' → now' < req.expiresAt →
          ∃ out', IntentLog.submitIntent cfg (exec (IntentLog.step cfg) s₁ later) req now' =
              .ok (exec (IntentLog.step cfg) s₁ later, out') ∧
            out'.intentId = out.intentId)) ∧
      ∀ e s', IntentLog.step cfg s e = .ok s' → (∀ c now, e ≠ .advance c .authorized now) →
        ∀ it ∈ s.db.intents, ∀ it' ∈ s'.db.intents, it'.id = it.id → it.state ≠ .authorized → it'.state = .authorized →
          ∃ now, e.clock = some now ∧ now < it.expiresAt := by
  intro s
  have hkept : IntentLog.Kept s := (IntentLog.run_fixed IntentLog.kept_start es).1
  refine ⟨fun id hwhole it hit hid => ?_, fun it hit it' hit' hsigner hnonce => ?_,
    fun req now s₁ out hok later now' => ?_, fun e s' hstep hadvance it hit it' hit' hid => ?_⟩
  · have hfollows : IntentLog.Follows id s := by
      have halong : Along (IntentLog.step cfg) (fun _ e => ¬e.Tears id) IntentLog.start es :=
        along_of_forall (IntentLog.step cfg) (fun e he _ => hwhole e he) IntentLog.start
      exact (exec_invariant_along (IntentLog.step cfg) (I := fun s => IntentLog.Kept s ∧ IntentLog.Follows id s)
        (fun _ _ _ hs htears hstep => ⟨hs.1.step hstep, hs.2.step hs.1 htears hstep⟩)
        ⟨IntentLog.kept_start, fun it hit => absurd hit List.not_mem_nil⟩ halong).2
    have htraced := hfollows it hit hid
    exact ⟨htraced, hid ▸ htraced.1.getLast htraced.2⟩
  · exact List.inj_on_of_nodup_map hkept.nonces hit hit' (by rw [hsigner, hnonce])
  · have hstep : IntentLog.step cfg s (.submitIntent req now) = .ok s₁ := map_eq_ok.mpr ⟨(s₁, out), hok, rfl⟩
    have hbegins := (@IntentLog.run_fixed cfg s₁ (hkept.step hstep) later).2
    have hanswered := (IntentLog.answered_of_ok hok).extend hbegins
    refine ⟨fun s₂ out' hagain => hanswered.again hagain, fun hkey hlater hunexpired => ?_⟩
    obtain ⟨db, hsubmitted, -⟩ := IntentLog.submitIntent_ok_iff.mp hok
    have hcheck : checkIntent cfg req now = .ok () := by
      simp only [Coordinator.submitIntent, bind_eq_ok] at hsubmitted
      obtain ⟨⟨⟩, hcheck, -⟩ := hsubmitted
      exact hcheck
    exact hanswered.answers hkey (IntentLog.checkIntent_later hcheck hlater hunexpired)
  · exact IntentLog.authorized_unexpired hkept hstep hadvance hit hit' hid

/-- A round with one seal, as the other handlers leave it. -/
def sampleLogTables : Database := { Database.empty with
  conditions := fun c => if c = ['r'] then some sampleCondition else none
  ciphertexts := [⟨ctHash [1], ['r'], [1], false, none, 10, none⟩] }

lemma sample_submitted_twice :
    (IntentLog.submitIntent sampleEngine (exec (IntentLog.step sampleEngine) IntentLog.start [.elsewhere sampleLogTables])
      (sampleIntent "1") 20).toOption.map (fun r =>
        (IntentLog.submitIntent sampleEngine r.1 (sampleIntent "1") 20).toOption.isNone) = some true := by
  decide +kernel

/-- Without a key, the same signed intent is refused when it comes again. -/
theorem resubmission_refused : ¬∀ (cfg : EngineConfig) (es : List IntentLog.Event) (req : SubmitIntent) (now : Int)
    (s₁ : IntentLog) (out : IntentAccepted),
    IntentLog.submitIntent cfg (exec (IntentLog.step cfg) IntentLog.start es) req now = .ok (s₁, out) →
      ∃ out', IntentLog.submitIntent cfg s₁ req now = .ok (s₁, out') ∧ out'.intentId = out.intentId := by
  intro hclaim
  obtain ⟨⟨s₁, out⟩, hfirst, hsecond⟩ := Option.map_eq_some_iff.mp sample_submitted_twice
  obtain ⟨out', hagain, -⟩ := hclaim sampleEngine [.elsewhere sampleLogTables] (sampleIntent "1") 20 s₁ out
    (toOption_eq_some.mp hfirst)
  rw [hagain] at hsecond
  cases hsecond

/-! ### The engine's own runs -/

namespace IntentLog

lemma foldl_advanceRow (to_ : IntentState) (now : Int) (rows : List (Text × IntentState)) (s : IntentLog) :
    (rows.foldl (advanceRow to_ now) s).db.intents = s.db.intents.map fun x =>
      if ∃ row ∈ rows, row.1 = x.id ∧ canTransition row.2 to_ = true then { x with state := to_ } else x := by
  induction rows generalizing s with
  | nil =>
    simp
  | cons row rows ih =>
    have hcons (x : Intent) : (∃ row' ∈ row :: rows, row'.1 = x.id ∧ canTransition row'.2 to_ = true) ↔
        (row.1 = x.id ∧ canTransition row.2 to_ = true) ∨
          ∃ row' ∈ rows, row'.1 = x.id ∧ canTransition row'.2 to_ = true := by
      simp only [List.mem_cons, exists_eq_or_imp]
    rw [List.foldl_cons, ih]
    simp only [hcons]
    by_cases hcan : canTransition row.2 to_ = true
    · have hrows : (advanceRow to_ now s row).db.intents = s.db.intents.map fun x =>
          if x.id = row.1 then { x with state := to_ } else x := by
        rw [advanceRow, if_pos hcan]
        rfl
      rw [hrows, List.map_map]
      apply List.map_congr_left
      intro x _
      simp only [Function.comp_apply]
      by_cases hid : x.id = row.1
      · have hmoves := (hcons x).mp ⟨row, List.mem_cons_self, hid.symm, hcan⟩
        rw [if_pos hid]
        simp only [hmoves, if_true, ite_self]
      · have hne : row.1 ≠ x.id := Ne.symm hid
        rw [if_neg hid]
        simp only [hne, false_and, false_or]
    · have hturn : advanceRow to_ now s row = s := if_neg hcan
      have hstays (x : Intent) : ¬(row.1 = x.id ∧ canTransition row.2 to_ = true) := fun hmoves => hcan hmoves.2
      rw [hturn]
      simp only [hstays, false_or]

/-- The loop over rows read beforehand is the one map over the table. -/
theorem advanceConditionIntents_intents (h : Kept s) (c : Text) (to_ : IntentState) (now : Int) :
    (advanceConditionIntents s c to_ now).1.db.intents = Coordinator.advanceConditionIntents s.db.intents c to_ := by
  unfold advanceConditionIntents Coordinator.advanceConditionIntents
  dsimp only
  rw [foldl_advanceRow]
  apply List.map_congr_left
  intro x hx
  have hread : (∃ row ∈ (s.db.intents.filter fun it => it.conditionId = c).map fun it => (it.id, it.state),
      row.1 = x.id ∧ canTransition row.2 to_ = true) ↔ x.conditionId = c ∧ canTransition x.state to_ = true := by
    constructor
    · rintro ⟨row, hrow, hid, hcan⟩
      obtain ⟨y, hy, rfl⟩ := List.mem_map.mp hrow
      obtain ⟨hmem, hc⟩ := List.mem_filter.mp hy
      obtain rfl := List.inj_on_of_nodup_map h.ids hmem hx hid
      exact ⟨of_decide_eq_true hc, hcan⟩
    · rintro ⟨hc, hcan⟩
      exact ⟨_, List.mem_map_of_mem (List.mem_filter.mpr ⟨hx, decide_eq_true hc⟩), rfl, hcan⟩
  simp only [hread]

lemma authorizeRow_of_ok {hash signature mode : Text} {now : Int} {db : Database}
    (h : Coordinator.postAuthorization cfg s.db id hash signature now = .ok db) (hmode : mode ∈ submissionModes) :
    ∃ s₁, postAuthorization cfg s id hash signature mode now = .ok s₁ ∧ s₁.db = db := by
  simp only [Coordinator.postAuthorization, bind_eq_ok, require_eq_ok, expect_eq_ok, pure_eq_ok] at h
  obtain ⟨⟨⟩, hhash, it, hit, ⟨⟩, hsigned, ⟨⟩, hunexpired, ⟨⟩, hcan, rfl⟩ := h
  let intents := s.db.intents.map fun it =>
    if it.id = id then { it with state := .authorized, authorizationHash := some hash } else it
  have hrow : authorizeRow cfg s id hash signature mode now = .ok ({ s with db := { s.db with intents } }, it.state) := by
    simp only [authorizeRow, bind_eq_ok, require_eq_ok, expect_eq_ok, pure_eq_ok]
    exact ⟨(), hhash, (), hmode, it, hit, (), hsigned, (), hunexpired, (), hcan, rfl⟩
  exact ⟨_, bind_eq_ok.mpr ⟨_, hrow, rfl⟩, rfl⟩

lemma engine_step_logged {es es' : Engine} {e : Engine.Event} (hstep : Engine.step cfg es e = .ok es') (h : Kept s)
    (hdb : s.db = es.db) :
    ∃ later, (∀ ev ∈ later, ∀ id, ¬Event.Tears id ev) ∧ (exec (step cfg) s later).db = es'.db := by
  have helsewhere (s : IntentLog) (db : Database) (hsame : db.intents = s.db.intents) :
      advance (step cfg) s (.elsewhere db) = { s with db } := by
    apply advance_of_ok
    simp only [step, bind_eq_ok, require_eq_ok, pure_eq_ok]
    exact ⟨(), hsame, trivial⟩
  rcases step_intents hstep with hsame | ⟨it, req, now, rfl, -⟩ | ⟨it, hash, signature, now, rfl, -⟩ |
    ⟨frozenAt, committedAt, p, db, f, rfl, hp, hok, rfl⟩
  · refine ⟨[.elsewhere es'.db], by simp [Event.Tears], ?_⟩
    rw [exec_cons, exec_nil, helsewhere _ _ (by rw [hsame, hdb])]
  · refine ⟨[.submitIntent req now], by simp [Event.Tears], ?_⟩
    simp only [Engine.step] at hstep
    split at hstep
    · rename_i db out hok
      obtain rfl := Except.ok.inj hstep
      rw [← hdb] at hok
      have hlogged := submitIntent_ok_iff.mpr ⟨db, hok, rfl⟩
      rw [exec_cons, exec_nil, advance_of_ok (step cfg) (map_eq_ok.mpr ⟨_, hlogged, rfl⟩)]
      dsimp only
      split_ifs
      · rfl
      · rfl
    · cases hstep
  · refine ⟨[.postAuthorization it.id hash signature "private".toList now], by simp [Event.Tears], ?_⟩
    simp only [Engine.step] at hstep
    split at hstep
    · rename_i db hok
      obtain rfl := Except.ok.inj hstep
      rw [← hdb] at hok
      have hmode : "private".toList ∈ submissionModes := by decide
      obtain ⟨s₁, hlogged, hs₁⟩ := authorizeRow_of_ok hok hmode
      have hnext : step cfg s (.postAuthorization it.id hash signature "private".toList now) = .ok s₁ := hlogged
      rw [exec_cons, exec_nil, advance_of_ok (step cfg) hnext]
      exact hs₁
    · cases hstep
  · obtain ⟨-, -, -, -, -, -, -, -, hintents, -⟩ := freezeWrite_eq_ok hok
    have hadvance (s : IntentLog) (hs : Kept s) (to_ : IntentState) :
        Kept (advance (step cfg) s (.advance p.conditionId to_ frozenAt)) ∧
          (advance (step cfg) s (.advance p.conditionId to_ frozenAt)).db.intents =
            Coordinator.advanceConditionIntents s.db.intents p.conditionId to_ := by
      have hnext : step cfg s (.advance p.conditionId to_ frozenAt) =
          .ok (advanceConditionIntents s p.conditionId to_ frozenAt).1 := rfl
      rw [advance_of_ok (step cfg) hnext]
      exact ⟨hs.step hnext, advanceConditionIntents_intents hs p.conditionId to_ frozenAt⟩
    refine ⟨[.advance p.conditionId .validated frozenAt, .advance p.conditionId .batched frozenAt,
      .advance p.conditionId .orderCommitted frozenAt, .elsewhere db], by simp [Event.Tears], ?_⟩
    obtain ⟨hkept₁, hrows₁⟩ := hadvance s h .validated
    obtain ⟨hkept₂, hrows₂⟩ := hadvance _ hkept₁ .batched
    obtain ⟨-, hrows₃⟩ := hadvance _ hkept₂ .orderCommitted
    rw [exec_cons, exec_cons, exec_cons, exec_cons, exec_nil, helsewhere]
    rw [hintents, hrows₃, hrows₂, hrows₁, hdb]
    rfl

/-- The tables of every run of the engine are those of a run of the log in which no step is torn. -/
theorem engine_run_logged (cfg : EngineConfig) (es : List Engine.Event) :
    ∃ later, (∀ ev ∈ later, ∀ id, ¬Event.Tears id ev) ∧
      (exec (step cfg) start later).db = (exec (Engine.step cfg) Engine.start es).db := by
  refine exec_invariant (Engine.step cfg) (I := fun s => ∃ later, (∀ ev ∈ later, ∀ id, ¬Event.Tears id ev) ∧
    (exec (step cfg) start later).db = s.db) (fun s e s' hlogged hstep => ?_)
    ⟨[], fun _ hev => absurd hev List.not_mem_nil, rfl⟩ es
  obtain ⟨later, hwhole, hdb⟩ := hlogged
  obtain ⟨next, hnext, hdb'⟩ := engine_step_logged hstep (run_fixed kept_start later).1 hdb
  refine ⟨later ++ next, fun ev hev => ?_, by rw [exec_append, hdb']⟩
  rcases List.mem_append.mp hev with hold | hnew
  · exact hwhole ev hold
  · exact hnext ev hnew

end IntentLog

end Proof

end Peal.Coordinator
