import Peal.Coordinator.Rounds
import Peal.Library.Runs

namespace Peal.Coordinator
open Peal.Fallible Peal.Runs

/-! # Requests in flight

Each handler takes the database lock several times; between two of its locked steps any other handler, the
engine or a crash may come. -/

inductive Body where
  | round (req : CreateRound)
  | auction (req : CreateAuction)
  | loneSeal (req : CreateLoneSeal)
  deriving DecidableEq

structure Request where
  header : Option Text
  body : Body
  deriving DecidableEq

def Request.key (r : Request) : Option Text := idempotencyKey r.header

/-- What `create_round` is called with. -/
def Body.roundRequest : Body → CreateRound
  | .round req => req
  | .auction req => req.round
  | .loneSeal req => req.round

inductive Created where
  | round (status : Nat) (body : RoundJson)
  | auction (body : AuctionJson)
  | loneSeal (id : Text) (round : RoundJson)
  deriving DecidableEq

def Created.roundId : Created → Text
  | .round _ body => body.id
  | .auction body => body.round.id
  | .loneSeal _ json => json.id

/-- How far a handler is: `fresh` found no key, `created` has inserted its round but not yet recorded the key,
`rounded` holds what `create_round` answered, `ruled` has written the rules of its auction. -/
inductive Stage where
  | arrived
  | fresh
  | created (body : RoundJson)
  | rounded (body : RoundJson)
  | ruled (id : Text)
  | answered (answer : Except Problem Created)
  | lost
  deriving DecidableEq

/-- A handler, with the round it created and whether its key had already brought an answer when it arrived. -/
structure Handler where
  request : Request
  stage : Stage
  round : Option Text
  retry : Bool
  deriving DecidableEq

structure Service where
  db : Database
  handlers : List Handler

def Service.start (db : Database) : Service := ⟨db, []⟩

/-- The end of `create_round`: its caller goes on with what it answered. -/
def afterRound (body : Body) (status : Nat) (json : RoundJson) : Stage :=
  match body with
  | .round _ => .answered (.ok (.round status json))
  | .auction _ | .loneSeal _ => .rounded json

section Steps

variable (cfg : Config) (origin : Text)

/-- What a request is checked for before the first lock. -/
def precheck : Body → Except Problem Unit
  | .auction req => discard (auctionRules cfg req)
  | .round _ | .loneSeal _ => .ok ()

/-- The lookup of the key. -/
def lookup (db : Database) (r : Request) (now : Int) : Stage :=
  match precheck cfg r.body with
  | .error e => .answered (.error e)
  | .ok () =>
    match r.key with
    | none => .fresh
    | some key =>
      if 200 < key.length then .answered (.error keyTooLong)
      else
        match replay db now key (requestFingerprint cfg r.body.roundRequest) with
        | .fresh => .fresh
        | .same existing => afterRound r.body 200 existing
        | .different => .answered (.error keyReused)

/-- What follows `create_round` in the composite endpoints. -/
def compose (db : Database) (body : Body) (json : RoundJson) (now : Int) (draw : Text) : Database × Stage :=
  match body with
  | .round _ => (db, .answered (.ok (.round 200 json)))
  | .auction req =>
    match auctionRules cfg req with
    | .ok rules => (insertAuction db json.id rules, .ruled json.id)
    | .error e => (db, .answered (.error e))
  | .loneSeal req =>
    match createSeal cfg db json.id req.ciphertextB64 now draw with
    | .ok (db', id, _) => (db', .answered (.ok (.loneSeal id json)))
    | .error e => (db, .answered (.error e))

/-- One locked step of a handler, at the clock `now` and with the identifier it draws if it draws one. -/
def handle (db : Database) (h : Handler) (now : Int) (draw : Text) : Option (Database × Handler) :=
  match h.stage with
  | .arrived => some (db, { h with stage := lookup cfg db h.request now })
  | .fresh =>
    match insertRound cfg h.request.body.roundRequest db now draw with
    | .error e => some (db, { h with stage := .answered (.error e) })
    | .ok (db', json) =>
      match h.request.key with
      | none => some (db', { h with stage := afterRound h.request.body 201 json, round := some draw })
      | some _ => some (db', { h with stage := .created json, round := some draw })
  | .created json =>
    match h.request.key with
    | none => none
    | some key =>
      some (remember db key json.id json (requestFingerprint cfg h.request.body.roundRequest) json.createdAt,
        { h with stage := afterRound h.request.body 201 json })
  | .rounded json =>
    let (db', stage) := compose cfg db h.request.body json now draw
    some (db', { h with stage })
  | .ruled id => some (db, { h with stage := .answered ((auctionJson cfg origin db id).map .auction) })
  | .answered _ | .lost => none

def Stage.succeeded : Stage → Bool
  | .answered (.ok _) => true
  | _ => false

/-- A handler of a process that died: what it had answered stays answered. -/
def Handler.crash (h : Handler) : Handler :=
  match h.stage with
  | .answered _ => h
  | _ => { h with stage := .lost }

inductive Event where
  | arrive (request : Request)
  | proceed (i : Nat) (now : Int) (draw : Text)
  | crash
  | engine (id : Text) (status : Status)
  | createCondition (id : Text) (row : Condition)
  | registerCommittee (row : Committee)
  | createSeal (roundId ciphertextB64 : Text) (now : Int) (code : Text)

/-- Whether a request of the same key has been answered with a success. -/
def Service.answeredBefore (s : Service) (r : Request) : Bool :=
  s.handlers.any fun h => h.request.key = r.key && h.stage.succeeded

/-- One event; the error says that there is no such step. -/
def step (s : Service) : Event → Except Unit Service
  | .arrive r => .ok { s with handlers := s.handlers ++ [⟨r, .arrived, none, s.answeredBefore r⟩] }
  | .proceed i now draw => do
    let h ← expect s.handlers[i]? ()
    let (db, h') ← expect (handle cfg origin s.db h now draw) ()
    return ⟨db, s.handlers.set i h'⟩
  | .crash => .ok { s with handlers := s.handlers.map Handler.crash }
  | .engine id status => .ok { s with db := s.db.setStatus id status }
  | .createCondition id row => do
    require (s.db.conditions id = none ∧ row.status = .pending) ()
    return { s with db := s.db.insertCondition id row }
  | .registerCommittee row => .ok { s with db := { s.db with committees := s.db.committees ++ [row] } }
  | .createSeal roundId ciphertextB64 now code =>
    match Coordinator.createSeal cfg s.db roundId ciphertextB64 now code with
    | .ok (db, _) => .ok { s with db }
    | .error _ => .error ()

end Steps

/-! ### What each step leaves of the rounds -/

section Effects

variable {cfg : Config} {origin : Text} {db db' : Database} {s s' : Service}

lemma insertRound_eq_ok {req : CreateRound} {now : Int} {id : Text} {json : RoundJson}
    (h : insertRound cfg req db now id = .ok (db', json)) :
    db.conditions id = none ∧ json.id = id ∧ json.createdAt = now ∧ ∃ row : Condition, row.status = .pending ∧
      db' = db.insertCondition id row := by
  simp only [insertRound, bind_eq_ok, expect_eq_ok, require_eq_ok, pure_eq_ok, Prod.mk.injEq] at h
  obtain ⟨tag, -, show_, -, committeeId, -, kind, -, ⟨⟩, hfresh, rfl, rfl⟩ := h
  exact ⟨hfresh, rfl, rfl, _, rfl, rfl⟩

lemma insertSeal_same (ctHash roundId : Text) (blob : Bytes) (now : Int) (code : Text) :
    ∃ rows, insertSeal db ctHash roundId blob now code = { db with ciphertexts := rows } := by
  unfold insertSeal
  split_ifs
  · exact ⟨_, rfl⟩
  · exact ⟨_, rfl⟩

lemma createSeal_eq_ok {roundId b64 : Text} {now : Int} {code : Text} {out : Text × Nat}
    (h : createSeal cfg db roundId b64 now code = .ok (db', out)) :
    (∃ rows, db' = { db with ciphertexts := rows }) ∧ (∃ x, sealId cfg b64 = .ok x) ∧
      ∃ c, db.conditions roundId = some c ∧ c.status = .pending := by
  simp only [createSeal, bind_eq_ok, expect_eq_ok, require_eq_ok, pure_eq_ok, Prod.mk.injEq] at h
  obtain ⟨⟨id, blob⟩, hid, c, hc, ⟨⟩, hpending, rfl, -⟩ := h
  exact ⟨insertSeal_same id roundId blob now code, ⟨_, hid⟩, c, hc, hpending⟩

/-- Every round is kept, with its status alone free to change. -/
def KeepsRounds (db db' : Database) : Prop :=
  ∀ id c, db.conditions id = some c → ∃ status, db'.conditions id = some { c with status }

lemma KeepsRounds.refl (db : Database) : KeepsRounds db db := fun _ c h => ⟨c.status, h⟩

lemma KeepsRounds.trans {db'' : Database} (h : KeepsRounds db db') (h' : KeepsRounds db' db'') :
    KeepsRounds db db'' := by
  intro id c hc
  obtain ⟨status, hc'⟩ := h id c hc
  exact h' id { c with status } hc'

lemma KeepsRounds.ne_none (h : KeepsRounds db db') {id : Text} (hid : db.conditions id ≠ none) :
    db'.conditions id ≠ none := by
  obtain ⟨c, hc⟩ := Option.ne_none_iff_exists'.mp hid
  obtain ⟨status, hc'⟩ := h id c hc
  rw [hc']
  exact Option.some_ne_none _

lemma keepsRounds_of_same (h : db'.conditions = db.conditions) : KeepsRounds db db' :=
  fun _ c hc => ⟨c.status, by rw [h, hc]⟩

lemma keepsRounds_insert {id : Text} {row : Condition} (hfresh : db.conditions id = none) :
    KeepsRounds db (db.insertCondition id row) := by
  intro x c hc
  have hne : x ≠ id := by
    rintro rfl
    rw [hfresh] at hc
    cases hc
  exact ⟨c.status, by rw [Database.insertCondition_conditions, Function.update_of_ne hne, hc]⟩

lemma keepsRounds_setStatus (id : Text) (status : Status) : KeepsRounds db (db.setStatus id status) := by
  intro x c hc
  rw [Database.setStatus_conditions]
  by_cases hx : x = id
  · subst hx
    exact ⟨status, by rw [Function.update_self, hc]; rfl⟩
  · exact ⟨c.status, by rw [Function.update_of_ne hx, hc]⟩

lemma compose_cases (cfg : Config) (db : Database) (body : Body) (json : RoundJson) (now : Int) (draw : Text) :
    (∃ req rules, body = .auction req ∧ auctionRules cfg req = .ok rules ∧
      compose cfg db body json now draw = (insertAuction db json.id rules, .ruled json.id)) ∨
    ((∀ req rules, body = .auction req → auctionRules cfg req ≠ .ok rules) ∧
      ∃ rows answer, compose cfg db body json now draw = ({ db with ciphertexts := rows }, .answered answer)) := by
  cases body with
  | round req =>
    refine .inr ⟨?_, _, _, rfl⟩
    rintro req' rules ⟨⟩
  | auction req =>
    simp only [compose]
    cases hrules : auctionRules cfg req with
    | ok rules => exact .inl ⟨req, rules, rfl, hrules, rfl⟩
    | error e =>
      refine .inr ⟨fun req' rules heq hok => ?_, _, _, rfl⟩
      obtain rfl := Body.auction.inj heq
      rw [hrules] at hok
      cases hok
  | loneSeal req =>
    simp only [compose]
    cases hseal : createSeal cfg db json.id req.ciphertextB64 now draw with
    | ok x =>
      obtain ⟨db', id, status⟩ := x
      obtain ⟨⟨rows, rfl⟩, -⟩ := createSeal_eq_ok hseal
      refine .inr ⟨?_, _, _, rfl⟩
      rintro req' rules ⟨⟩
    | error e =>
      refine .inr ⟨?_, _, _, rfl⟩
      rintro req' rules ⟨⟩

lemma afterRound_cases (body : Body) (status : Nat) (json : RoundJson) :
    (∃ req, body = .round req ∧ afterRound body status json = .answered (.ok (.round status json))) ∨
      afterRound body status json = .rounded json := by
  cases body with
  | round req => exact .inl ⟨req, rfl, rfl⟩
  | auction req => exact .inr rfl
  | loneSeal req => exact .inr rfl

lemma lookup_cases (cfg : Config) (db : Database) {r : Request} {key : Text} (now : Int) (hkey : r.key = some key) :
    (∃ e, precheck cfg r.body = .error e ∧ lookup cfg db r now = .answered (.error e)) ∨
    (200 < key.length ∧ lookup cfg db r now = .answered (.error keyTooLong)) ∨
    precheck cfg r.body = .ok () ∧ key.length ≤ 200 ∧
      ((lookup cfg db r now = .fresh ∧
          ∀ row, db.idempotency key = some row → ¬now - row.createdAt < IDEMPOTENCY_TTL_SECS) ∨
        ∃ row, db.idempotency key = some row ∧ now - row.createdAt < IDEMPOTENCY_TTL_SECS ∧
          ((lookup cfg db r now = afterRound r.body 200 row.responseJson ∧
              ∀ hash, row.requestHash = some hash → hash = requestFingerprint cfg r.body.roundRequest) ∨
            lookup cfg db r now = .answered (.error keyReused) ∧
              ∃ hash, row.requestHash = some hash ∧ hash ≠ requestFingerprint cfg r.body.roundRequest)) := by
  unfold lookup
  cases hpre : precheck cfg r.body with
  | error e => exact .inl ⟨e, rfl, rfl⟩
  | ok u =>
    rw [hkey]
    dsimp only
    by_cases hlong : 200 < key.length
    · exact .inr (.inl ⟨hlong, by rw [if_pos hlong]⟩)
    · refine .inr (.inr ⟨rfl, not_lt.mp hlong, ?_⟩)
      rw [if_neg hlong]
      unfold replay
      cases hrow : db.idempotency key with
      | none =>
        refine .inl ⟨rfl, ?_⟩
        rintro row ⟨⟩
      | some row =>
        dsimp only
        by_cases hlive : now - row.createdAt < IDEMPOTENCY_TTL_SECS
        · refine .inr ⟨row, rfl, hlive, ?_⟩
          rw [if_pos hlive]
          cases hhash : row.requestHash with
          | none =>
            refine .inl ⟨rfl, ?_⟩
            rintro hash ⟨⟩
          | some hash =>
            by_cases heq : hash = requestFingerprint cfg r.body.roundRequest
            · exact .inl ⟨by simp [heq], fun x hx => (Option.some.inj hx).symm.trans heq⟩
            · exact .inr ⟨by simp [heq], hash, rfl, heq⟩
        · refine .inl ⟨by rw [if_neg hlive], fun row' hrow' => ?_⟩
          obtain rfl := Option.some.inj hrow'
          exact hlive

lemma handle_cases {h h' : Handler} {now : Int} {draw : Text}
    (hstep : handle cfg origin db h now draw = some (db', h')) :
    (h.stage = .arrived ∧ db' = db ∧ h' = { h with stage := lookup cfg db h.request now }) ∨
    (h.stage = .fresh ∧ db' = db ∧ ∃ e, h' = { h with stage := .answered (.error e) }) ∨
    (h.stage = .fresh ∧ ∃ json, insertRound cfg h.request.body.roundRequest db now draw = .ok (db', json) ∧
      h' = { h with
        stage := if h.request.key = none then afterRound h.request.body 201 json else .created json
        round := some draw }) ∨
    (∃ json key, h.stage = .created json ∧ h.request.key = some key ∧
      db' = remember db key json.id json (requestFingerprint cfg h.request.body.roundRequest) json.createdAt ∧
      h' = { h with stage := afterRound h.request.body 201 json }) ∨
    (∃ json, h.stage = .rounded json ∧ db' = (compose cfg db h.request.body json now draw).1 ∧
      h' = { h with stage := (compose cfg db h.request.body json now draw).2 }) ∨
    ∃ id, h.stage = .ruled id ∧ db' = db ∧
      h' = { h with stage := .answered ((auctionJson cfg origin db id).map .auction) } := by
  cases hstage : h.stage with
  | arrived =>
    simp only [handle, hstage, Option.some.injEq, Prod.mk.injEq] at hstep
    exact .inl ⟨rfl, hstep.1.symm, hstep.2.symm⟩
  | fresh =>
    simp only [handle, hstage] at hstep
    cases hins : insertRound cfg h.request.body.roundRequest db now draw with
    | error e =>
      rw [hins] at hstep
      simp only [Option.some.injEq, Prod.mk.injEq] at hstep
      exact .inr (.inl ⟨rfl, hstep.1.symm, e, hstep.2.symm⟩)
    | ok x =>
      obtain ⟨db₁, json⟩ := x
      rw [hins] at hstep
      refine .inr (.inr (.inl ⟨rfl, json, ?_⟩))
      cases hkey : h.request.key with
      | none =>
        simp only [hkey, Option.some.injEq, Prod.mk.injEq] at hstep
        obtain ⟨rfl, rfl⟩ := hstep
        exact ⟨rfl, by rw [if_pos rfl]⟩
      | some key =>
        simp only [hkey, Option.some.injEq, Prod.mk.injEq] at hstep
        obtain ⟨rfl, rfl⟩ := hstep
        exact ⟨rfl, by rw [if_neg (Option.some_ne_none key)]⟩
  | created json =>
    simp only [handle, hstage] at hstep
    cases hkey : h.request.key with
    | none => simp only [hkey, reduceCtorEq] at hstep
    | some key =>
      simp only [hkey, Option.some.injEq, Prod.mk.injEq] at hstep
      obtain ⟨rfl, rfl⟩ := hstep
      exact .inr (.inr (.inr (.inl ⟨json, key, rfl, rfl, rfl, rfl⟩)))
  | rounded json =>
    simp only [handle, hstage, Option.some.injEq, Prod.mk.injEq] at hstep
    exact .inr (.inr (.inr (.inr (.inl ⟨json, rfl, hstep.1.symm, hstep.2.symm⟩))))
  | ruled id =>
    simp only [handle, hstage, Option.some.injEq, Prod.mk.injEq] at hstep
    exact .inr (.inr (.inr (.inr (.inr ⟨id, rfl, hstep.1.symm, hstep.2.symm⟩))))
  | answered answer => simp only [handle, hstage, reduceCtorEq] at hstep
  | lost => simp only [handle, hstage, reduceCtorEq] at hstep

/-- An event of the coordinator that is no handler's. -/
def Event.elsewhere : Event → Bool
  | .arrive _ | .proceed .. | .crash => false
  | .engine .. | .createCondition .. | .registerCommittee _ | .createSeal .. => true

lemma step_cases {e : Event} (h : step cfg origin s e = .ok s') :
    (∃ r, e = .arrive r ∧ s' = { s with handlers := s.handlers ++ [⟨r, .arrived, none, s.answeredBefore r⟩] }) ∨
    (∃ i now draw hd db' hd', e = .proceed i now draw ∧ s.handlers[i]? = some hd ∧
      handle cfg origin s.db hd now draw = some (db', hd') ∧ s' = ⟨db', s.handlers.set i hd'⟩) ∨
    (e = .crash ∧ s' = { s with handlers := s.handlers.map Handler.crash }) ∨
    (e.elsewhere = true ∧ s'.handlers = s.handlers ∧ s'.db.auctions = s.db.auctions ∧
      s'.db.idempotency = s.db.idempotency ∧ KeepsRounds s.db s'.db) := by
  cases e with
  | arrive r => exact .inl ⟨r, rfl, (Except.ok.inj h).symm⟩
  | proceed i now draw =>
    simp only [step, bind_eq_ok, expect_eq_ok, pure_eq_ok] at h
    obtain ⟨hd, hget, ⟨db', hd'⟩, hhandle, rfl⟩ := h
    exact .inr (.inl ⟨i, now, draw, hd, db', hd', rfl, hget, hhandle, rfl⟩)
  | crash => exact .inr (.inr (.inl ⟨rfl, (Except.ok.inj h).symm⟩))
  | engine id status =>
    obtain rfl := Except.ok.inj h
    exact .inr (.inr (.inr ⟨rfl, rfl, rfl, rfl, keepsRounds_setStatus id status⟩))
  | createCondition id row =>
    simp only [step, bind_eq_ok, require_eq_ok, pure_eq_ok] at h
    obtain ⟨⟨⟩, ⟨hfresh, -⟩, rfl⟩ := h
    exact .inr (.inr (.inr ⟨rfl, rfl, rfl, rfl, keepsRounds_insert hfresh⟩))
  | registerCommittee row =>
    obtain rfl := Except.ok.inj h
    exact .inr (.inr (.inr ⟨rfl, rfl, rfl, rfl, keepsRounds_of_same rfl⟩))
  | createSeal roundId b64 now code =>
    simp only [step] at h
    cases hseal : createSeal cfg s.db roundId b64 now code with
    | error e =>
      rw [hseal] at h
      cases h
    | ok x =>
      obtain ⟨db', out⟩ := x
      rw [hseal] at h
      obtain rfl := Except.ok.inj h
      obtain ⟨⟨rows, rfl⟩, -⟩ := createSeal_eq_ok hseal
      exact .inr (.inr (.inr ⟨rfl, rfl, rfl, rfl, keepsRounds_of_same rfl⟩))

lemma handle_keepsRounds {h h' : Handler} {now : Int} {draw : Text}
    (hhandle : handle cfg origin db h now draw = some (db', h')) : KeepsRounds db db' := by
  rcases handle_cases hhandle with ⟨-, rfl, -⟩ | ⟨-, rfl, -⟩ | ⟨-, json, hins, -⟩ | ⟨json, key, -, -, rfl, -⟩ |
    ⟨json, -, rfl, -⟩ | ⟨id, -, rfl, -⟩
  · exact KeepsRounds.refl _
  · exact KeepsRounds.refl _
  · obtain ⟨hfresh, -, -, row, -, rfl⟩ := insertRound_eq_ok hins
    exact keepsRounds_insert hfresh
  · exact keepsRounds_of_same rfl
  · apply keepsRounds_of_same
    rcases compose_cases cfg db h.request.body json now draw with ⟨_, _, -, -, heq⟩ | ⟨-, _, _, heq⟩
    · rw [heq]
      rfl
    · rw [heq]
  · exact KeepsRounds.refl _

lemma step_keepsRounds {e : Event} (h : step cfg origin s e = .ok s') : KeepsRounds s.db s'.db := by
  rcases step_cases h with ⟨r, -, rfl⟩ | ⟨i, now, draw, hd, db', hd', -, -, hhandle, rfl⟩ | ⟨-, rfl⟩ |
    ⟨-, -, -, -, hkeeps⟩
  · exact KeepsRounds.refl _
  · exact handle_keepsRounds hhandle
  · exact KeepsRounds.refl _
  · exact hkeeps

end Effects

end Peal.Coordinator
