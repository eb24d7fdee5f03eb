import Peal.Coordinator.AuctionRules

namespace Peal.Coordinator
open Peal.Fallible Peal.Runs

/-! # One key, one round -/

section Statement

variable (cfg : Config) (k : Text)

/-- All requests of the key create one round at most, every success names the same round, and no request that
comes after a success is answered with an error. -/
structure OncePerKey (s : Service) : Prop where
  oneRound : ∀ (i j : Nat) (h h' : Handler), s.handlers[i]? = some h → s.handlers[j]? = some h' →
    h.request.key = some k → h'.request.key = some k → h.round ≠ none → h'.round ≠ none → i = j
  sameRound : ∀ h ∈ s.handlers, ∀ h' ∈ s.handlers, h.request.key = some k → h'.request.key = some k →
    ∀ a a', h.stage = .answered (.ok a) → h'.stage = .answered (.ok a') → a.roundId = a'.roundId
  retries : ∀ h ∈ s.handlers, h.request.key = some k → h.retry = true → ∀ e, h.stage ≠ .answered (.error e)

/-- Every request of the key has the same body. -/
def SameBody (b : Body) (events : List Event) : Prop := ∀ r, Event.arrive r ∈ events → r.key = some k → r.body = b

/-- A row that the key had before the run has expired, and one written in the run has not. -/
def Lifetime (old : Option IdempotencyRow) (s : Service) : Event → Prop
  | .proceed i now _ => ∀ h row, s.handlers[i]? = some h → h.stage = .arrived → h.request.key = some k →
      s.db.idempotency k = some row → (now - row.createdAt < IDEMPOTENCY_TTL_SECS ↔ some row ≠ old)
  | _ => True

/-- No lookup of the key while another of its requests stands between its own lookup and its `remember`, no crash
between a creation and its `remember`, and no lone seal retried after its round has closed. -/
def Undisturbed (s : Service) : Event → Prop
  | .proceed i _ _ => ∀ h, s.handlers[i]? = some h → h.request.key = some k →
      (h.stage = .arrived → ∀ h' ∈ s.handlers, h'.request.key = some k →
        h'.stage ≠ .fresh ∧ ∀ json, h'.stage ≠ .created json) ∧
      ∀ json req c, h.stage = .rounded json → h.request.body = .loneSeal req → h.retry = true →
        s.db.conditions json.id = some c → c.status = .pending
  | .crash => ∀ h ∈ s.handlers, h.request.key = some k → ∀ json, h.stage ≠ .created json
  | _ => True

end Statement

section Invariant

/-- The round a handler answers with, or is going to. -/
def Stage.roundId : Stage → Option Text
  | .rounded json => some json.id
  | .ruled id => some id
  | .answered (.ok a) => some a.roundId
  | _ => none

/-- Whether a handler is past the lookup of its key. -/
def Stage.past : Stage → Bool
  | .arrived | .answered (.error _) | .lost => false
  | _ => true

variable (cfg : Config) (k : Text) (b : Body) (old : Option IdempotencyRow)

/-- The key's row was written in this run. -/
def New (db : Database) (row : IdempotencyRow) : Prop := db.idempotency k = some row ∧ some row ≠ old

/-- What the requests of the key are checked for whatever the state is. -/
structure Passes : Prop where
  checked : precheck cfg b = .ok ()
  short : k.length ≤ 200

def Seals : Prop := ∀ req, b = .loneSeal req → ∃ x, sealId cfg req.ciphertextB64 = .ok x

/-- What holds of each handler of the key. -/
structure Good (db : Database) (h : Handler) : Prop where
  body : h.request.body = b
  waiting : h.stage = .fresh ∨ (∃ json, h.stage = .created json) → db.idempotency k = old
  creating : ∀ json, h.stage = .created json →
    db.conditions json.id ≠ none ∧ ∀ row, old = some row → row.roundId ≠ json.id
  creator : ∀ json, h.stage = .created json → h.round ≠ none
  recorded : h.round ≠ none → (∃ json, h.stage = .created json) ∨ ∃ row, New k old db row
  carries : ∀ id, h.stage.roundId = some id → ∃ row, New k old db row ∧ row.responseJson.id = id
  ruled : ∀ id, h.stage = .ruled id → db.auctions id ≠ none ∧ Seals cfg b
  passed : h.stage.past = true → Passes cfg k b
  seals : h.stage.succeeded = true → Seals cfg b
  retried : h.retry = true → (∃ row, New k old db row) ∧ Passes cfg k b ∧ Seals cfg b
  retries : h.retry = true → ∀ e, h.stage ≠ .answered (.error e)

/-- What holds of the requests of the key together. -/
structure Keyed (s : Service) : Prop where
  good : ∀ h ∈ s.handlers, h.request.key = some k → Good cfg k b old s.db h
  stored : ∀ row, old = some row → s.db.conditions row.roundId ≠ none
  unwritten : s.db.idempotency k = old ∨ ∃ row, New k old s.db row
  row : ∀ row, New k old s.db row → row.requestHash = some (requestFingerprint cfg b.roundRequest) ∧
    s.db.conditions row.responseJson.id ≠ none
  creator : ∀ (i j : Nat) (h h' : Handler), s.handlers[i]? = some h → s.handlers[j]? = some h' →
    h.request.key = some k → h'.request.key = some k → h.stage = .fresh ∨ h.round ≠ none →
      h'.stage = .fresh ∨ h'.round ≠ none → i = j

end Invariant

section Proof

variable {cfg : Config} {origin : Text} {k : Text} {b : Body} {old : Option IdempotencyRow} {s s' : Service}
  {db db' : Database} {h h' : Handler}

lemma New.row_eq {row row' : IdempotencyRow} (hrow : New k old db row) (hrow' : New k old db row') : row = row' :=
  Option.some.inj (hrow.1.symm.trans hrow'.1)

lemma New.not_old {row : IdempotencyRow} (hrow : New k old db row) : db.idempotency k ≠ old := by
  rw [hrow.1]
  exact hrow.2

theorem Keyed.once (hs : Keyed cfg k b old s) : OncePerKey k s where
  oneRound i j h h' hi hj hk hk' hr hr' := hs.creator i j h h' hi hj hk hk' (.inr hr) (.inr hr')
  sameRound h hmem h' hmem' hk hk' a a' ha ha' := by
    obtain ⟨row, hrow, heq⟩ := (hs.good h hmem hk).carries a.roundId (by rw [ha]; rfl)
    obtain ⟨row', hrow', heq'⟩ := (hs.good h' hmem' hk').carries a'.roundId (by rw [ha']; rfl)
    rw [← heq, ← heq', hrow.row_eq hrow']
  retries h hmem hk := (hs.good h hmem hk).retries

/-! ### Steps that are not of the key -/

lemma Good.mono (hg : Good cfg k b old db h) (hrow : db'.idempotency k = db.idempotency k)
    (hkeeps : KeepsRounds db db') (hauctions : ∀ id, db.auctions id ≠ none → db'.auctions id ≠ none) :
    Good cfg k b old db' h where
  body := hg.body
  waiting hst := hrow.trans (hg.waiting hst)
  creating json hst := ⟨hkeeps.ne_none (hg.creating json hst).1, (hg.creating json hst).2⟩
  creator := hg.creator
  recorded hr := (hg.recorded hr).imp id fun ⟨row, hnew⟩ => ⟨row, hrow.trans hnew.1, hnew.2⟩
  carries id hid := by
    obtain ⟨row, hnew, heq⟩ := hg.carries id hid
    exact ⟨row, ⟨hrow.trans hnew.1, hnew.2⟩, heq⟩
  ruled id hst := (hg.ruled id hst).imp (hauctions id) fun hseals => hseals
  passed := hg.passed
  seals := hg.seals
  retried hr := by
    obtain ⟨⟨row, hnew⟩, hpasses⟩ := hg.retried hr
    exact ⟨⟨row, hrow.trans hnew.1, hnew.2⟩, hpasses⟩
  retries := hg.retries

lemma Good.written (hg : Good cfg k b old db h) (hold : db.idempotency k = old)
    (hwait : ¬(h.stage = .fresh ∨ ∃ json, h.stage = .created json)) {db' : Database}
    (hauctions : ∀ id, db.auctions id ≠ none → db'.auctions id ≠ none) : Good cfg k b old db' h where
  body := hg.body
  waiting hst := absurd hst hwait
  creating json hst := absurd (.inr ⟨json, hst⟩) hwait
  creator := hg.creator
  recorded hr := by
    rcases hg.recorded hr with hc | ⟨row, hnew⟩
    · exact absurd (.inr hc) hwait
    · exact absurd hold hnew.not_old
  carries id hid := by
    obtain ⟨row, hnew, -⟩ := hg.carries id hid
    exact absurd hold hnew.not_old
  ruled id hst := (hg.ruled id hst).imp (hauctions id) fun hseals => hseals
  passed := hg.passed
  seals := hg.seals
  retried hr := by
    obtain ⟨⟨row, hnew⟩, -⟩ := hg.retried hr
    exact absurd hold hnew.not_old
  retries := hg.retries

lemma Keyed.move (hs : Keyed cfg k b old s) {i : Nat} (hget : s.handlers[i]? = some h)
    (hrequest : h'.request = h.request) (hrow : db'.idempotency k = s.db.idempotency k)
    (hkeeps : KeepsRounds s.db db') (hauctions : ∀ id, s.db.auctions id ≠ none → db'.auctions id ≠ none)
    (hgood : h.request.key = some k → Good cfg k b old db' h')
    (hcreator : h.request.key = some k → h'.stage = .fresh ∨ h'.round ≠ none →
      (h.stage = .fresh ∨ h.round ≠ none) ∨ ∀ x ∈ s.handlers, x.request.key = some k →
        ¬(x.stage = .fresh ∨ x.round ≠ none)) :
    Keyed cfg k b old ⟨db', s.handlers.set i h'⟩ where
  good x hx hkey := by
    rcases List.mem_or_eq_of_mem_set hx with hmem | rfl
    · exact (hs.good x hmem hkey).mono hrow hkeeps hauctions
    · exact hgood (hrequest ▸ hkey)
  stored row hrow' := hkeeps.ne_none (hs.stored row hrow')
  unwritten := hs.unwritten.imp hrow.trans fun ⟨row, hnew⟩ => ⟨row, hrow.trans hnew.1, hnew.2⟩
  row row hnew := by
    obtain ⟨hhash, hround⟩ := hs.row row ⟨hrow.symm.trans hnew.1, hnew.2⟩
    exact ⟨hhash, hkeeps.ne_none hround⟩
  creator := by
    have hlt := (List.getElem?_eq_some_iff.mp hget).1
    -- the handler that moved against any other one
    have hother : ∀ (j : Nat) (x : Handler), j ≠ i → s.handlers[j]? = some x → x.request.key = some k →
        x.stage = .fresh ∨ x.round ≠ none → h.request.key = some k → ¬(h'.stage = .fresh ∨ h'.round ≠ none) := by
      intro j x hj hx hkx hcx hk hc'
      rcases hcreator hk hc' with hc | hnone
      · exact hj (hs.creator j i x h hx hget hkx hk hcx hc)
      · exact hnone x (List.mem_of_getElem? hx) hkx hcx
    intro j j' x x' hx hx' hkx hkx' hcx hcx'
    dsimp only at hx hx'
    by_cases hj : j = i
    · by_cases hj' : j' = i
      · exact hj.trans hj'.symm
      · subst hj
        rw [List.getElem?_set_self hlt] at hx
        rw [List.getElem?_set_ne (Ne.symm hj')] at hx'
        obtain rfl := Option.some.inj hx
        exact absurd hcx (hother j' x' hj' hx' hkx' hcx' (hrequest ▸ hkx))
    · rw [List.getElem?_set_ne (Ne.symm hj)] at hx
      by_cases hj' : j' = i
      · subst hj'
        rw [List.getElem?_set_self hlt] at hx'
        obtain rfl := Option.some.inj hx'
        exact absurd hcx' (hother j x hj hx hkx hcx (hrequest ▸ hkx'))
      · rw [List.getElem?_set_ne (Ne.symm hj')] at hx'
        exact hs.creator j j' x x' hx hx' hkx hkx' hcx hcx'

lemma handle_idempotency {now : Int} {draw : Text} (hhandle : handle cfg origin db h now draw = some (db', h'))
    (hst : h.request.key = some k → ∀ json, h.stage ≠ .created json) : db'.idempotency k = db.idempotency k := by
  rcases handle_cases hhandle with ⟨-, rfl, -⟩ | ⟨-, rfl, -⟩ | ⟨-, json, hins, -⟩ | ⟨json, key, hstage, hkey, rfl, -⟩ |
    ⟨json, -, rfl, -⟩ | ⟨id, -, rfl, -⟩
  · rfl
  · rfl
  · obtain ⟨-, -, -, row, -, rfl⟩ := insertRound_eq_ok hins
    rfl
  · have hne : k ≠ key := by
      rintro rfl
      exact hst hkey json hstage
    exact Function.update_of_ne hne _ _
  · rcases compose_cases cfg db h.request.body json now draw with ⟨_, _, -, -, heq⟩ | ⟨-, _, _, heq⟩
    · rw [heq]
      rfl
    · rw [heq]
  · rfl

lemma handle_auctions_ne {now : Int} {draw : Text} (hhandle : handle cfg origin db h now draw = some (db', h'))
    {id : Text} (hid : db.auctions id ≠ none) : db'.auctions id ≠ none := by
  rcases handle_auctions hhandle with hsame | ⟨json, req, rules, -, -, -, hdb⟩
  · rwa [hsame]
  · rw [hdb]
    by_cases hx : id = json.id
    · subst hx
      rw [Function.update_self]
      exact Option.some_ne_none _
    · rwa [Function.update_of_ne hx]

lemma handle_request {now : Int} {draw : Text} (hhandle : handle cfg origin db h now draw = some (db', h')) :
    h'.request = h.request := by
  rcases handle_cases hhandle with ⟨-, -, rfl⟩ | ⟨-, -, e, rfl⟩ | ⟨-, json, -, rfl⟩ | ⟨json, key, -, -, -, rfl⟩ |
    ⟨json, -, -, rfl⟩ | ⟨id, -, -, rfl⟩
  all_goals rfl

/-! ### Steps of the key's handlers -/

lemma Good.fails (hg : Good cfg k b old db h) (e : Problem) (hretry : h.retry = false)
    (hst : ∀ json, h.stage ≠ .created json) : Good cfg k b old db { h with stage := .answered (.error e) } where
  body := hg.body
  waiting hst' := by simp at hst'
  creating json hst' := by simp at hst'
  creator json hst' := by simp at hst'
  recorded hr := by
    rcases hg.recorded hr with ⟨json, hc⟩ | hnew
    · exact absurd hc (hst json)
    · exact .inr hnew
  carries id hid := by simp [Stage.roundId] at hid
  ruled id hst' := by simp at hst'
  passed hp := by simp [Stage.past] at hp
  seals hok := by simp [Stage.succeeded] at hok
  retried hr := by simp [hretry] at hr
  retries hr := by simp [hretry] at hr

lemma Good.holds (hg : Good cfg k b old db h) (hpasses : Passes cfg k b) {row : IdempotencyRow} (hnew : New k old db row)
    {stage : Stage} (hround : stage.roundId = some row.responseJson.id)
    (hruled : ∀ id, stage = .ruled id → db.auctions id ≠ none ∧ Seals cfg b) (hseals : stage.succeeded = true → Seals cfg b) :
    Good cfg k b old db { h with stage } where
  body := hg.body
  waiting hst := by
    rcases hst with rfl | ⟨json, rfl⟩
    · cases hround
    · cases hround
  creating json hst := by
    subst hst
    cases hround
  creator json hst := by
    subst hst
    cases hround
  recorded _ := .inr ⟨row, hnew⟩
  carries id hid := ⟨row, hnew, Option.some.inj (hround.symm.trans hid)⟩
  ruled := hruled
  passed _ := hpasses
  seals := hseals
  retried := hg.retried
  retries hr e hst := by
    subst hst
    cases hround

lemma afterRound_facts (body : Body) (status : Nat) (json : RoundJson) :
    (afterRound body status json).roundId = some json.id ∧ (∀ id, afterRound body status json ≠ .ruled id) ∧
      ((afterRound body status json).succeeded = true → ∃ req, body = .round req) := by
  rcases afterRound_cases body status json with ⟨req, hbody, heq⟩ | heq
  · rw [heq]
    exact ⟨rfl, fun id => by simp, fun _ => ⟨req, hbody⟩⟩
  · rw [heq]
    exact ⟨rfl, fun id => by simp, fun hok => by simp [Stage.succeeded] at hok⟩

lemma seals_round {req : CreateRound} (hb : b = .round req) : Seals cfg b := by
  intro req' hreq
  rw [hb] at hreq
  cases hreq

lemma Keyed.lookup (hs : Keyed cfg k b old s) {i : Nat} {now : Int} {draw : Text} (hget : s.handlers[i]? = some h)
    (hkey : h.request.key = some k) (hstage : h.stage = .arrived)
    (hlife : Lifetime k old s (.proceed i now draw)) (hcond : Undisturbed k s (.proceed i now draw)) :
    Good cfg k b old s.db { h with stage := lookup cfg s.db h.request now } ∧
      (lookup cfg s.db h.request now = .fresh →
        ∀ x ∈ s.handlers, x.request.key = some k → ¬(x.stage = .fresh ∨ x.round ≠ none)) := by
  have hg := hs.good h (List.mem_of_getElem? hget) hkey
  have hcreated : ∀ json, h.stage ≠ .created json := fun json => by simp [hstage]
  have hfail (e : Problem) (hretry : h.retry = false) (hlook : Coordinator.lookup cfg s.db h.request now = .answered (.error e)) :
      Good cfg k b old s.db { h with stage := Coordinator.lookup cfg s.db h.request now } ∧
        (Coordinator.lookup cfg s.db h.request now = .fresh →
          ∀ x ∈ s.handlers, x.request.key = some k → ¬(x.stage = .fresh ∨ x.round ≠ none)) := by
    rw [hlook]
    exact ⟨hg.fails e hretry hcreated, fun hfresh => by simp at hfresh⟩
  rcases lookup_cases cfg s.db now hkey with ⟨e, herror, hlook⟩ | ⟨hlong, hlook⟩ | ⟨hpre, hshort, hrest⟩
  · refine hfail e (Bool.eq_false_iff.mpr fun hretry => ?_) hlook
    rw [hg.body, (hg.retried hretry).2.1.checked] at herror
    cases herror
  · refine hfail _ (Bool.eq_false_iff.mpr fun hretry => ?_) hlook
    have hshort := (hg.retried hretry).2.1.short
    omega
  · rw [hg.body] at hpre
    have hpasses : Passes cfg k b := ⟨hpre, hshort⟩
    rcases hrest with ⟨hlook, hdead⟩ | ⟨row, hrow, hlive, hreplayed⟩
    · -- a row of this run would be alive, so the key is unwritten
      have hnone : ∀ row, ¬New k old s.db row := fun row hnew =>
        hdead row hnew.1 ((hlife h row hget hstage hkey hnew.1).mpr hnew.2)
      have hold : s.db.idempotency k = old := hs.unwritten.elim id fun ⟨row, hnew⟩ => absurd hnew (hnone row)
      have hretry : ¬h.retry = true := fun hretry => (hg.retried hretry).1.elim hnone
      rw [hlook]
      refine ⟨⟨hg.body, fun _ => hold, fun json hst => by simp at hst, fun json hst => by simp at hst, fun hr => ?_, fun id hid => by simp [Stage.roundId] at hid,
        fun id hst => by simp at hst, fun _ => hpasses, fun hok => by simp [Stage.succeeded] at hok,
        fun hr => absurd hr hretry, fun hr => absurd hr hretry⟩, fun _ x hx hkx hcx => ?_⟩
      · rcases hg.recorded hr with ⟨json, hc⟩ | ⟨row, hnew⟩
        · exact absurd hc (hcreated json)
        · exact absurd hnew (hnone row)
      · obtain ⟨hfresh, hnot⟩ := (hcond h hget hkey).1 hstage x hx hkx
        rcases hcx with hx' | hround
        · exact hfresh hx'
        · rcases (hs.good x hx hkx).recorded hround with ⟨json, hc⟩ | ⟨row, hnew⟩
          · exact hnot json hc
          · exact hnone row hnew
    · have hnew : New k old s.db row := ⟨hrow, (hlife h row hget hstage hkey hrow).mp hlive⟩
      rw [hg.body] at hreplayed
      rcases hreplayed with ⟨hlook, -⟩ | ⟨-, hash, hhash, hne⟩
      · obtain ⟨hround, hruled, hok⟩ := afterRound_facts b 200 row.responseJson
        rw [hlook]
        refine ⟨hg.holds hpasses hnew hround (fun id hst => absurd hst (hruled id)) fun hsucc => ?_, fun hfresh => ?_⟩
        · obtain ⟨req, hb⟩ := hok hsucc
          exact seals_round hb
        · rw [hfresh] at hround
          cases hround
      · rw [(hs.row row hnew).1] at hhash
        exact absurd (Option.some.inj hhash).symm hne

lemma Keyed.insert (hs : Keyed cfg k b old s) {i : Nat} {now : Int} {draw : Text} (hget : s.handlers[i]? = some h)
    (hkey : h.request.key = some k) (hstage : h.stage = .fresh) {json : RoundJson}
    (hins : insertRound cfg h.request.body.roundRequest s.db now draw = .ok (db', json)) :
    Good cfg k b old db' { h with stage := .created json, round := some draw } := by
  have hg := hs.good h (List.mem_of_getElem? hget) hkey
  have hold : s.db.idempotency k = old := hg.waiting (.inl hstage)
  have hretry : ¬h.retry = true := fun hretry => (hg.retried hretry).1.elim fun row hnew => hnew.not_old hold
  obtain ⟨hfresh, hid, -, row, -, rfl⟩ := insertRound_eq_ok hins
  refine ⟨hg.body, fun _ => hold, fun json' hst => ?_, fun _ _ => Option.some_ne_none _, fun _ => .inl ⟨json, rfl⟩, fun id hid => by simp [Stage.roundId] at hid,
    fun id hst => by simp at hst, fun _ => hg.passed (by rw [hstage]; rfl), fun hok => by simp [Stage.succeeded] at hok,
    fun hr => absurd hr hretry, fun hr => absurd hr hretry⟩
  obtain rfl : json = json' := by simpa using hst
  refine ⟨by simp [hid], fun row' hrow' heq => hs.stored row' hrow' ?_⟩
  rw [heq, hid, hfresh]

lemma Keyed.compose (hs : Keyed cfg k b old s) {i : Nat} {now : Int} {draw : Text} (hget : s.handlers[i]? = some h)
    (hkey : h.request.key = some k) {json : RoundJson} (hstage : h.stage = .rounded json)
    (hcond : Undisturbed k s (.proceed i now draw)) :
    Good cfg k b old (compose cfg s.db h.request.body json now draw).1
      { h with stage := (compose cfg s.db h.request.body json now draw).2 } := by
  have hg := hs.good h (List.mem_of_getElem? hget) hkey
  obtain ⟨row, hnew, hrow⟩ := hg.carries json.id (by rw [hstage]; rfl)
  have hpasses := hg.passed (by rw [hstage]; rfl)
  have hcreated : ∀ json, h.stage ≠ .created json := fun json => by simp [hstage]
  have hround := (hs.row row hnew).2
  rw [hrow] at hround
  have hbody := hg.body
  rw [hbody]
  cases b with
  | round req =>
    have hanswer : (Stage.answered (.ok (.round 200 json))).roundId = some row.responseJson.id := by
      rw [hrow]
      rfl
    refine hg.holds hpasses hnew hanswer ?_ fun _ => seals_round rfl
    rintro id ⟨⟩
  | auction req =>
    have hpre := hpasses.checked
    simp only [precheck] at hpre
    simp only [Coordinator.compose]
    cases hrules : auctionRules cfg req with
    | error e =>
      rw [hrules] at hpre
      cases hpre
    | ok rules =>
      have hkept : Good cfg k (.auction req) old (insertAuction s.db json.id rules) h := by
        refine hg.mono rfl (keepsRounds_of_same rfl) fun id hid => ?_
        by_cases hx : id = json.id
        · simp [insertAuction, hx]
        · simpa [insertAuction, Function.update_of_ne hx] using hid
      refine hkept.holds hpasses hnew (by rw [hrow]; rfl) (fun id hst => ⟨?_, ?_⟩)
        fun hok => by simp [Stage.succeeded] at hok
      · obtain rfl : json.id = id := by simpa using hst
        simp [insertAuction]
      · rintro req' ⟨⟩
  | loneSeal req =>
    simp only [Coordinator.compose]
    cases hseal : createSeal cfg s.db json.id req.ciphertextB64 now draw with
    | ok x =>
      obtain ⟨db', id, status⟩ := x
      obtain ⟨⟨rows, rfl⟩, hid, -⟩ := createSeal_eq_ok hseal
      have hkept : Good cfg k (.loneSeal req) old { s.db with ciphertexts := rows } h :=
        hg.mono rfl (keepsRounds_of_same rfl) fun _ hid => hid
      refine hkept.holds hpasses hnew (by rw [hrow]; rfl) (fun id hst => by simp at hst) fun _ req' hreq => ?_
      obtain rfl := Body.loneSeal.inj hreq
      exact hid
    | error e =>
      refine hg.fails e (Bool.eq_false_iff.mpr fun hretry => ?_) hcreated
      -- the body was sealed before and the round is still open
      obtain ⟨x, hx⟩ := (hg.retried hretry).2.2 req rfl
      obtain ⟨c, hc⟩ := Option.ne_none_iff_exists'.mp hround
      have hpending := (hcond h hget hkey).2 json req c hstage hbody hretry hc
      simp [createSeal, hx, hc, hpending, expect, require, bind, Except.bind, pure, Except.pure] at hseal

lemma Keyed.answer (hs : Keyed cfg k b old s) (hmem : h ∈ s.handlers) (hkey : h.request.key = some k) {id : Text}
    (hstage : h.stage = .ruled id) :
    Good cfg k b old s.db { h with stage := .answered ((auctionJson cfg origin s.db id).map .auction) } := by
  have hg := hs.good h hmem hkey
  obtain ⟨row, hnew, hrow⟩ := hg.carries id (by rw [hstage]; rfl)
  have hround := (hs.row row hnew).2
  rw [hrow] at hround
  obtain ⟨c, hc⟩ := Option.ne_none_iff_exists'.mp hround
  obtain ⟨status, seals, slots, openedAt, hload⟩ := loadRound_eq hc
  obtain ⟨rules, hrules⟩ := Option.ne_none_iff_exists'.mp (hg.ruled id hstage).1
  have hok : ∃ a, auctionJson cfg origin s.db id = .ok a ∧ a.round.id = id := by
    unfold auctionJson
    rw [hload, hrules]
    exact ⟨_, rfl, rfl⟩
  obtain ⟨a, ha, hid⟩ := hok
  rw [ha]
  refine hg.holds (hg.passed (by rw [hstage]; rfl)) hnew ?_ (fun id hst => by simp [Except.map] at hst) fun _ => ?_
  · rw [hrow]
    exact congrArg some hid
  · exact (hg.ruled id hstage).2

lemma Keyed.remember (hs : Keyed cfg k b old s) {i : Nat} (hget : s.handlers[i]? = some h)
    (hkey : h.request.key = some k) {json : RoundJson} (hstage : h.stage = .created json) :
    Keyed cfg k b old
      ⟨remember s.db k json.id json (requestFingerprint cfg h.request.body.roundRequest) json.createdAt,
        s.handlers.set i { h with stage := afterRound h.request.body 201 json }⟩ := by
  have hlt := (List.getElem?_eq_some_iff.mp hget).1
  have hg := hs.good h (List.mem_of_getElem? hget) hkey
  have hold : s.db.idempotency k = old := hg.waiting (.inr ⟨json, hstage⟩)
  have hround := hg.creator json hstage
  obtain ⟨hid, hfresh⟩ := hg.creating json hstage
  have hpasses := hg.passed (by rw [hstage]; rfl)
  have hretry : ¬h.retry = true := fun hretry => (hg.retried hretry).1.elim fun row hnew => hnew.not_old hold
  have hother : ∀ (j : Nat) (x : Handler), j ≠ i → s.handlers[j]? = some x → x.request.key = some k →
      ¬(x.stage = .fresh ∨ x.round ≠ none) := fun j x hj hx hkx hcx =>
    hj (hs.creator j i x h hx hget hkx hkey hcx (.inr hround))
  let row : IdempotencyRow := ⟨json.id, json, json.createdAt, some (requestFingerprint cfg b.roundRequest)⟩
  have hdb : Coordinator.remember s.db k json.id json (requestFingerprint cfg h.request.body.roundRequest) json.createdAt =
      { s.db with idempotency := Function.update s.db.idempotency k (some row) } := by
    rw [hg.body]
    rfl
  have hnew : New k old { s.db with idempotency := Function.update s.db.idempotency k (some row) } row :=
    ⟨Function.update_self .., fun heq => hfresh row heq.symm rfl⟩
  obtain ⟨hafter, hruled, hok⟩ := afterRound_facts h.request.body 201 json
  rw [hdb]
  refine ⟨fun x hx hkx => ?_, hs.stored, .inr ⟨row, hnew⟩, fun row' hnew' => ?_, ?_⟩
  · obtain ⟨j, hj⟩ := List.mem_iff_getElem?.mp hx
    dsimp only at hj
    by_cases hji : j = i
    · subst hji
      rw [List.getElem?_set_self hlt] at hj
      obtain rfl := Option.some.inj hj
      refine ⟨hg.body, fun hst => ?_, fun json' hst => ?_, fun _ _ => hround, fun _ => .inr ⟨row, hnew⟩,
        fun id hid' => ⟨row, hnew, Option.some.inj (hafter.symm.trans hid')⟩, fun id hst => absurd hst (hruled id),
        fun _ => hpasses, fun hsucc => ?_, fun hr => absurd hr hretry, fun hr => absurd hr hretry⟩
      · dsimp only at hst
        rcases hst with hst | ⟨json', hst⟩
        · rw [hst] at hafter
          cases hafter
        · rw [hst] at hafter
          cases hafter
      · dsimp only at hst
        rw [hst] at hafter
        cases hafter
      · obtain ⟨req, hreq⟩ := hok hsucc
        exact seals_round (hg.body.symm.trans hreq)
    · rw [List.getElem?_set_ne (Ne.symm hji)] at hj
      have hx' := hs.good x (List.mem_of_getElem? hj) hkx
      refine hx'.written hold (fun hwait => hother j x hji hj hkx ?_) fun _ hid' => hid'
      exact hwait.imp id fun ⟨json', hst⟩ => hx'.creator json' hst
  · obtain rfl := hnew'.row_eq hnew
    exact ⟨rfl, hid⟩
  · intro j j' x x' hx hx' hkx hkx' hcx hcx'
    dsimp only at hx hx'
    have hat : ∀ (m : Nat) (y : Handler), (s.handlers.set i { h with stage := afterRound h.request.body 201 json })[m]? = some y →
        y.request.key = some k → y.stage = .fresh ∨ y.round ≠ none → m = i := by
      intro m y hy hky hcy
      by_contra hm
      rw [List.getElem?_set_ne (Ne.symm hm)] at hy
      exact hother m y hm hy hky hcy
    exact (hat j x hx hkx hcx).trans (hat j' x' hx' hkx' hcx').symm

lemma Keyed.handle (hs : Keyed cfg k b old s) {i : Nat} {now : Int} {draw : Text} (hget : s.handlers[i]? = some h)
    (hhandle : handle cfg origin s.db h now draw = some (db', h')) (hlife : Lifetime k old s (.proceed i now draw))
    (hcond : Undisturbed k s (.proceed i now draw)) : Keyed cfg k b old ⟨db', s.handlers.set i h'⟩ := by
  have hkeeps := handle_keepsRounds hhandle
  have hauctions : ∀ id, s.db.auctions id ≠ none → db'.auctions id ≠ none := fun _ => handle_auctions_ne hhandle
  have hrequest := handle_request hhandle
  by_cases hkey : h.request.key = some k
  swap
  · exact hs.move hget hrequest (handle_idempotency hhandle fun hk => absurd hk hkey) hkeeps hauctions
      (fun hk => absurd hk hkey) fun hk => absurd hk hkey
  have hrow := handle_idempotency (k := k) hhandle
  rcases handle_cases hhandle with ⟨hstage, rfl, rfl⟩ | ⟨hstage, rfl, e, rfl⟩ | ⟨hstage, json, hins, rfl⟩ |
    ⟨json, key, hstage, hkey', rfl, rfl⟩ | ⟨json, hstage, rfl, rfl⟩ | ⟨id, hstage, rfl, rfl⟩
  · obtain ⟨hgood, hfresh⟩ := hs.lookup hget hkey hstage hlife hcond
    refine hs.move hget rfl rfl hkeeps hauctions (fun _ => hgood) fun _ hc => ?_
    exact hc.elim (fun hst => .inr (hfresh hst)) fun hr => .inl (.inr hr)
  · have hg := hs.good h (List.mem_of_getElem? hget) hkey
    have hretry : h.retry = false := Bool.eq_false_iff.mpr fun hretry =>
      (hg.retried hretry).1.elim fun row hnew => hnew.not_old (hg.waiting (.inl hstage))
    refine hs.move hget rfl rfl hkeeps hauctions (fun _ => hg.fails e hretry fun json => by simp [hstage]) fun _ hc => ?_
    exact .inl (.inl hstage)
  · rw [if_neg (by rw [hkey]; exact Option.some_ne_none k)] at hrequest ⊢
    exact hs.move hget rfl (hrow fun _ json => by simp [hstage]) hkeeps hauctions
      (fun _ => hs.insert hget hkey hstage hins) fun _ _ => .inl (.inl hstage)
  · obtain rfl := Option.some.inj (hkey.symm.trans hkey')
    exact hs.remember hget hkey hstage
  · refine hs.move hget rfl (hrow fun _ json => by simp [hstage]) hkeeps hauctions
      (fun _ => hs.compose hget hkey hstage hcond) fun _ hc => ?_
    rcases hc with hst | hr
    · rcases compose_cases cfg s.db h.request.body json now draw with ⟨_, _, -, -, heq⟩ | ⟨-, _, _, heq⟩
      · rw [heq] at hst
        cases hst
      · rw [heq] at hst
        cases hst
    · exact .inl (.inr hr)
  · refine hs.move hget rfl rfl hkeeps hauctions (fun _ => hs.answer (List.mem_of_getElem? hget) hkey hstage) fun _ hc => ?_
    exact hc.elim (fun hst => by cases hst) fun hr => .inl (.inr hr)

lemma Keyed.crash (hs : Keyed cfg k b old s) (hcond : Undisturbed k s .crash) :
    Keyed cfg k b old { s with handlers := s.handlers.map Handler.crash } := by
  have hcases : ∀ x : Handler, x.crash = x ∨ x.crash = { x with stage := .lost } := by
    intro x
    unfold Handler.crash
    cases x.stage <;> simp
  refine ⟨fun x hx hkx => ?_, hs.stored, hs.unwritten, hs.row, fun i j x x' hx hx' hkx hkx' hcx hcx' => ?_⟩
  · obtain ⟨y, hy, rfl⟩ := List.mem_map.mp hx
    rcases hcases y with heq | heq
    · rw [heq] at hkx ⊢
      exact hs.good y hy hkx
    · rw [heq] at hkx ⊢
      have hg := hs.good y hy hkx
      refine ⟨hg.body, fun hst => by simp at hst, fun json hst => by simp at hst, fun json hst => by simp at hst, fun hr => ?_,
        fun id hid => by simp [Stage.roundId] at hid, fun id hst => by simp at hst, fun hp => by simp [Stage.past] at hp,
        fun hok => by simp [Stage.succeeded] at hok, hg.retried, fun _ e hst => by simp at hst⟩
      rcases hg.recorded hr with ⟨json, hc⟩ | hnew
      · exact absurd hc (hcond y hy hkx json)
      · exact .inr hnew
  · have hback : ∀ (m : Nat) (z : Handler), (s.handlers.map Handler.crash)[m]? = some z →
        z.request.key = some k → z.stage = .fresh ∨ z.round ≠ none →
          ∃ y, s.handlers[m]? = some y ∧ y.request.key = some k ∧ (y.stage = .fresh ∨ y.round ≠ none) := by
      intro m z hz hkz hcz
      rw [List.getElem?_map] at hz
      obtain ⟨y, hy, rfl⟩ := Option.map_eq_some_iff.mp hz
      refine ⟨y, hy, ?_⟩
      rcases hcases y with heq | heq
      · rw [heq] at hkz hcz
        exact ⟨hkz, hcz⟩
      · rw [heq] at hkz hcz
        exact ⟨hkz, .inr (hcz.resolve_left (by simp))⟩
    obtain ⟨y, hy, hky, hcy⟩ := hback i x hx hkx hcx
    obtain ⟨y', hy', hky', hcy'⟩ := hback j x' hx' hkx' hcx'
    exact hs.creator i j y y' hy hy' hky hky' hcy hcy'

lemma Keyed.arrive (hs : Keyed cfg k b old s) {r : Request} (hbody : r.key = some k → r.body = b) :
    Keyed cfg k b old { s with handlers := s.handlers ++ [⟨r, .arrived, none, s.answeredBefore r⟩] } := by
  refine ⟨fun x hx hkx => ?_, hs.stored, hs.unwritten, hs.row, fun i j x x' hx hx' hkx hkx' hcx hcx' => ?_⟩
  · rcases List.mem_append.mp hx with hmem | hnew
    · exact hs.good x hmem hkx
    · obtain rfl := List.mem_singleton.mp hnew
      refine ⟨hbody hkx, fun hst => by simp at hst, fun json hst => by simp at hst, fun json hst => by simp at hst,
        fun hr => absurd rfl hr, fun id hid => by simp [Stage.roundId] at hid, fun id hst => by simp at hst,
        fun hp => by simp [Stage.past] at hp, fun hok => by simp [Stage.succeeded] at hok, fun hr => ?_,
        fun _ e hst => by simp at hst⟩
      obtain ⟨y, hy, hyes⟩ := List.any_eq_true.mp hr
      obtain ⟨hky, hsucc⟩ := Bool.and_eq_true_iff.mp hyes
      have hg := hs.good y hy ((of_decide_eq_true hky).trans hkx)
      have hpast : y.stage.past = true ∧ ∃ id, y.stage.roundId = some id := by
        cases hst : y.stage with
        | answered a =>
          cases a with
          | ok a => exact ⟨rfl, _, rfl⟩
          | error e =>
            rw [hst] at hsucc
            cases hsucc
        | _ =>
          rw [hst] at hsucc
          cases hsucc
      obtain ⟨id, hid⟩ := hpast.2
      obtain ⟨row, hrow, -⟩ := hg.carries id hid
      exact ⟨⟨row, hrow⟩, hg.passed hpast.1, hg.seals hsucc⟩
  · have hold : ∀ (m : Nat) (z : Handler), (s.handlers ++ [⟨r, .arrived, none, s.answeredBefore r⟩])[m]? = some z →
        z.stage = .fresh ∨ z.round ≠ none → s.handlers[m]? = some z := by
      intro m z hz hcz
      rcases lt_or_ge m s.handlers.length with hm | hm
      · rwa [List.getElem?_append_left hm] at hz
      · rw [List.getElem?_append_right hm] at hz
        obtain rfl := List.mem_singleton.mp (List.mem_of_getElem? hz)
        simp at hcz
    exact hs.creator i j x x' (hold i x hx hcx) (hold j x' hx' hcx') hkx hkx' hcx hcx'

lemma Keyed.step {e : Event} (hs : Keyed cfg k b old s) (hbody : ∀ r, e = .arrive r → r.key = some k → r.body = b)
    (hlife : Lifetime k old s e) (hcond : Undisturbed k s e) (hstep : step cfg origin s e = .ok s') :
    Keyed cfg k b old s' := by
  rcases step_cases hstep with ⟨r, rfl, rfl⟩ | ⟨i, now, draw, h, db', h', rfl, hget, hhandle, rfl⟩ | ⟨rfl, rfl⟩ |
    ⟨-, hhandlers, hauctions, hanswers, hkeeps⟩
  · exact hs.arrive (hbody r rfl)
  · exact hs.handle hget hhandle hlife hcond
  · exact hs.crash hcond
  · have hrow : s'.db.idempotency k = s.db.idempotency k := by rw [hanswers]
    refine ⟨fun x hx hkx => ?_, fun row hrow' => hkeeps.ne_none (hs.stored row hrow'),
      hs.unwritten.imp hrow.trans fun ⟨row, hnew⟩ => ⟨row, hrow.trans hnew.1, hnew.2⟩, fun row hnew => ?_, ?_⟩
    · rw [hhandlers] at hx
      exact (hs.good x hx hkx).mono hrow hkeeps fun id hid => by rwa [hauctions]
    · obtain ⟨hhash, hround⟩ := hs.row row ⟨hrow.symm.trans hnew.1, hnew.2⟩
      exact ⟨hhash, hkeeps.ne_none hround⟩
    · rw [hhandlers]
      exact hs.creator

/-- Whatever the interleaving, the requests of a key with one body create one round, all successes name it, and a
retry after a success is never refused, as long as they do not disturb one another. -/
theorem once_per_key {db : Database} (hstored : ∀ row, db.idempotency k = some row → db.conditions row.roundId ≠ none)
    {events : List Event} (hbody : SameBody k b events)
    (hlife : Along (Coordinator.step cfg origin) (Lifetime k (db.idempotency k)) (.start db) events)
    (hcond : Along (Coordinator.step cfg origin) (Undisturbed k) (.start db) events) :
    Throughout (Coordinator.step cfg origin) (OncePerKey k) (.start db) events := by
  have hstart : Keyed cfg k b (db.idempotency k) (.start db) :=
    ⟨fun h hmem => absurd hmem List.not_mem_nil, hstored, .inl rfl, fun row hnew => absurd hnew.1.symm hnew.2,
      fun i j h h' hi => by simp [Service.start] at hi⟩
  have hall : Along (Coordinator.step cfg origin)
      (fun x e => ((∀ r, e = .arrive r → r.key = some k → r.body = b) ∧ Lifetime k (db.idempotency k) x e) ∧
        Undisturbed k x e) (.start db) events := by
    refine along_and _ (along_and _ (along_of_forall _ (fun e he x r hr hkey => ?_) _) hlife) hcond
    exact hbody r (hr ▸ he) hkey
  intro n
  exact (throughout_along _ (fun x e x' hx hok hstep => hx.step hok.1.1 hok.1.2 hok.2 hstep) hstart hall n).once

end Proof

/-! ### Runs that disturb the key -/

section Samples

def sampleKey : Text := ['k']

def sampleRoundRequest : Request where
  header := some sampleKey
  body := .round ⟨none, some 60, none, none, none, none, none⟩

def sampleLoneSeal : Request where
  header := some sampleKey
  body := .loneSeal ⟨['A', 'A'], none, some 60, none, none⟩

def otherRound : Text := ['q']

def runSample (events : List Event) : Service := exec (step sampleConfig []) (.start sampleDatabase) events

/-- Both requests look the key up before either records it. -/
def concurrentRequests : List Event :=
  [.arrive sampleRoundRequest, .arrive sampleRoundRequest, .proceed 0 100 [], .proceed 1 100 [],
    .proceed 0 100 sampleRound, .proceed 1 100 otherRound, .proceed 0 100 [], .proceed 1 100 []]

/-- The coordinator dies after the round is inserted and before the key is recorded. -/
def crashedRequest : List Event :=
  [.arrive sampleRoundRequest, .proceed 0 100 [], .proceed 0 100 sampleRound, .crash, .arrive sampleRoundRequest,
    .proceed 1 101 [], .proceed 1 101 otherRound, .proceed 1 101 []]

/-- A lone seal is answered, its round closes, and the caller retries. -/
def lateRetry : List Event :=
  [.arrive sampleLoneSeal, .proceed 0 100 [], .proceed 0 100 sampleRound, .proceed 0 100 [], .proceed 0 100 ['c'],
    .engine sampleRound .frozen, .arrive sampleLoneSeal, .proceed 1 170 [], .proceed 1 170 ['d']]

/-- A request, and its retry once it has been answered. -/
def retriedRequest : List Event :=
  [.arrive sampleRoundRequest, .proceed 0 100 [], .proceed 0 100 sampleRound, .proceed 0 100 [],
    .arrive sampleRoundRequest, .proceed 1 160 []]

def createdAt (s : Service) (i : Nat) : Option (Option Text × Option Text) :=
  s.handlers[i]?.map fun h => (h.request.key, h.round)

lemma not_oncePerKey {s : Service} {x y : Text} (h₀ : createdAt s 0 = some (some sampleKey, some x))
    (h₁ : createdAt s 1 = some (some sampleKey, some y)) : ¬OncePerKey sampleKey s := by
  intro h
  obtain ⟨hd, hget, heq⟩ := Option.map_eq_some_iff.mp h₀
  obtain ⟨hd', hget', heq'⟩ := Option.map_eq_some_iff.mp h₁
  obtain ⟨hkey, hround⟩ := Prod.mk.inj heq
  obtain ⟨hkey', hround'⟩ := Prod.mk.inj heq'
  have hindex := h.oneRound 0 1 hd hd' hget hget' hkey hkey' (by rw [hround]; exact Option.some_ne_none x)
    (by rw [hround']; exact Option.some_ne_none y)
  exact absurd hindex (by decide)

lemma lateRetry_refused : ((runSample lateRetry).handlers[1]?.map fun h => (h.request.key, h.retry, h.stage)) =
    some (some sampleKey, true, .answered (.error roundClosed)) := by
  decide +kernel

/-- Two requests that overlap create two rounds, so do a request and its retry around a crash, and a lone seal
retried after its round has closed is answered with an error. -/
theorem idempotency_disturbed :
    ¬OncePerKey sampleKey (runSample concurrentRequests) ∧ ¬OncePerKey sampleKey (runSample crashedRequest) ∧
      ¬OncePerKey sampleKey (runSample lateRetry) := by
  refine ⟨not_oncePerKey (x := sampleRound) (y := otherRound) (by decide +kernel) (by decide +kernel),
    not_oncePerKey (x := sampleRound) (y := otherRound) (by decide +kernel) (by decide +kernel), fun h => ?_⟩
  obtain ⟨hd, hget, heq⟩ := Option.map_eq_some_iff.mp lateRetry_refused
  obtain ⟨hkey, heq⟩ := Prod.mk.inj heq
  obtain ⟨hretry, hstage⟩ := Prod.mk.inj heq
  exact h.retries hd (List.mem_of_getElem? hget) hkey hretry roundClosed hstage

theorem once_per_key_sample :
    Throughout (step sampleConfig []) (OncePerKey sampleKey) (.start sampleDatabase) retriedRequest := by
  refine once_per_key (b := sampleRoundRequest.body) (fun row h => by cases h) (fun r hr hkey => ?_) ?_ ?_
  · simp only [retriedRequest, List.mem_cons, Event.arrive.injEq, reduceCtorEq, List.not_mem_nil, or_false, false_or] at hr
    rcases hr with rfl | rfl
    · rfl
    · rfl
  · refine ⟨trivial, fun h row hget hst hk hrow => ?_, fun h row hget hst hk hrow => ?_, fun h row hget hst hk hrow => ?_,
      trivial, fun h row hget hst hk hrow => ?_, trivial⟩
    · cases hrow
    · cases hget
      cases hst
    · cases hget
      cases hst
    · cases hrow
      decide
  · refine ⟨trivial, fun h hget hk => ⟨fun hst x hx hkx => ?_, ?_⟩, fun h hget hk => ⟨fun hst => ?_, ?_⟩,
      fun h hget hk => ⟨fun hst => ?_, ?_⟩, trivial, fun h hget hk => ⟨fun hst x hx hkx => ?_, ?_⟩, trivial⟩
    all_goals cases hget
    · obtain rfl := List.mem_singleton.mp hx
      exact ⟨by simp, fun json => by simp⟩
    · rintro json req c ⟨⟩
    · cases hst
    · rintro json req c ⟨⟩
    · cases hst
    · rintro json req c ⟨⟩
    · rcases List.mem_cons.mp hx with rfl | hx
      · exact ⟨nofun, fun json => nofun⟩
      · obtain rfl := List.mem_singleton.mp hx
        exact ⟨nofun, fun json => nofun⟩
    · rintro json req c ⟨⟩

end Samples

end Peal.Coordinator
