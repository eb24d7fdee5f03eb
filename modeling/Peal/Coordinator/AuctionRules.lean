import Peal.Coordinator.Holding

namespace Peal.Coordinator
open Peal.Fallible Peal.Runs

/-! # The rules of an auction -/

section Statement

variable (cfg : Config) (origin : Text)

/-- What is derived from the rules of an auction: the page to bid on, the check code and the terms hash. -/
def published (db : Database) (id : Text) : Option (Option Text × Option Text × Option Text) :=
  (auctionJson cfg origin db id).toOption.map fun a => (a.bidUrl, a.checkCode, a.termsHash)

def eligibility (db : Database) (id : Text) (amount : Int) : Option Bool :=
  (db.auctions id).map fun rules => eligible rules amount

/-- From the moment an auction exists, whatever follows in the run leaves its rules as they are. -/
def RulesFixed (s : Service) (events : List Event) : Prop :=
  ∀ before after rest, events = before ++ after ++ rest → ∀ id rules,
    (exec (step cfg origin) s before).db.auctions id = some rules →
      (exec (step cfg origin) s (before ++ after)).db.auctions id = some rules ∧
        published cfg origin (exec (step cfg origin) s (before ++ after)).db id =
          published cfg origin (exec (step cfg origin) s before).db id ∧
        ∀ amount, eligibility (exec (step cfg origin) s (before ++ after)).db id amount =
          eligibility (exec (step cfg origin) s before).db id amount

/-- A request for an auction comes with a live key whose auction has other rules. -/
structure Reuses (db : Database) (r : Request) (now : Int) (row : IdempotencyRow) (req : CreateAuction) : Prop where
  body : r.body = .auction req
  stored : ∃ key, r.key = some key ∧ key.length ≤ 200 ∧ db.idempotency key = some row
  live : now - row.createdAt < IDEMPOTENCY_TTL_SECS
  differs : ∃ rules asked, db.auctions row.roundId = some rules ∧ auctionRules cfg req = .ok asked ∧ asked ≠ rules

/-- A reused key with different rules is refused. -/
def ReuseRefused (s : Service) (events : List Event) : Prop :=
  ∀ before i now draw rest, events = before ++ .proceed i now draw :: rest →
    ∀ h row req, (exec (step cfg origin) s before).handlers[i]? = some h → h.stage = .arrived →
      Reuses cfg (exec (step cfg origin) s before).db h.request now row req →
        lookup cfg (exec (step cfg origin) s before).db h.request now = .answered (.error keyReused)

/-- The rules about to be written are those the round already has, if it has any. -/
def WritesSame (s : Service) : Event → Prop
  | .proceed i _ _ => ∀ h json req rules asked, s.handlers[i]? = some h → h.stage = .rounded json →
      h.request.body = .auction req → auctionRules cfg req = .ok asked → s.db.auctions json.id = some rules →
        asked = rules
  | _ => True

/-- A live key of an auction with other rules was first used for another round. -/
def ReusesApart (s : Service) : Event → Prop
  | .proceed i now _ => ∀ h row req, s.handlers[i]? = some h → h.stage = .arrived →
      Reuses cfg s.db h.request now row req →
        ∃ hash, row.requestHash = some hash ∧ hash ≠ requestFingerprint cfg req.round
  | _ => True

def SameRules (s : Service) (e : Event) : Prop := WritesSame cfg s e ∧ ReusesApart cfg s e

/-- Every auction, every remembered answer and every round in a handler's hands is in `conditions`. -/
structure Consistent (s : Service) : Prop where
  auctions : ∀ id, s.db.auctions id ≠ none → s.db.conditions id ≠ none
  answers : ∀ key row, s.db.idempotency key = some row → s.db.conditions row.responseJson.id ≠ none
  handlers : ∀ h ∈ s.handlers, ∀ json, h.stage = .created json ∨ h.stage = .rounded json →
    s.db.conditions json.id ≠ none

end Statement

section Proof

variable {cfg : Config} {origin : Text} {s s' : Service} {db : Database}

/-! ### The key -/

lemma Reuses.refused_iff {r : Request} {now : Int} {row : IdempotencyRow} {req : CreateAuction}
    (h : Reuses cfg db r now row req) :
    lookup cfg db r now = .answered (.error keyReused) ↔
      ∃ hash, row.requestHash = some hash ∧ hash ≠ requestFingerprint cfg req.round := by
  obtain ⟨key, hkey, hshort, hrow⟩ := h.stored
  obtain ⟨rules, asked, -, hasked, -⟩ := h.differs
  have hpre : precheck cfg r.body = .ok () := by
    rw [h.body, precheck, hasked]
    rfl
  have hround : r.body.roundRequest = req.round := by
    rw [h.body]
    rfl
  rcases lookup_cases cfg db now hkey with ⟨e, herror, -⟩ | ⟨hlong, -⟩ | ⟨-, -, ⟨-, hdead⟩ | ⟨row', hrow', -, hreplayed⟩⟩
  · rw [hpre] at herror
    cases herror
  · omega
  · exact absurd h.live (hdead row hrow)
  · obtain rfl : row = row' := Option.some.inj (hrow.symm.trans hrow')
    rw [hround] at hreplayed
    rcases hreplayed with ⟨hsame, hhash⟩ | ⟨hrefused, hhash⟩
    · refine ⟨fun hrefused => ?_, fun ⟨hash, hstored, hne⟩ => absurd (hhash hash hstored) hne⟩
      rw [hsame, h.body] at hrefused
      cases hrefused
    · exact ⟨fun _ => hhash, fun _ => hrefused⟩

/-! ### The write -/

lemma rulesKept_iff (e : Event) :
    (∀ id rules, s.db.auctions id = some rules → (advance (step cfg origin) s e).db.auctions id = some rules) ↔
      WritesSame cfg s e := by
  constructor
  · intro hkept
    cases e with
    | proceed i now draw =>
      intro h json req rules asked hget hstage hbody hasked hrules
      have hhandle : handle cfg origin s.db h now draw =
          some (insertAuction s.db json.id asked, { h with stage := .ruled json.id }) := by
        simp only [handle, hstage, compose, hbody, hasked]
      have hstep : step cfg origin s (.proceed i now draw) =
          .ok ⟨insertAuction s.db json.id asked, s.handlers.set i { h with stage := .ruled json.id }⟩ := by
        simp only [step, hget, bind_eq_ok, expect_eq_ok, pure_eq_ok]
        exact ⟨h, rfl, _, hhandle, rfl⟩
      have hafter := hkept json.id rules hrules
      rw [advance_of_ok _ hstep] at hafter
      change Function.update s.db.auctions json.id (some asked) json.id = some rules at hafter
      rw [Function.update_self] at hafter
      exact Option.some.inj hafter
    | _ => trivial
  · intro hsame id rules hrules
    refine advance_induct (P := fun x : Service => x.db.auctions id = some rules) _ hrules fun s' hstep => ?_
    rcases step_cases hstep with ⟨r, -, rfl⟩ | ⟨i, now, draw, h, db', h', rfl, hget, hhandle, rfl⟩ | ⟨-, rfl⟩ |
      ⟨-, -, hauctions, -, -⟩
    · exact hrules
    · rcases handle_auctions hhandle with hsame' | ⟨json, req, asked, hstage, hbody, hasked, hdb⟩
      · rw [hsame', hrules]
      · rw [hdb]
        by_cases hid : id = json.id
        · subst hid
          rw [Function.update_self, hsame h json req rules asked hget hstage hbody hasked hrules]
        · rw [Function.update_of_ne hid, hrules]
    · exact hrules
    · rw [hauctions, hrules]

/-! ### What is derived from the rules -/

lemma loadRound_eq {id : Text} {c : Condition} (hc : db.conditions id = some c) :
    ∃ status seals slots openedAt, loadRound db id =
      .ok (roundJson id status c.kind c.tag ⟨c.title, c.description, c.imageUrl⟩ c.createdAt seals slots openedAt) := by
  refine ⟨publicStatus c.status, (db.rowsOf id).countP fun x => !x.isDummy, (db.rowsOf id).length,
    (db.reveals id).map Reveal.revealedAt, ?_⟩
  rw [loadRound, hc]
  rfl

lemma published_eq {db' : Database} {id : Text} (hkeeps : KeepsRounds db db') (hround : db.conditions id ≠ none)
    (hrules : db'.auctions id = db.auctions id) : published cfg origin db' id = published cfg origin db id := by
  obtain ⟨c, hc⟩ := Option.ne_none_iff_exists'.mp hround
  obtain ⟨status, hc'⟩ := hkeeps id c hc
  obtain ⟨_, _, _, _, hload⟩ := loadRound_eq hc
  obtain ⟨_, _, _, _, hload'⟩ := loadRound_eq hc'
  unfold published auctionJson
  rw [hload, hload', hrules]
  cases db.auctions id with
  | none => rfl
  | some rules => rfl

/-! ### Consistent tables -/

lemma consistent_iff : Consistent s ↔ Holding (fun _ _ => True) s := by
  have hhas (db : Database) (id : Text) : db.conditions id ≠ none ↔ db.Has (fun _ _ => True) id := by
    rw [Option.ne_none_iff_exists']
    exact exists_congr fun c => (and_iff_left trivial).symm
  constructor
  · intro h
    exact ⟨fun id hid => (hhas _ _).mp (h.auctions id hid), fun key row hrow => (hhas _ _).mp (h.answers key row hrow),
      fun hd hmem json hstage => (hhas _ _).mp (h.handlers hd hmem json hstage)⟩
  · intro h
    exact ⟨fun id hid => (hhas _ _).mpr (h.auctions id hid), fun key row hrow => (hhas _ _).mpr (h.answers key row hrow),
      fun hd hmem json hstage => (hhas _ _).mpr (h.handlers hd hmem json hstage)⟩

lemma consistent_step {e : Event} (hs : Consistent s) (h : step cfg origin s e = .ok s') : Consistent s' := by
  refine consistent_iff.mpr (holding_step (fun _ _ _ _ => trivial) (consistent_iff.mp hs) ?_ h)
  cases e with
  | proceed i now draw =>
    intro hd db' json _ _ hins
    obtain ⟨-, -, -, row, -, rfl⟩ := insertRound_eq_ok hins
    exact ⟨row, by simp, trivial⟩
  | _ => trivial

/-! ### Whole runs -/

lemma exec_keeps (events : List Event) (h : Along (step cfg origin) (WritesSame cfg) s events) {id : Text} {rules : Rules}
    (hrules : s.db.auctions id = some rules) :
    (exec (step cfg origin) s events).db.auctions id = some rules ∧ KeepsRounds s.db (exec (step cfg origin) s events).db := by
  have hstep : ∀ x : Service, ∀ a x', (x.db.auctions id = some rules ∧ KeepsRounds s.db x.db) → WritesSame cfg x a →
      step cfg origin x a = .ok x' → x'.db.auctions id = some rules ∧ KeepsRounds s.db x'.db := by
    rintro x a x' ⟨hx, hkeeps⟩ hsame hok
    have hkept := (@rulesKept_iff cfg origin _ a).mpr hsame id rules hx
    rw [advance_of_ok _ hok] at hkept
    exact ⟨hkept, hkeeps.trans (step_keepsRounds hok)⟩
  exact exec_invariant_along (I := fun x : Service => x.db.auctions id = some rules ∧ KeepsRounds s.db x.db) _ hstep
    ⟨hrules, KeepsRounds.refl _⟩ h

/-- The rules of every auction stay as they are and a reused key with other rules is refused, in exactly the runs
that write no rules over others and reuse no key for the same round with other rules. -/
theorem rules_fixed_iff {db : Database} (hdb : Consistent (.start db)) (events : List Event) :
    RulesFixed cfg origin (.start db) events ∧ ReuseRefused cfg origin (.start db) events ↔
      Along (step cfg origin) (SameRules cfg) (.start db) events := by
  constructor
  · rintro ⟨hfixed, hrefused⟩
    refine (along_iff _).mpr fun before e rest heq => ⟨?_, ?_⟩
    · refine (@rulesKept_iff cfg origin _ e).mp fun id rules hrules => ?_
      rw [← exec_concat]
      exact (hfixed before [e] rest (by rw [heq, List.append_assoc]; rfl) id rules hrules).1
    · cases e with
      | proceed i now draw =>
        intro h row req hget hstage hreuse
        exact hreuse.refused_iff.mp (hrefused before i now draw rest heq h row req hget hstage hreuse)
      | _ => trivial
  · intro halong
    constructor
    · intro before after rest heq id rules hrules
      have hconsistent : Consistent (exec (step cfg origin) (.start db) before) :=
        exec_invariant (I := Consistent) _ (fun x e x' hx hok => consistent_step hx hok) hdb before
      have hafter : Along (step cfg origin) (WritesSame cfg) (exec (step cfg origin) (.start db) before) after := by
        refine (along_iff _).mpr fun before' e rest' heq' => ?_
        rw [← exec_append]
        exact ((along_iff _).mp halong (before ++ before') e (rest' ++ rest)
          (by rw [heq, heq']; simp only [List.append_assoc, List.cons_append])).1
      obtain ⟨hkept, hkeeps⟩ := exec_keeps after hafter hrules
      rw [exec_append]
      have hround := hconsistent.auctions id (by rw [hrules]; exact Option.some_ne_none _)
      refine ⟨hkept, published_eq hkeeps hround (by rw [hkept, hrules]), fun amount => ?_⟩
      unfold eligibility
      rw [hkept, hrules]
    · intro before i now draw rest heq h row req hget hstage hreuse
      exact hreuse.refused_iff.mpr (((along_iff _).mp halong before _ rest heq).2 h row req hget hstage hreuse)

end Proof

/-! ### A retry with another reserve -/

def sampleConfig : Config where
  rpcChains := []
  currencies := [⟨['U', 'S', 'D'], 2⟩, ⟨['J', 'P', 'Y'], 0⟩]
  roundJsonBytes req := req.opensIn.elim [] fun secs => [secs.toNat]
  termsJsonBytes version terms := version :: (terms.reserveMinor.elim [] fun reserve => [reserve.toNat])
  decode64 text := some (text.map Char.toNat)
  encodeUrl bytes := bytes.map Char.ofNat
  ctWire blob := .ok blob

def sampleDatabase : Database := { Database.empty with committees := [⟨['c'], 5, 3, 8, 0⟩] }

/-- A titled auction that closes in an hour, under the key `k`. -/
def sampleAuction (reserve : Int) : Request where
  header := some ['k']
  body := .auction {
    title := some ['L', 'o', 't']
    description := none
    imageUrl := none
    closesIn := some 3600
    closesAt := none
    currency := none
    decimals := none
    reserveMinor := some reserve
    maximumMinor := none
    contactPublicKey := none
    tag := none }

def sampleRound : Text := ['r']

/-- The first request runs to its answer. -/
def firstAuction : List Event :=
  [.arrive (sampleAuction 200), .proceed 0 100 [], .proceed 0 100 sampleRound, .proceed 0 100 [], .proceed 0 100 [],
    .proceed 0 100 []]

/-- The second brings the same key, the same round and another reserve. -/
def secondAuction : List Event := [.arrive (sampleAuction 1), .proceed 1 160 [], .proceed 1 160 [], .proceed 1 160 []]

def sampleRules (reserve : Int) : Rules := ⟨['U', 'S', 'D'], 2, some reserve, none, none⟩

lemma sampleDatabase_consistent : Consistent (.start sampleDatabase) where
  auctions id h := absurd rfl h
  answers key row h := by cases h
  handlers h hmem := absurd hmem List.not_mem_nil

lemma secondAuction_answered :
    (exec (step sampleConfig []) (.start sampleDatabase) firstAuction).db.auctions sampleRound = some (sampleRules 200) ∧
      (exec (step sampleConfig []) (.start sampleDatabase) (firstAuction ++ secondAuction)).db.auctions sampleRound =
        some (sampleRules 1) ∧
      ((exec (step sampleConfig []) (.start sampleDatabase) (firstAuction ++ secondAuction)).handlers[1]?.map
        fun h => h.stage.succeeded) = some true := by
  decide +kernel

/-- The retry is answered with a success, and its rules have replaced those bidders were shown. -/
theorem auction_rules_replaced :
    ¬RulesFixed sampleConfig [] (.start sampleDatabase) (firstAuction ++ secondAuction) ∧
      ((exec (step sampleConfig []) (.start sampleDatabase) (firstAuction ++ secondAuction)).handlers[1]?.map
        fun h => h.stage.succeeded) = some true := by
  obtain ⟨hfirst, hsecond, hanswered⟩ := secondAuction_answered
  refine ⟨fun hfixed => ?_, hanswered⟩
  obtain ⟨hkept, -, -⟩ := hfixed firstAuction secondAuction [] (List.append_nil _).symm sampleRound _ hfirst
  rw [hsecond] at hkept
  exact absurd hkept (by decide)

theorem rules_fixed_sample :
    RulesFixed sampleConfig [] (.start sampleDatabase) (firstAuction ++ secondAuction) ∧
        ReuseRefused sampleConfig [] (.start sampleDatabase) (firstAuction ++ secondAuction) ↔
      Along (step sampleConfig []) (SameRules sampleConfig) (.start sampleDatabase) (firstAuction ++ secondAuction) :=
  rules_fixed_iff sampleDatabase_consistent (firstAuction ++ secondAuction)

end Peal.Coordinator
