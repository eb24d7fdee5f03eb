import Peal.Coordinator.Requests

namespace Peal.Coordinator
open Peal.Fallible Peal.Runs

/-! # What the rounds of handlers have in common -/

/-- The round is there and `P` holds of its row. -/
def Database.Has (db : Database) (P : Text → Condition → Prop) (id : Text) : Prop :=
  ∃ c, db.conditions id = some c ∧ P id c

/-- `P` holds of the round of every auction, of every remembered answer and of every one in a handler's hands. -/
structure Holding (P : Text → Condition → Prop) (s : Service) : Prop where
  auctions : ∀ id, s.db.auctions id ≠ none → s.db.Has P id
  answers : ∀ key row, s.db.idempotency key = some row → s.db.Has P row.responseJson.id
  handlers : ∀ h ∈ s.handlers, ∀ json, h.stage = .created json ∨ h.stage = .rounded json → s.db.Has P json.id

/-- A round the event inserts has `P`. -/
def Inserts (cfg : Config) (P : Text → Condition → Prop) (s : Service) : Event → Prop
  | .proceed i now draw => ∀ hd db' json, s.handlers[i]? = some hd → hd.stage = .fresh →
      insertRound cfg hd.request.body.roundRequest s.db now draw = .ok (db', json) → db'.Has P draw
  | _ => True

section Proof

variable {cfg : Config} {origin : Text} {P : Text → Condition → Prop} {s s' : Service} {db db' : Database}

lemma Database.Has.keeps (hP : ∀ id c status, P id c → P id { c with status }) {id : Text} (h : db.Has P id)
    (hkeeps : KeepsRounds db db') : db'.Has P id := by
  obtain ⟨c, hc, hp⟩ := h
  obtain ⟨status, hc'⟩ := hkeeps id c hc
  exact ⟨{ c with status }, hc', hP id c status hp⟩

lemma lookup_round {r : Request} {now : Int} {json : RoundJson}
    (h : lookup cfg db r now = .created json ∨ lookup cfg db r now = .rounded json) :
    ∃ key row, r.key = some key ∧ db.idempotency key = some row ∧ row.responseJson = json := by
  cases hkey : r.key with
  | none =>
    unfold lookup at h
    cases hpre : precheck cfg r.body with
    | error e => simp [hpre] at h
    | ok u => simp [hpre, hkey] at h
  | some key =>
    rcases lookup_cases cfg db now hkey with ⟨e, -, hlook⟩ | ⟨-, hlook⟩ |
      ⟨-, -, ⟨hlook, -⟩ | ⟨row, hrow, -, ⟨hlook, -⟩ | ⟨hlook, -⟩⟩⟩
    · simp [hlook] at h
    · simp [hlook] at h
    · simp [hlook] at h
    · rw [hlook] at h
      rcases afterRound_cases r.body 200 row.responseJson with ⟨req, -, hafter⟩ | hafter
      · simp [hafter] at h
      · exact ⟨key, row, rfl, hrow, by simpa [hafter] using h⟩
    · simp [hlook] at h

lemma handle_auctions {h h' : Handler} {now : Int} {draw : Text}
    (hhandle : handle cfg origin db h now draw = some (db', h')) :
    db'.auctions = db.auctions ∨ ∃ json req rules, h.stage = .rounded json ∧ h.request.body = .auction req ∧
      auctionRules cfg req = .ok rules ∧ db'.auctions = Function.update db.auctions json.id (some rules) := by
  rcases handle_cases hhandle with ⟨-, rfl, -⟩ | ⟨-, rfl, -⟩ | ⟨-, json, hins, -⟩ | ⟨json, key, -, -, rfl, -⟩ |
    ⟨json, hstage, rfl, -⟩ | ⟨id, -, rfl, -⟩
  · exact .inl rfl
  · exact .inl rfl
  · obtain ⟨-, -, -, row, -, rfl⟩ := insertRound_eq_ok hins
    exact .inl rfl
  · exact .inl rfl
  · rcases compose_cases cfg db h.request.body json now draw with ⟨req, rules, hbody, hrules, heq⟩ | ⟨-, _, _, heq⟩
    · exact .inr ⟨json, req, rules, hstage, hbody, hrules, by rw [heq]; rfl⟩
    · exact .inl (by rw [heq])
  · exact .inl rfl

variable (hP : ∀ id c status, P id c → P id { c with status })

include hP

lemma Holding.keeps (h : Holding P s) (hkeeps : KeepsRounds s.db s'.db)
    (hauctions : ∀ id, s'.db.auctions id ≠ none → s.db.auctions id ≠ none ∨ s'.db.Has P id)
    (hanswers : ∀ key row, s'.db.idempotency key = some row →
      s.db.idempotency key = some row ∨ s'.db.Has P row.responseJson.id)
    (hhandlers : ∀ h ∈ s'.handlers, ∀ json, h.stage = .created json ∨ h.stage = .rounded json →
      h ∈ s.handlers ∨ s'.db.Has P json.id) : Holding P s' where
  auctions id hid := (hauctions id hid).elim (fun hold => (h.auctions id hold).keeps hP hkeeps) fun hnew => hnew
  answers key row hrow :=
    (hanswers key row hrow).elim (fun hold => (h.answers key row hold).keeps hP hkeeps) fun hnew => hnew
  handlers hd hmem json hstage := (hhandlers hd hmem json hstage).elim
    (fun hold => (h.handlers hd hold json hstage).keeps hP hkeeps) fun hnew => hnew

lemma Holding.handle {i : Nat} {h h' : Handler} {now : Int} {draw : Text} (hs : Holding P s)
    (hnew : Inserts cfg P s (.proceed i now draw)) (hget : s.handlers[i]? = some h)
    (hhandle : handle cfg origin s.db h now draw = some (db', h')) : Holding P ⟨db', s.handlers.set i h'⟩ := by
  have hkeeps := handle_keepsRounds hhandle
  have hmem := List.mem_of_getElem? hget
  rcases handle_cases hhandle with ⟨hstage, rfl, rfl⟩ | ⟨hstage, rfl, e, rfl⟩ | ⟨hstage, json, hins, rfl⟩ |
    ⟨json, key, hstage, -, rfl, rfl⟩ | ⟨json, hstage, rfl, rfl⟩ | ⟨id, hstage, rfl, rfl⟩
  · refine hs.keeps hP hkeeps (fun _ hid => .inl hid) (fun _ _ hrow => .inl hrow) fun x hx json hjson => ?_
    rcases List.mem_or_eq_of_mem_set hx with hold | rfl
    · exact .inl hold
    · obtain ⟨key, row, -, hrow, rfl⟩ := lookup_round hjson
      exact .inr (hs.answers key row hrow)
  · refine hs.keeps hP hkeeps (fun _ hid => .inl hid) (fun _ _ hrow => .inl hrow) fun x hx json hjson => ?_
    rcases List.mem_or_eq_of_mem_set hx with hold | rfl
    · exact .inl hold
    · simp at hjson
  · have hrow : db'.Has P draw := hnew h db' json hget hstage hins
    obtain ⟨-, hid, -, row, -, rfl⟩ := insertRound_eq_ok hins
    refine hs.keeps hP hkeeps (fun _ hid => .inl hid) (fun _ _ hrow => .inl hrow) fun x hx json' hjson => ?_
    rcases List.mem_or_eq_of_mem_set hx with hold | rfl
    · exact .inl hold
    · have heq : json' = json := by
        by_cases hkey : h.request.key = none
        · rcases afterRound_cases h.request.body 201 json with ⟨req, -, hafter⟩ | hafter
          · simp [hkey, hafter] at hjson
          · simpa [hkey, hafter, eq_comm] using hjson
        · simpa [hkey, eq_comm] using hjson
      rw [heq, hid]
      exact .inr hrow
  · have hround := hs.handlers h hmem json (.inl hstage)
    refine hs.keeps hP hkeeps (fun _ hid => .inl hid) (fun key' row hrow => ?_) fun x hx json' hjson => ?_
    · by_cases hkey : key' = key
      · subst hkey
        obtain rfl := Option.some.inj ((Function.update_self key' _ s.db.idempotency).symm.trans hrow)
        exact .inr hround
      · exact .inl ((Function.update_of_ne hkey _ s.db.idempotency).symm.trans hrow)
    · rcases List.mem_or_eq_of_mem_set hx with hold | rfl
      · exact .inl hold
      · rcases afterRound_cases h.request.body 201 json with ⟨req, -, hafter⟩ | hafter
        · simp [hafter] at hjson
        · obtain rfl : json = json' := by simpa [hafter] using hjson
          exact .inr hround
  · have hround := hs.handlers h hmem json (.inr hstage)
    have hstages (stage : Stage) (hstage' : ∀ json', stage ≠ .created json' ∧ stage ≠ .rounded json') :
        ∀ x ∈ s.handlers.set i { h with stage }, ∀ json', x.stage = .created json' ∨ x.stage = .rounded json' →
          x ∈ s.handlers ∨ (compose cfg s.db h.request.body json now draw).1.Has P json'.id := by
      intro x hx json' hjson
      rcases List.mem_or_eq_of_mem_set hx with hold | rfl
      · exact .inl hold
      · exact (hjson.elim (hstage' json').1 (hstage' json').2).elim
    rcases compose_cases cfg s.db h.request.body json now draw with ⟨req, rules, -, -, heq⟩ | ⟨-, rows, answer, heq⟩
    · refine hs.keeps hP hkeeps (fun id hid => ?_) (fun key row hrow => ?_) (hstages _ fun json' => by simp [heq])
      · rw [heq] at hid ⊢
        by_cases hx : id = json.id
        · exact .inr (hx ▸ hround)
        · exact .inl fun hnone => hid ((Function.update_of_ne hx _ s.db.auctions).trans hnone)
      · rw [heq] at hrow
        exact .inl hrow
    · refine hs.keeps hP hkeeps (fun id hid => ?_) (fun key row hrow => ?_) (hstages _ fun json' => by simp [heq])
      · rw [heq] at hid
        exact .inl hid
      · rw [heq] at hrow
        exact .inl hrow
  · refine hs.keeps hP hkeeps (fun _ hid => .inl hid) (fun _ _ hrow => .inl hrow) fun x hx json hjson => ?_
    rcases List.mem_or_eq_of_mem_set hx with hold | rfl
    · exact .inl hold
    · simp at hjson

theorem holding_step {e : Event} (hs : Holding P s) (hnew : Inserts cfg P s e) (h : step cfg origin s e = .ok s') :
    Holding P s' := by
  have hkeeps := step_keepsRounds h
  rcases step_cases h with ⟨r, -, rfl⟩ | ⟨i, now, draw, hd, db', hd', rfl, hget, hhandle, rfl⟩ | ⟨-, rfl⟩ |
    ⟨-, hhandlers, hauctions, hanswers, -⟩
  · refine hs.keeps hP hkeeps (fun _ hid => .inl hid) (fun _ _ hrow => .inl hrow) fun x hx json hjson => ?_
    rcases List.mem_append.mp hx with hold | hnew
    · exact .inl hold
    · obtain rfl := List.mem_singleton.mp hnew
      simp at hjson
  · exact hs.handle hP hnew hget hhandle
  · refine hs.keeps hP hkeeps (fun _ hid => .inl hid) (fun _ _ hrow => .inl hrow) fun x hx json hjson => ?_
    obtain ⟨y, -, rfl⟩ := List.mem_map.mp hx
    unfold Handler.crash at hjson
    cases hstage : y.stage <;> simp [hstage] at hjson
  · exact hs.keeps hP hkeeps (fun _ hid => .inl (hauctions ▸ hid)) (fun _ _ hrow => .inl (hanswers ▸ hrow))
      fun x hx _ _ => .inl (hhandlers ▸ hx)

end Proof

end Peal.Coordinator
