import Peal.Coordinator.PageLinks
import Peal.Coordinator.Timestamps
import Peal.Library.Keyset

namespace Peal.Coordinator
open Peal.Fallible Peal.Runs Peal.Numerals

/-! # Following the pages of the round listing -/

/-- An id the generator can draw. -/
def IsDrawn (id : Text) : Prop := ∃ bytes : Bytes, bytes.length = 12 ∧ (∀ b ∈ bytes, b < 256) ∧ id = newId "cond".toList bytes

/-- The time and the id of the round an event would create. -/
def creation (s : Service) : Event → Option (Int × Text)
  | .proceed i now draw => s.handlers[i]?.bind fun h => if h.stage = .fresh then some (now, draw) else none
  | .createCondition id row => some (row.createdAt, id)
  | _ => none

/-- A round that is created is dated by a clock that does not go back behind the start. -/
def Stamped (start : Int) (s : Service) (e : Event) : Prop :=
  ∀ c ∈ creation s e, start ≤ c.1 ∧ inI64 c.1 ∧ IsDrawn c.2

/-- The tables hold the rounds of the service. -/
structure Holds (s : Service) (t : Tables) : Prop where
  conditions : t.conditions = s.db.conditions
  nodup : t.ids.Nodup
  ids : ∀ id, id ∈ t.ids ↔ t.conditions id ≠ none

/-- What a client gets who follows `next_cursor` until it is null, each request answered from the tables as they are
then. -/
inductive Pages (tag : Option Text) : List (Tables × Option Int) → Option Text → List RoundJson → Prop
  | last {t : Tables} {limit : Option Int} {cursor : Option Text} {data : List RoundJson} {more : Bool}
      (answered : listRounds t ⟨tag, none, limit, cursor⟩ = .ok (.rounds data none more)) :
      Pages tag [(t, limit)] cursor data
  | next {t : Tables} {limit : Option Int} {cursor : Option Text} {data rows : List RoundJson} {more : Bool}
      {c : Text} {rest : List (Tables × Option Int)}
      (answered : listRounds t ⟨tag, none, limit, cursor⟩ = .ok (.rounds data (some c) more))
      (later : Pages tag rest (some c) rows) : Pages tag ((t, limit) :: rest) cursor (data ++ rows)

/-! ### The cursor -/

variable {createdAt : Int} {id : Text}

lemma digit_not_colon {c : Char} (h : c.isDigit = true) : c ≠ ':' := by
  rintro rfl
  cases h

lemma decimal_no_colon (n : Int) : ∀ c ∈ Json.decimal n, c ≠ ':' := by
  cases n with
  | ofNat n => exact fun c hc => digit_not_colon (allDigits_toDigits n c hc)
  | negSucc n =>
    intro c hc
    rcases List.mem_cons.mp hc with rfl | hc
    · decide
    · exact digit_not_colon (allDigits_toDigits (n + 1) c hc)

lemma toDigits_ne_nil (n : Nat) : Nat.toDigits 10 n ≠ [] := by
  obtain ⟨c, tail, htext, -⟩ := Json.toDigits_cons n
  rw [htext]
  exact List.cons_ne_nil _ _

lemma parseI64_decimal (h : inI64 createdAt) : parseI64 (Utf8.encode (Json.decimal createdAt)) = some createdAt := by
  obtain ⟨hlow, hhigh⟩ := h
  cases createdAt with
  | ofNat n =>
    have hlt : value (Nat.toDigits 10 n) < 2 ^ 63 := by
      have hn : (n : Int) < 2 ^ 63 := hhigh
      rw [value_toDigits]
      exact_mod_cast hn
    rw [Json.decimal, parseI64_digits (allDigits_toDigits n) (toDigits_ne_nil n) hlt, value_toDigits]
    rfl
  | negSucc n =>
    have hdash : Utf8.encode (Json.decimal (.negSucc n)) = 45 :: Utf8.encode (Nat.toDigits 10 (n + 1)) := by
      rw [Json.decimal, Utf8.encode_cons]
      rfl
    have hrange : inI64 (-Int.ofNat (n + 1)) := ⟨hlow, hhigh⟩
    rw [hdash, parseI64, parseDigits_digits (allDigits_toDigits _) (toDigits_ne_nil _), value_toDigits, Option.map_some,
      Option.filter_some, if_pos (decide_eq_true hrange)]
    rfl

lemma decodeCursor_encodeCursor (h : inI64 createdAt) :
    decodeCursor (encodeCursor createdAt id) = .ok (createdAt, id) := by
  have htake : (Json.decimal createdAt ++ ':' :: id).takeWhile (· ≠ ':') = Json.decimal createdAt := by
    rw [List.takeWhile_append_of_pos fun c hc => decide_eq_true (decimal_no_colon createdAt c hc)]
    simp
  have hdrop : (Json.decimal createdAt ++ ':' :: id).dropWhile (· ≠ ':') = ':' :: id := by
    rw [List.dropWhile_append_of_pos fun c hc => decide_eq_true (decimal_no_colon createdAt c hc)]
    simp
  have hcolon : ':' ∈ Json.decimal createdAt ++ ':' :: id := List.mem_append_right _ List.mem_cons_self
  simp only [decodeCursor, encodeCursor, bind_eq_ok, expect_eq_ok, require_eq_ok, pure_eq_ok]
  refine ⟨_, Base64.decodeStrict_encode Base64.urlSafe_lawful (Utf8.encode_lt _), _, Utf8.decode_encode _, (), hcolon,
    createdAt, ?_, ?_⟩
  · rw [htake, parseI64_decimal h]
  · rw [hdrop]
    rfl

/-! ### One page -/

/-- The order of the listing reads these keys from the greatest down. -/
def keyOf (x : Text × Condition) : ℤ ×ₗ Text := toLex (x.2.createdAt, x.1)

def RoundJson.key (r : RoundJson) : ℤ ×ₗ Text := toLex (r.createdAt, r.id)

def Tables.keys (t : Tables) (tag : Option Text) : List (ℤ ×ₗ Text) :=
  (t.rounds.filter fun x => tag.all fun tag => x.2.tag = some tag).map keyOf

def boundOf : Option (Int × Text) → WithTop (ℤ ×ₗ Text)
  | none => ⊤
  | some cursor => (toLex cursor : ℤ ×ₗ Text)

def limitOf (limit : Option Int) : Nat := (clamp (limit.getD DEFAULT_LIMIT) 1 MAX_LIMIT).toNat

lemma limitOf_pos (limit : Option Int) : 0 < limitOf limit := by
  unfold limitOf clamp
  omega

lemma later_iff {a b : Int × Text} : Later a b ↔ toLex b < toLex a := by
  rw [Prod.Lex.toLex_lt_toLex, Later]
  constructor
  · rintro (h | ⟨h, h'⟩)
    · exact .inl h
    · exact .inr ⟨h.symm, h'⟩
  · rintro (h | ⟨h, h'⟩)
    · exact .inl h
    · exact .inr ⟨h.symm, h'⟩

lemma later_bound (after : Option (Int × Text)) (x : Text × Condition) :
    (after.all fun cursor => decide (Later cursor (x.2.createdAt, x.1))) =
      decide (((keyOf x : ℤ ×ₗ Text) : WithTop (ℤ ×ₗ Text)) < boundOf after) := by
  cases after with
  | none => exact (decide_eq_true (WithTop.coe_lt_top _)).symm
  | some cursor =>
    rw [Option.all_some, decide_eq_decide, later_iff]
    exact WithTop.coe_lt_coe.symm

/-- The rows of a page and of what follows it. -/
def Tables.listed (t : Tables) (tag : Option Text) (after : Option (Int × Text)) : List (Text × Condition) :=
  (t.rounds.filter fun x => tag.all (fun tag => x.2.tag = some tag) &&
    after.all fun cursor => Later cursor (x.2.createdAt, x.1)).insertionSort
      fun x y => ¬Later (y.2.createdAt, y.1) (x.2.createdAt, x.1)

lemma listed_keys (t : Tables) (tag : Option Text) (after : Option (Int × Text)) :
    (t.listed tag after).map keyOf = Keyset.below (t.keys tag) (boundOf after) := by
  have hsort : ∀ x y : Text × Condition,
      ¬Later (y.2.createdAt, y.1) (x.2.createdAt, x.1) ↔ keyOf y ≤ keyOf x := fun x y => by
    rw [later_iff, not_lt]
    rfl
  rw [Tables.listed, List.map_insertionSort _ (fun a b => b ≤ a) keyOf _ fun x _ y _ => hsort x y, Keyset.below,
    Tables.keys, List.filter_map, List.filter_filter]
  congr 2
  refine List.filter_congr fun x _ => ?_
  rw [later_bound, Bool.and_comm]
  rfl

lemma listRounds_eq (t : Tables) (tag : Option Text) (limit : Option Int) {cursor : Option Text}
    {after : Option (Int × Text)} (hcursor : cursor.mapM decodeCursor = .ok after) : ∃ data more,
    listRounds t ⟨tag, none, limit, cursor⟩ = .ok (.rounds data
      ((Keyset.next (t.keys tag) (boundOf after) (limitOf limit)).map fun k => encodeCursor (ofLex k).1 (ofLex k).2) more) ∧
      data.map RoundJson.key = Keyset.page (t.keys tag) (boundOf after) (limitOf limit) := by
  have hkeys := listed_keys t tag after
  have hpage : (((t.listed tag after).take (limitOf limit)).map fun x => roundOf t x.1 x.2).map RoundJson.key =
      Keyset.page (t.keys tag) (boundOf after) (limitOf limit) := by
    rw [Keyset.page, ← hkeys, List.map_map, ← List.map_take]
    rfl
  refine ⟨((t.listed tag after).take (limitOf limit)).map fun x => roundOf t x.1 x.2,
    decide (limitOf limit < (t.listed tag after).length), ?_, hpage⟩
  have hnext : (if limitOf limit < (t.listed tag after).length then
        (((t.listed tag after).take (limitOf limit)).map fun x => roundOf t x.1 x.2).getLast?.map
          fun r => encodeCursor r.createdAt r.id else none) =
      (Keyset.next (t.keys tag) (boundOf after) (limitOf limit)).map fun k => encodeCursor (ofLex k).1 (ofLex k).2 := by
    rw [Keyset.next, ← hkeys, List.length_map, ← hpage]
    split_ifs with hmore
    · simp only [List.getLast?_map, Option.map_map]
      rfl
    · rfl
  rw [← hnext]
  have hstatus : (none : Option Text).mapM internalStatus = .ok none := rfl
  rw [listRounds, hstatus, hcursor]
  simp only [bind, Except.bind, Option.all_none, Bool.and_true, decide_eq_true_eq]
  rfl

/-! ### The pages together -/

lemma Pages.of_follow {tag : Option Text} {requests : List (Tables × Option Int)} {cursor : Option Text}
    {after : Option (Int × Text)} (hcursor : cursor.mapM decodeCursor = .ok after)
    (htyped : ∀ r ∈ requests, ∀ k ∈ r.1.keys tag, inI64 (ofLex k).1)
    (hdone : (Keyset.follow (requests.map fun r => (r.1.keys tag, limitOf r.2)) (boundOf after)).2 = true) :
    ∃ n rows, Pages tag (requests.take n) cursor rows ∧
      rows.map RoundJson.key = (Keyset.follow (requests.map fun r => (r.1.keys tag, limitOf r.2)) (boundOf after)).1 := by
  induction requests generalizing cursor after with
  | nil => cases hdone
  | cons r requests ih =>
    obtain ⟨t, limit⟩ := r
    obtain ⟨hfirst, hrest⟩ := List.forall_mem_cons.mp htyped
    obtain ⟨data, more, hanswer, hkeys⟩ := listRounds_eq t tag limit hcursor
    rw [List.map_cons, Keyset.follow] at hdone ⊢
    cases hnext : Keyset.next (t.keys tag) (boundOf after) (limitOf limit) with
    | none =>
      rw [hnext] at hanswer
      exact ⟨1, data, .last hanswer, hkeys⟩
    | some k =>
      rw [hnext] at hanswer hdone
      have hk := hfirst k (Keyset.mem_page (Keyset.next_mem hnext)).1
      have hc : (some (encodeCursor (ofLex k).1 (ofLex k).2)).mapM decodeCursor = .ok (some (ofLex k)) := by
        show (do let x ← decodeCursor (encodeCursor (ofLex k).1 (ofLex k).2); pure (some x)) = _
        rw [decodeCursor_encodeCursor hk]
        rfl
      obtain ⟨n, rows, hpages, hrows⟩ := ih hc hrest hdone
      refine ⟨n + 1, data ++ rows, .next hanswer hpages, ?_⟩
      rw [List.map_append, hkeys, hrows]
      rfl

/-! ### What happens between two pages -/

section Between

variable {cfg : Config} {origin : Text} {s s' : Service} {start : Int}

lemma row_same {db db' : Database} (heq : db'.conditions = db.conditions) {c : Condition}
    (hc : db'.conditions id = some c) : ∃ c₀, db.conditions id = some c₀ ∧ c₀.createdAt = c.createdAt :=
  ⟨c, by rw [← heq, hc], rfl⟩

lemma row_inserted {db : Database} {newId : Text} {row c : Condition}
    (hc : (db.insertCondition newId row).conditions id = some c) :
    (∃ c₀, db.conditions id = some c₀ ∧ c₀.createdAt = c.createdAt) ∨ (row.createdAt, newId) = (c.createdAt, id) := by
  rw [Database.insertCondition_conditions] at hc
  by_cases hid : id = newId
  · subst hid
    rw [Function.update_self] at hc
    obtain rfl := Option.some.inj hc
    exact .inr rfl
  · rw [Function.update_of_ne hid] at hc
    exact .inl ⟨c, hc, rfl⟩

lemma step_rows {e : Event} (h : step cfg origin s e = .ok s') {c : Condition} (hc : s'.db.conditions id = some c) :
    (∃ c₀, s.db.conditions id = some c₀ ∧ c₀.createdAt = c.createdAt) ∨ creation s e = some (c.createdAt, id) := by
  cases e with
  | arrive r =>
    obtain rfl := Except.ok.inj h
    exact .inl (row_same rfl hc)
  | proceed i now draw =>
    simp only [step, bind_eq_ok, expect_eq_ok, pure_eq_ok] at h
    obtain ⟨hd, hget, ⟨db', hd'⟩, hhandle, rfl⟩ := h
    rcases handle_cases hhandle with ⟨-, rfl, -⟩ | ⟨-, rfl, -⟩ | ⟨hstage, json, hins, -⟩ | ⟨json, key, -, -, rfl, -⟩ |
      ⟨json, -, rfl, -⟩ | ⟨_, -, rfl, -⟩
    · exact .inl (row_same rfl hc)
    · exact .inl (row_same rfl hc)
    · simp only [insertRound, bind_eq_ok, expect_eq_ok, require_eq_ok, pure_eq_ok, Prod.mk.injEq] at hins
      obtain ⟨tag, -, show_, -, committeeId, -, kind, -, ⟨⟩, -, rfl, -⟩ := hins
      rcases row_inserted hc with hold | hnew
      · exact .inl hold
      · right
        rw [creation, hget, Option.bind_some, if_pos hstage]
        exact congrArg some hnew
    · exact .inl (row_same rfl hc)
    · refine .inl (row_same ?_ hc)
      rcases compose_cases cfg s.db hd.request.body json now draw with ⟨_, _, -, -, heq⟩ | ⟨-, _, _, heq⟩
      · rw [heq]
        rfl
      · rw [heq]
    · exact .inl (row_same rfl hc)
  | crash =>
    obtain rfl := Except.ok.inj h
    exact .inl (row_same rfl hc)
  | engine round status =>
    obtain rfl := Except.ok.inj h
    simp only [Database.setStatus_conditions] at hc
    by_cases hid : id = round
    · subst hid
      rw [Function.update_self] at hc
      obtain ⟨c₀, hc₀, rfl⟩ := Option.map_eq_some_iff.mp hc
      exact .inl ⟨c₀, hc₀, rfl⟩
    · rw [Function.update_of_ne hid] at hc
      exact .inl ⟨c, hc, rfl⟩
  | createCondition round row =>
    simp only [step, bind_eq_ok, require_eq_ok, pure_eq_ok] at h
    obtain ⟨⟨⟩, -, rfl⟩ := h
    rcases row_inserted hc with hold | hnew
    · exact .inl hold
    · exact .inr (congrArg some hnew)
  | registerCommittee row =>
    obtain rfl := Except.ok.inj h
    exact .inl (row_same rfl hc)
  | createSeal roundId b64 now code =>
    simp only [step] at h
    cases hseal : createSeal cfg s.db roundId b64 now code with
    | error e =>
      rw [hseal] at h
      cases h
    | ok x =>
      obtain ⟨db', out⟩ := x
      rw [hseal] at h
      obtain rfl := Except.ok.inj h
      obtain ⟨⟨rows, rfl⟩, -⟩ := createSeal_eq_ok hseal
      exact .inl (row_same rfl hc)

/-- The rows of the first state, and of the rounds created since. -/
def Dated (start : Int) (first : Database) (s : Service) : Prop :=
  ∀ id c, s.db.conditions id = some c →
    (∃ c₀, first.conditions id = some c₀ ∧ c₀.createdAt = c.createdAt) ∨ start ≤ c.createdAt ∧ inI64 c.createdAt ∧ IsDrawn id

lemma dated_step {first : Database} {e : Event} (hs : Dated start first s) (he : Stamped start s e)
    (h : step cfg origin s e = .ok s') : Dated start first s' := by
  intro id c hc
  rcases step_rows h hc with ⟨c₀, hc₀, htime⟩ | hcreated
  · rcases hs id c₀ hc₀ with ⟨c₁, hc₁, htime₁⟩ | hnew
    · exact .inl ⟨c₁, hc₁, htime₁.trans htime⟩
    · exact .inr (htime ▸ hnew)
  · exact .inr (he _ hcreated)

lemma dated_exec {first : Database} {events : List Event} (hs : Dated start first s)
    (h : Along (step cfg origin) (Stamped start) s events) : Dated start first (exec (step cfg origin) s events) :=
  exec_invariant_along (step cfg origin) (I := Dated start first) (fun _ _ _ hs ht hstep => dated_step hs ht hstep) hs h

lemma exec_keepsRounds (events : List Event) : KeepsRounds s.db (exec (step cfg origin) s events).db :=
  exec_invariant (step cfg origin) (I := fun s' => KeepsRounds s.db s'.db)
    (fun _ _ _ hs hstep => hs.trans (step_keepsRounds hstep)) (KeepsRounds.refl _) events

end Between

/-! ### The keys of the listing -/

lemma drawn_finite : {id | IsDrawn id}.Finite := by
  refine (Set.finite_range fun f : Fin 12 → Fin 256 => newId "cond".toList (List.ofFn fun i => (f i : Nat))).subset ?_
  rintro id ⟨bytes, hlength, hbytes, rfl⟩
  refine ⟨fun i => ⟨bytes.get ⟨i, by omega⟩, hbytes _ (List.get_mem ..)⟩, congrArg (newId "cond".toList) ?_⟩
  exact List.ext_getElem (by rw [List.length_ofFn, hlength]) fun i h h' => by
    rw [List.getElem_ofFn]
    rfl

section Walk

variable {cfg : Config} {origin : Text} {s : Nat → Service} {events : Nat → List Event} {tables : Nat → Tables}
  {tag : Option Text} {start : Int}

lemma mem_keys {t : Tables} {k : ℤ ×ₗ Text} : k ∈ t.keys tag ↔ ∃ id c, id ∈ t.ids ∧ t.conditions id = some c ∧
    (∀ g ∈ tag, c.tag = some g) ∧ k = toLex (c.createdAt, id) := by
  rw [Tables.keys, List.mem_map]
  constructor
  · rintro ⟨⟨id, c⟩, hx, rfl⟩
    obtain ⟨hround, htag⟩ := List.mem_filter.mp hx
    obtain ⟨id', hid, hrow⟩ := List.mem_filterMap.mp hround
    obtain ⟨c', hc, heq⟩ := Option.map_eq_some_iff.mp hrow
    obtain ⟨rfl, rfl⟩ := Prod.mk.inj heq
    refine ⟨id', c', hid, hc, ?_, rfl⟩
    rintro g rfl
    exact of_decide_eq_true htag
  · rintro ⟨id, c, hid, hc, htag, rfl⟩
    refine ⟨(id, c), List.mem_filter.mpr ⟨List.mem_filterMap.mpr ⟨id, hid, by rw [hc]; rfl⟩, ?_⟩, rfl⟩
    cases tag with
    | none => rfl
    | some g => exact decide_eq_true (htag g rfl)

lemma keys_nodup {t : Tables} (h : t.ids.Nodup) : (t.keys tag).Nodup := by
  have hrow : ∀ x ∈ t.rounds, t.conditions x.1 = some x.2 := by
    intro x hx
    obtain ⟨id, -, heq⟩ := List.mem_filterMap.mp hx
    obtain ⟨c, hc, rfl⟩ := Option.map_eq_some_iff.mp heq
    exact hc
  have hrounds : t.rounds.Nodup := by
    refine h.filterMap fun id id' x hx hx' => ?_
    obtain ⟨c, -, rfl⟩ := Option.map_eq_some_iff.mp hx
    obtain ⟨c', -, heq⟩ := Option.map_eq_some_iff.mp hx'
    exact (Prod.mk.inj heq).1.symm
  refine (hrounds.filter _).map_on fun x hx y hy heq => ?_
  have hid : x.1 = y.1 := (Prod.mk.inj (toLex.injective heq)).2
  have hx := hrow x (List.mem_of_mem_filter hx)
  rw [hid, hrow y (List.mem_of_mem_filter hy)] at hx
  exact Prod.ext hid (Option.some.inj hx).symm

lemma keys_finite {first : Tables} (hfirst : Holds (s 0) first) (hdated : ∀ k, Dated start (s 0).db (s k))
    (hshown : ∀ k, Holds (s k) (tables k)) (bound : ℤ ×ₗ Text) :
    {k : ℤ ×ₗ Text | k < bound ∧ ∃ j, k ∈ (tables j).keys tag}.Finite := by
  have hnew : (toLex '' (Set.Icc start (ofLex bound).1 ×ˢ {id | IsDrawn id}) : Set (ℤ ×ₗ Text)).Finite :=
    ((Set.finite_Icc _ _).prod drawn_finite).image _
  refine ((first.keys none).toFinset.finite_toSet.union hnew).subset ?_
  rintro k ⟨hlt, j, hk⟩
  obtain ⟨id, c, -, hc, -, rfl⟩ := mem_keys.mp hk
  rw [(hshown j).conditions] at hc
  rcases hdated j id c hc with ⟨c₀, hc₀, htime⟩ | ⟨hstart, -, hdrawn⟩
  · left
    rw [← hfirst.conditions] at hc₀
    have hid : id ∈ first.ids := (hfirst.ids id).mpr (by rw [hc₀]; exact Option.some_ne_none _)
    have hmem : toLex (c.createdAt, id) ∈ first.keys none :=
      mem_keys.mpr ⟨id, c₀, hid, hc₀, (fun g hg => by cases hg), by rw [htime]⟩
    exact List.mem_toFinset.mpr hmem
  · right
    refine ⟨(c.createdAt, id), ⟨⟨hstart, ?_⟩, hdrawn⟩, rfl⟩
    rcases Prod.Lex.toLex_lt_toLex.mp hlt with h | ⟨h, -⟩
    · exact le_of_lt h
    · exact le_of_eq h

lemma follow_ends (hdated : ∀ k, Dated start (s 0).db (s k)) (hshown : ∀ k, Holds (s k) (tables k))
    (limits : Nat → Option Int) :
    ∃ n, (Keyset.follow ((List.range n).map fun k => ((tables k).keys tag, limitOf (limits k))) ⊤).2 = true := by
  cases hnext : Keyset.next ((tables 0).keys tag) ⊤ (limitOf (limits 0)) with
  | none =>
    refine ⟨1, ?_⟩
    rw [List.range_one, List.map_singleton, Keyset.follow, hnext]
  | some bound =>
    have hfinite : {k : ℤ ×ₗ Text | k < bound ∧ ∃ j, k ∈ (tables j).keys tag}.Finite :=
      keys_finite (hshown 0) hdated hshown bound
    refine ⟨hfinite.toFinset.card + 2, ?_⟩
    rw [List.range_succ_eq_map, List.map_cons, Keyset.follow, hnext]
    dsimp only
    refine Keyset.follow_finite hfinite.toFinset ?_ ?_ ?_
    · intro t ht
      rw [List.map_map] at ht
      obtain ⟨k, -, rfl⟩ := List.mem_map.mp ht
      exact keys_nodup (hshown (k + 1)).nodup
    · intro t ht k hk hlt
      rw [List.map_map] at ht
      obtain ⟨j, -, rfl⟩ := List.mem_map.mp ht
      exact hfinite.mem_toFinset.mpr ⟨WithTop.coe_lt_coe.mp hlt, j + 1, hk⟩
    · rw [List.length_map, List.length_map, List.length_range]
      omega

end Walk

lemma count_once {rows : List RoundJson} {r : RoundJson}
    (hsorted : rows.Pairwise fun a b => Later (a.createdAt, a.id) (b.createdAt, b.id)) (hr : r ∈ rows)
    (hsame : ∀ r' ∈ rows, r'.id = r.id → r'.createdAt = r.createdAt) : (rows.map RoundJson.id).count r.id = 1 := by
  obtain ⟨before, after, rfl⟩ := List.append_of_mem hr
  obtain ⟨-, hafter, hbefore⟩ := List.pairwise_append.mp hsorted
  have hirrefl : ¬Later (r.createdAt, r.id) (r.createdAt, r.id) := fun h => lt_irrefl _ (later_iff.mp h)
  have hnotBefore : r.id ∉ before.map RoundJson.id := by
    intro hmem
    obtain ⟨r', hr', hid⟩ := List.mem_map.mp hmem
    have hlater := hbefore r' hr' r List.mem_cons_self
    rw [hsame r' (List.mem_append_left _ hr') hid, hid] at hlater
    exact hirrefl hlater
  have hnotAfter : r.id ∉ after.map RoundJson.id := by
    intro hmem
    obtain ⟨r', hr', hid⟩ := List.mem_map.mp hmem
    have hlater := (List.pairwise_cons.mp hafter).1 r' hr'
    rw [hsame r' (List.mem_append_right _ (List.mem_cons_of_mem _ hr')) hid, hid] at hlater
    exact hirrefl hlater
  rw [List.map_append, List.map_cons, List.count_append, List.count_cons_self,
    List.count_eq_zero_of_not_mem hnotBefore, List.count_eq_zero_of_not_mem hnotAfter]

/-- Whatever is created, frozen and revealed between the requests, a client that follows the cursor comes to the last
page, and has got every round of the first state once, the newest first. -/
theorem listing_complete (cfg : Config) (origin : Text) (s : Nat → Service) (events : Nat → List Event)
    (tables : Nat → Tables) (limits : Nat → Option Int) (tag : Option Text) (start : Int)
    (hrun : ∀ k, s (k + 1) = exec (step cfg origin) (s k) (events k))
    (hclock : ∀ k, Along (step cfg origin) (Stamped start) (s k) (events k))
    (hshown : ∀ k, Holds (s k) (tables k))
    (htyped : ∀ id c, (s 0).db.conditions id = some c → inI64 c.createdAt) :
    ∃ n rows, Pages tag ((List.range n).map fun k => (tables k, limits k)) none rows ∧
      (rows.Pairwise fun a b => Later (a.createdAt, a.id) (b.createdAt, b.id)) ∧
      ∀ id c, (s 0).db.conditions id = some c → (∀ g ∈ tag, c.tag = some g) → (rows.map RoundJson.id).count id = 1 := by
  have hdated : ∀ k, Dated start (s 0).db (s k) := by
    intro k
    induction k with
    | zero => exact fun id c hc => .inl ⟨c, hc, rfl⟩
    | succ k ih =>
      rw [hrun k]
      exact dated_exec ih (hclock k)
  have hkeeps : ∀ k, KeepsRounds (s 0).db (s k).db := by
    intro k
    induction k with
    | zero => exact KeepsRounds.refl _
    | succ k ih =>
      rw [hrun k]
      exact ih.trans (exec_keepsRounds (events k))
  obtain ⟨n, hdone⟩ := follow_ends hdated hshown limits
  have hrequests : ((List.range n).map fun k => (tables k, limits k)).map (fun r => (r.1.keys tag, limitOf r.2)) =
      (List.range n).map fun k => ((tables k).keys tag, limitOf (limits k)) := by
    rw [List.map_map]
    rfl
  rw [← hrequests] at hdone
  have hinside : ∀ r ∈ (List.range n).map (fun k => (tables k, limits k)), ∃ k, r = (tables k, limits k) := by
    intro r hr
    obtain ⟨k, -, rfl⟩ := List.mem_map.mp hr
    exact ⟨k, rfl⟩
  have htables : ∀ t ∈ ((List.range n).map fun k => (tables k, limits k)).map (fun r => (r.1.keys tag, limitOf r.2)),
      ∃ k, t = ((tables k).keys tag, limitOf (limits k)) := by
    intro t ht
    obtain ⟨r, hr, rfl⟩ := List.mem_map.mp ht
    obtain ⟨k, rfl⟩ := hinside r hr
    exact ⟨k, rfl⟩
  obtain ⟨m, rows, hpages, hrows⟩ := Pages.of_follow (show (none : Option Text).mapM decodeCursor = .ok none from rfl) (fun r hr k hk => by
    obtain ⟨j, rfl⟩ := hinside r hr
    obtain ⟨id, c, -, hc, -, rfl⟩ := mem_keys.mp hk
    rw [(hshown j).conditions] at hc
    rcases hdated j id c hc with ⟨c₀, hc₀, htime⟩ | ⟨-, hin, -⟩
    · exact htime ▸ htyped id c₀ hc₀
    · exact hin) hdone
  have hsorted : rows.Pairwise fun a b => Later (a.createdAt, a.id) (b.createdAt, b.id) := by
    have hdistinct : ∀ t ∈ ((List.range n).map fun k => (tables k, limits k)).map (fun r => (r.1.keys tag, limitOf r.2)),
        t.1.Nodup := by
      intro t ht
      obtain ⟨k, rfl⟩ := htables t ht
      exact keys_nodup (hshown k).nodup
    have hkeys : (Keyset.follow _ (⊤ : WithTop (ℤ ×ₗ Text))).1.Pairwise _ := Keyset.follow_sorted hdistinct
    rw [show (⊤ : WithTop (ℤ ×ₗ Text)) = boundOf none from rfl, ← hrows, List.pairwise_map] at hkeys
    exact hkeys.imp fun h => later_iff.mpr h
  refine ⟨min m n, rows, ?_, hsorted, fun id c hc htag => ?_⟩
  · rwa [← List.map_take, List.take_range] at hpages
  · have hpresent : ∀ k, toLex (c.createdAt, id) ∈ (tables k).keys tag := by
      intro k
      obtain ⟨status, hstatus⟩ := hkeeps k id c hc
      rw [← (hshown k).conditions] at hstatus
      have hid : id ∈ (tables k).ids := ((hshown k).ids id).mpr (by rw [hstatus]; exact Option.some_ne_none _)
      exact mem_keys.mpr ⟨id, _, hid, hstatus, htag, rfl⟩
    have hread := Keyset.follow_complete (k := toLex (c.createdAt, id)) (fun t ht => by
      obtain ⟨k, rfl⟩ := htables t ht
      exact ⟨keys_nodup (hshown k).nodup, limitOf_pos _, hpresent k⟩) (WithTop.coe_lt_top _) hdone
    rw [show (⊤ : WithTop (ℤ ×ₗ Text)) = boundOf none from rfl, ← hrows] at hread
    obtain ⟨r, hr, hkey⟩ := List.mem_map.mp hread
    obtain ⟨htime, rfl⟩ := Prod.mk.inj (toLex.injective hkey)
    -- rows of one id are of one time, so each comes before the other
    have hsame : ∀ r' ∈ rows, r'.id = r.id → r'.createdAt = r.createdAt := by
      intro r' hr' hid
      have hmem := List.mem_map_of_mem (f := RoundJson.key) hr'
      rw [hrows] at hmem
      obtain ⟨t, ht, hk⟩ := Keyset.follow_mem hmem
      obtain ⟨k, rfl⟩ := htables t ht
      obtain ⟨id', c', -, hc', -, heq⟩ := mem_keys.mp hk
      obtain ⟨htime', rfl⟩ := Prod.mk.inj (toLex.injective heq)
      obtain ⟨status, hstatus⟩ := hkeeps k r.id c hc
      rw [← (hshown k).conditions, ← hid, hc'] at hstatus
      rw [htime', htime, Option.some.inj hstatus]
    exact count_once hsorted hr hsame

/-- Two rounds of one second. -/
def twinTables : Tables where
  toDatabase := (Database.empty.insertCondition ['a'] sampleCondition).insertCondition ['b'] sampleCondition
  ids := [['a'], ['b']]
  paramsBlob := fun _ => []
  timing := fun _ => ⟨none, none⟩
  submissionMode := fun _ => []
  intentEvents := fun _ => []
  commitmentSignature := fun _ => none
  counters := []
  payments := []

def twinService : Service := .start twinTables.toDatabase

lemma twin_conditions (id : Text) : twinTables.conditions id =
    if id = ['b'] then some sampleCondition else if id = ['a'] then some sampleCondition else none := by
  simp only [twinTables, Database.insertCondition_conditions, Function.update_apply]
  rfl

lemma twin_holds : Holds twinService twinTables where
  conditions := rfl
  nodup := by decide
  ids := fun id => by
    rw [twin_conditions, show twinTables.ids = [['a'], ['b']] from rfl]
    by_cases ha : id = ['a'] <;> by_cases hb : id = ['b'] <;> simp [ha, hb]

theorem twins_listed : ∃ n rows, Pages none ((List.range n).map fun _ => (twinTables, some 1)) none rows ∧
    (rows.Pairwise fun a b => Later (a.createdAt, a.id) (b.createdAt, b.id)) ∧
    (rows.map RoundJson.id).count ['a'] = 1 := by
  obtain ⟨n, rows, hpages, hsorted, honce⟩ := listing_complete sampleConfig [] (fun _ => twinService) (fun _ => [])
    (fun _ => twinTables) (fun _ => some 1) none 0 (fun _ => rfl) (fun _ => trivial) (fun _ => twin_holds)
    (fun id c hc => by
      have hrow := twin_conditions id
      rw [show twinTables.conditions id = some c from hc] at hrow
      split_ifs at hrow <;> rw [Option.some.inj hrow] <;> decide)
  exact ⟨n, rows, hpages, hsorted, honce ['a'] sampleCondition (twin_conditions ['a']) (fun g hg => by cases hg)⟩

end Peal.Coordinator
