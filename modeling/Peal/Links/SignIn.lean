import Peal.Links.IssuedTimes

namespace Peal.Links.Auth
open Peal.Fallible Peal.Numerals
open Peal.Coordinator (trim)

/-! # Sign-in messages -/

structure Siwe where
  domain : Text
  address : Text
  nonce : Text
  issuedAt : Text
  expirationTime : Option Text
  chainId : Nat
  deriving DecidableEq, Repr

def GREETING : Text := " wants you to sign in with your Ethereum account:".toList

def stripSuffix (suffix s : Text) : Option Text :=
  if suffix <:+ s then some (s.take (s.length - suffix.length)) else none

def isHexDigit (c : Char) : Bool := (toDigit 16 c).isSome

def isAddress (s : Text) : Bool := s.length = 42 && s.take 2 = ['0', 'x'] && (s.drop 2).all isHexDigit

/-- The text before and after the first colon with a space. -/
def splitOnce : Text → Option (Text × Text)
  | ':' :: ' ' :: rest => some ([], rest)
  | c :: rest => (splitOnce rest).map fun p => (c :: p.1, p.2)
  | [] => none

inductive Key where
  | uri
  | version
  | chainId
  | nonce
  | issuedAt
  | expirationTime
  | notBefore
  | requestId
  | resources
  deriving DecidableEq

def Key.name : Key → Text
  | .uri => "URI".toList
  | .version => "Version".toList
  | .chainId => "Chain ID".toList
  | .nonce => "Nonce".toList
  | .issuedAt => "Issued At".toList
  | .expirationTime => "Expiration Time".toList
  | .notBefore => "Not Before".toList
  | .requestId => "Request ID".toList
  | .resources => "Resources".toList

def Key.all : List Key :=
  [.uri, .version, .chainId, .nonce, .issuedAt, .expirationTime, .notBefore, .requestId, .resources]

def Key.ofName (k : Text) : Option Key := Key.all.find? fun key => key.name = k

structure Fields where
  uri : Option Text := none
  version : Option Text := none
  chainId : Option Nat := none
  nonce : Option Text := none
  issuedAt : Option Text := none
  expirationTime : Option Text := none

/-- A line replaces what an earlier one of its key said; blank lines are passed over. -/
def readField (f : Fields) (line : Text) : Except String Fields :=
  if line = [] then .ok f
  else do
    let (k, v) ← expect (splitOnce line) "bad field line"
    match Key.ofName k with
    | some .uri => return { f with uri := some v }
    | some .version => return { f with version := some v }
    | some .chainId => return { f with chainId := some (← expect (parseU64 10 v) "bad chain id") }
    | some .nonce => return { f with nonce := some v }
    | some .issuedAt => return { f with issuedAt := some v }
    | some .expirationTime => return { f with expirationTime := some v }
    | some .notBefore => return f
    | some .requestId => return f
    | some .resources => return f
    | none => if "- ".toList <+: k then return f else throw "unknown field"

/-- A line that does not begin the fields is the statement, and a blank line follows it. -/
def afterStatement : List Text → Except String (List Text)
  | [] :: first :: rest =>
    if "URI: ".toList <+: first then .ok (first :: rest)
    else
      match rest with
      | [] :: fields => .ok fields
      | _ => .error "missing blank after statement"
  | [] :: [] => .ok []
  | _ => .error "missing blank line"

def parse (message : Text) : Except String Siwe := do
  let lines := message.splitOn '\n'
  let first ← expect lines.head? "empty"
  let domain ← expect (stripSuffix GREETING first) "bad first line"
  let address ← expect lines[1]? "missing address"
  require (isAddress (trim address) = true) "bad address"
  let fields ← afterStatement (lines.drop 2)
  let f ← fields.foldlM readField {}
  require (f.version = some ['1']) "version must be 1"
  let _ ← expect f.uri "missing URI"
  let nonce ← expect f.nonce "missing nonce"
  let issuedAt ← expect f.issuedAt "missing issued at"
  let chainId ← expect f.chainId "missing chain id"
  return ⟨domain, trim address, nonce, issuedAt, f.expirationTime, chainId⟩

/-! ### Messages as the standard has them -/

/-- What the standard takes from others: URIs and their parts, and how an address is spelled. -/
structure Grammar where
  scheme : Text → Prop
  authority : Text → Prop
  address : Text → Prop
  statement : Text → Prop
  uri : Text → Prop
  requestId : Text → Prop
  oneLine : ∀ s, scheme s ∨ authority s ∨ statement s ∨ uri s ∨ requestId s → '\n' ∉ s
  hex : ∀ s, address s → isAddress s = true

structure Message where
  scheme : Option Text
  domain : Text
  address : Text
  statement : Option Text
  uri : Text
  chainId : Text
  nonce : Text
  issuedAt : Text
  expirationTime : Option Text
  notBefore : Option Text
  requestId : Option Text
  resources : Option (List Text)

def field (key : Key) (value : Text) : Text := key.name ++ ':' :: ' ' :: value

namespace Message

def origin (e : Message) : Text := (e.scheme.elim [] fun s => s ++ "://".toList) ++ e.domain

/-- Each in its place, and what is optional at the end. -/
def fields (e : Message) : List Text :=
  [field .uri e.uri, field .version ['1'], field .chainId e.chainId, field .nonce e.nonce, field .issuedAt e.issuedAt] ++
    e.expirationTime.toList.map (field .expirationTime) ++ e.notBefore.toList.map (field .notBefore) ++
    e.requestId.toList.map (field .requestId)

def resourceLines (e : Message) : List Text :=
  e.resources.elim [] fun l => "Resources:".toList :: l.map ("- ".toList ++ ·)

def lines (e : Message) : List Text :=
  (e.origin ++ GREETING) :: e.address :: [] :: (e.statement.toList ++ [] :: (e.fields ++ e.resourceLines))

def text (e : Message) : Text := ['\n'].intercalate e.lines

def siwe (e : Message) : Siwe := ⟨e.domain, e.address, e.nonce, e.issuedAt, e.expirationTime, value e.chainId⟩

structure WellFormed (G : Grammar) (e : Message) : Prop where
  scheme : ∀ s ∈ e.scheme, G.scheme s
  domain : G.authority e.domain
  address : G.address e.address
  statement : ∀ s ∈ e.statement, G.statement s
  uri : G.uri e.uri
  chainId : AllDigits e.chainId ∧ e.chainId ≠ []
  nonce : 8 ≤ e.nonce.length ∧ ∀ c ∈ e.nonce, c.isAlphanum = true
  issuedAt : ∃ unix, DateTime e.issuedAt unix
  expirationTime : ∀ s ∈ e.expirationTime, ∃ unix, DateTime s unix
  notBefore : ∀ s ∈ e.notBefore, ∃ unix, DateTime s unix
  requestId : ∀ s ∈ e.requestId, G.requestId s
  resources : ∀ l ∈ e.resources, ∀ r ∈ l, G.uri r

/-- Without a scheme and resources, with a statement, and of a chain whose number fits 64 bits. -/
structure Plain (e : Message) : Prop where
  scheme : e.scheme = none
  statement : e.statement ≠ none
  resources : e.resources = none
  chainId : value e.chainId < 2 ^ 64

end Message

/-- Accepted are the messages of the standard, each for its own fields. -/
def ReadRight (G : Grammar) (m : Text) : Prop := ∀ s, parse m = .ok s ↔ ∃ e : Message, e.WellFormed G ∧ m = e.text ∧ s = e.siwe

/-! ### The field lines that are accepted -/

/-- What the lines of a key say, in order. -/
def values (key : Key) (lines : List Text) : List Text :=
  lines.filterMap fun line => (splitOnce line).bind fun p => if Key.ofName p.1 = some key then some p.2 else none

/-- A blank line, or one of a key that is known; a chain's number fits 64 bits. -/
def Known (line : Text) : Prop :=
  line = [] ∨ ∃ k v, splitOnce line = some (k, v) ∧ ((Key.ofName k).isSome = true ∨ "- ".toList <+: k) ∧
    (Key.ofName k = some .chainId → (parseU64 10 v).isSome = true)

/-- The last line of a key counts. -/
def record (f : Fields) (lines : List Text) : Fields where
  uri := (values .uri lines).getLast?.or f.uri
  version := (values .version lines).getLast?.or f.version
  chainId := ((values .chainId lines).filterMap (parseU64 10)).getLast?.or f.chainId
  nonce := (values .nonce lines).getLast?.or f.nonce
  issuedAt := (values .issuedAt lines).getLast?.or f.issuedAt
  expirationTime := (values .expirationTime lines).getLast?.or f.expirationTime

section Lines

variable {f g : Fields} {line : Text} {lines : List Text} {k v : Text}

lemma values_cons (key : Key) (line : Text) (lines : List Text) :
    values key (line :: lines) = values key [line] ++ values key lines := by
  rw [← List.singleton_append, values, List.filterMap_append]
  rfl

lemma values_line (key : Key) (h : splitOnce line = some (k, v)) :
    values key [line] = if Key.ofName k = some key then [v] else [] := by
  rw [values, List.filterMap_cons, h, Option.bind_some]
  split_ifs with hk <;> rfl

lemma record_cons (f : Fields) (line : Text) (lines : List Text) :
    record f (line :: lines) = record (record f [line]) lines := by
  simp only [record, values_cons _ line lines, List.filterMap_append, List.getLast?_append, Option.or_assoc]

lemma readField_key (hblank : line ≠ []) (hsplit : splitOnce line = some (k, v)) {key : Key}
    (hkey : Key.ofName k = some key) (hnumber : key = .chainId → (parseU64 10 v).isSome = true) :
    readField f line = .ok (record f [line]) := by
  rw [readField, if_neg hblank, hsplit, record]
  simp only [values_line _ hsplit, expect, bind, Except.bind, hkey]
  cases key with
  | chainId =>
    obtain ⟨n, hn⟩ := Option.isSome_iff_exists.mp (hnumber rfl)
    simp [hn, pure, Except.pure]
  | _ => rfl

lemma readField_eq_ok : readField f line = .ok g ↔ Known line ∧ g = record f [line] := by
  by_cases hblank : line = []
  · subst hblank
    have hrecord : readField f [] = .ok (record f [[]]) := rfl
    rw [hrecord, Except.ok.injEq]
    exact ⟨fun h => ⟨.inl rfl, h.symm⟩, fun h => h.2.symm⟩
  constructor
  · intro h
    have hread := h
    rw [readField, if_neg hblank, bind_eq_ok] at h
    obtain ⟨⟨k, v⟩, hsplit, h⟩ := h
    rw [expect_eq_ok] at hsplit
    dsimp only at h
    cases hkey : Key.ofName k with
    | none =>
      rw [hkey] at h
      dsimp only at h
      split_ifs at h with hlist
      refine ⟨.inr ⟨k, v, hsplit, .inr hlist, fun hchain => ?_⟩, ?_⟩
      · rw [hkey] at hchain
        cases hchain
      · rw [← pure_eq_ok.mp h, record]
        simp only [values_line _ hsplit, hkey]
        rfl
    | some key =>
      have hnumber : key = .chainId → (parseU64 10 v).isSome = true := by
        rintro rfl
        rw [hkey] at h
        simp only [bind_eq_ok, expect_eq_ok] at h
        obtain ⟨n, hn, -⟩ := h
        rw [hn]
        rfl
      refine ⟨.inr ⟨k, v, hsplit, .inl (by rw [hkey]; rfl), fun hchain => hnumber ?_⟩, ?_⟩
      · rw [hkey] at hchain
        exact Option.some.inj hchain
      · rw [readField_key hblank hsplit hkey hnumber, Except.ok.injEq] at hread
        exact hread.symm
  · rintro ⟨hknown, rfl⟩
    obtain ⟨k, v, hsplit, hname, hnumber⟩ := hknown.resolve_left hblank
    cases hkey : Key.ofName k with
    | none =>
      rw [hkey] at hname
      have hlist := hname.resolve_left (by decide)
      rw [readField, if_neg hblank, hsplit, record]
      simp only [values_line _ hsplit, hkey, expect, bind, Except.bind, if_pos hlist]
      rfl
    | some key =>
      exact readField_key hblank hsplit hkey fun hchain => hnumber (by rw [hkey, hchain])

lemma foldlM_readField : lines.foldlM readField f = .ok g ↔ (∀ line ∈ lines, Known line) ∧ g = record f lines := by
  induction lines generalizing f with
  | nil => exact ⟨fun h => ⟨fun _ hl => (nomatch hl), (Except.ok.inj h).symm⟩, fun h => congrArg _ h.2.symm⟩
  | cons line lines ih =>
    rw [List.foldlM_cons, bind_eq_ok, List.forall_mem_cons, record_cons]
    constructor
    · rintro ⟨f', hf', hrest⟩
      obtain ⟨hknown, rfl⟩ := readField_eq_ok.mp hf'
      obtain ⟨hlines, rfl⟩ := ih.mp hrest
      exact ⟨⟨hknown, hlines⟩, rfl⟩
    · rintro ⟨⟨hknown, hlines⟩, rfl⟩
      exact ⟨_, readField_eq_ok.mpr ⟨hknown, rfl⟩, ih.mpr ⟨hlines, rfl⟩⟩

lemma chain_number (hknown : ∀ line ∈ lines, Known line) (hne : values .chainId lines ≠ []) :
    ∃ n, ((values .chainId lines).filterMap (parseU64 10)).getLast? = some n := by
  have hall : ∀ v ∈ values .chainId lines, (parseU64 10 v).isSome = true := by
    intro v hv
    obtain ⟨line, hline, hvalue⟩ := List.mem_filterMap.mp hv
    obtain ⟨⟨k, v'⟩, hsplit, hif⟩ := Option.bind_eq_some_iff.mp hvalue
    dsimp only at hif
    split_ifs at hif with hkey
    rw [Option.some.injEq] at hif
    rcases hknown line hline with hblank | ⟨k', w, hsplit', -, hnumber⟩
    · rw [hblank] at hsplit
      cases hsplit
    · rw [hsplit, Option.some.injEq, Prod.mk.injEq] at hsplit'
      obtain ⟨rfl, rfl⟩ := hsplit'
      exact hif ▸ hnumber hkey
  obtain ⟨v, rest, hvalues⟩ := List.exists_cons_of_ne_nil hne
  obtain ⟨n, hn⟩ := Option.isSome_iff_exists.mp (hall v (hvalues ▸ List.mem_cons_self))
  have hmem : n ∈ (values .chainId lines).filterMap (parseU64 10) :=
    List.mem_filterMap.mpr ⟨v, hvalues ▸ List.mem_cons_self, hn⟩
  exact ⟨_, List.getLast?_eq_getLast_of_ne_nil (List.ne_nil_of_mem hmem)⟩

end Lines

/-! ### The texts that are accepted -/

/-- Before the fields there may be a statement and a blank line. -/
def Opened (lines fields : List Text) : Prop :=
  lines = fields ∧ (∀ line ∈ fields.head?, "URI: ".toList <+: line) ∨
    ∃ statement, ¬"URI: ".toList <+: statement ∧ lines = statement :: [] :: fields

def Laid (m domain address : Text) (fields : List Text) : Prop :=
  ∃ lines, m.splitOn '\n' = (domain ++ GREETING) :: address :: [] :: lines ∧ Opened lines fields

/-- What is checked of the address line and the field lines, in whatever order these come and however often. -/
structure Passes (address : Text) (fields : List Text) : Prop where
  address : isAddress (trim address) = true
  known : ∀ line ∈ fields, Known line
  version : (values .version fields).getLast? = some ['1']
  uri : values .uri fields ≠ []
  nonce : values .nonce fields ≠ []
  issuedAt : values .issuedAt fields ≠ []
  chainId : values .chainId fields ≠ []

def Lenient (m : Text) : Prop := ∃ domain address fields, Laid m domain address fields ∧ Passes address fields

section Accepting

variable {m : Text} {s : Siwe}

lemma last_exists {l : List Text} (h : l ≠ []) : ∃ t, l.getLast? = some t := ⟨_, List.getLast?_eq_getLast_of_ne_nil h⟩

lemma stripSuffix_eq_some {suffix t front : Text} : stripSuffix suffix t = some front ↔ t = front ++ suffix := by
  unfold stripSuffix
  rw [Option.ite_none_right_eq_some, Option.some.injEq]
  constructor
  · rintro ⟨⟨before, rfl⟩, hfront⟩
    rw [List.length_append, Nat.add_sub_cancel, List.take_left] at hfront
    rw [hfront]
  · rintro rfl
    exact ⟨List.suffix_append _ _, by rw [List.length_append, Nat.add_sub_cancel, List.take_left]⟩

lemma afterStatement_eq_ok {lines fields : List Text} :
    afterStatement lines = .ok fields ↔ ∃ rest, lines = [] :: rest ∧ Opened rest fields := by
  unfold Opened
  constructor
  · intro h
    unfold afterStatement at h
    split at h
    · rename_i first rest
      split_ifs at h with huri
      · rw [Except.ok.injEq] at h
        exact ⟨_, rfl, .inl ⟨h, fun line hline => by rw [← h] at hline; rwa [← Option.some.inj hline]⟩⟩
      · split at h
        · rw [Except.ok.injEq] at h
          exact ⟨_, rfl, .inr ⟨first, huri, by rw [h]⟩⟩
        · cases h
    · rw [Except.ok.injEq] at h
      exact ⟨[], rfl, .inl ⟨h, fun line hline => by rw [← h] at hline; cases hline⟩⟩
    · cases h
  · rintro ⟨rest, rfl, ⟨rfl, huri⟩ | ⟨statement, hno, rfl⟩⟩
    · cases rest with
      | nil => rfl
      | cons first rest =>
        unfold afterStatement
        exact if_pos (huri first rfl)
    · unfold afterStatement
      exact if_neg hno

/-- What the parser accepts, and what it returns. -/
theorem parse_eq_ok : parse m = .ok s ↔ ∃ address fields, Laid m s.domain address fields ∧ Passes address fields ∧
    s.address = trim address ∧ (values .nonce fields).getLast? = some s.nonce ∧
    (values .issuedAt fields).getLast? = some s.issuedAt ∧ s.expirationTime = (values .expirationTime fields).getLast? ∧
    ((values .chainId fields).filterMap (parseU64 10)).getLast? = some s.chainId := by
  simp only [parse, bind_eq_ok, expect_eq_ok, require_eq_ok, pure_eq_ok, afterStatement_eq_ok, foldlM_readField,
    stripSuffix_eq_some]
  constructor
  · rintro ⟨first, hfirst, domain, rfl, address, haddress, -, hhex, fields, ⟨lines, hlines, hopened⟩, f, ⟨hknown, rfl⟩, -,
      hversion, uri, huri, nonce, hnonce, issuedAt, hissued, chainId, hchain, rfl⟩
    simp only [record, Option.or_none] at hversion huri hnonce hissued hchain
    refine ⟨address, fields, ⟨lines, ?_, hopened⟩, ?_, rfl, hnonce, hissued, ?_, hchain⟩
    · rw [List.head?_eq_some_iff] at hfirst
      obtain ⟨rest, hsplit⟩ := hfirst
      rw [hsplit] at haddress hlines ⊢
      rw [List.getElem?_cons_succ, ← List.head?_eq_getElem?, List.head?_eq_some_iff] at haddress
      obtain ⟨rest', rfl⟩ := haddress
      rw [List.drop_succ_cons, List.drop_succ_cons, List.drop_zero] at hlines
      rw [hlines]
    · refine ⟨hhex, hknown, hversion, ?_, ?_, ?_, ?_⟩
      · exact fun hnil => by rw [hnil] at huri; cases huri
      · exact fun hnil => by rw [hnil] at hnonce; cases hnonce
      · exact fun hnil => by rw [hnil] at hissued; cases hissued
      · exact fun hnil => by rw [hnil] at hchain; cases hchain
    · simp only [record, Option.or_none]
  · obtain ⟨domain, address, nonce, issuedAt, expirationTime, chainId⟩ := s
    rintro ⟨line, fields, ⟨lines, hlines, hopened⟩, hpasses, rfl, hnonce, hissued, rfl, hchain⟩
    obtain ⟨uri, huri⟩ := last_exists hpasses.uri
    refine ⟨_, by rw [hlines]; rfl, domain, rfl, line, by rw [hlines]; rfl, (), hpasses.address, fields,
      ⟨lines, by rw [hlines]; rfl, hopened⟩, record {} fields, ⟨hpasses.known, rfl⟩, (), ?_, uri, ?_, nonce, ?_,
      issuedAt, ?_, chainId, ?_, ?_⟩
    · simp only [record, Option.or_none, hpasses.version]
    · simp only [record, Option.or_none, huri]
    · simp only [record, Option.or_none, hnonce]
    · simp only [record, Option.or_none, hissued]
    · simp only [record, Option.or_none, hchain]
    · simp only [record, Option.or_none]

lemma parse_isOk : (∃ s, parse m = .ok s) ↔ Lenient m := by
  simp only [parse_eq_ok]
  constructor
  · rintro ⟨s, address, fields, hlaid, hpasses, -⟩
    exact ⟨s.domain, address, fields, hlaid, hpasses⟩
  · rintro ⟨domain, address, fields, hlaid, hpasses⟩
    obtain ⟨nonce, hnonce⟩ := last_exists hpasses.nonce
    obtain ⟨issuedAt, hissued⟩ := last_exists hpasses.issuedAt
    obtain ⟨n, hn⟩ := chain_number hpasses.known hpasses.chainId
    exact ⟨⟨domain, trim address, nonce, issuedAt, _, n⟩, address, fields, hlaid, hpasses, rfl, hnonce, hissued, rfl, hn⟩

end Accepting

end Peal.Links.Auth
