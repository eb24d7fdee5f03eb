import Peal.Links.SignIn
import Peal.Library.JsStrings

namespace Peal.Links.Auth
open Peal.Fallible Peal.Numerals
open Peal.Coordinator (Stamp trim)

/-! # The messages of the standard and what the parser makes of them -/

/-! ### Numerals and addresses -/

section Texts

variable {ds s v : Text}

lemma toDigit_ten {c : Char} (h : c.isDigit = true) : toDigit 10 c = some (c.toNat - 48) := by
  rw [Char.isDigit, Bool.and_eq_true, decide_eq_true_eq, decide_eq_true_eq] at h
  have hhigh : c.toNat ≤ 57 := h.2
  have hrange : '0' ≤ c ∧ c ≤ '9' := h
  rw [toDigit, if_pos hrange, Option.filter_some, if_pos]
  · rfl
  · have hzero : '0'.toNat = 48 := rfl
    exact decide_eq_true (by omega)

lemma value_snoc (ds : Text) (c : Char) : value (ds ++ [c]) = value ds * 10 + (c.toNat - 48) := by
  have hlast : value [c] = 0 * 10 + (c.toNat - 48) := by
    rw [value, Nat.ofDigitChars_eq_foldl]
    rfl
  rw [value_append, List.length_singleton, pow_one, hlast, Nat.zero_mul, Nat.zero_add]

lemma parseDigits_value (h : AllDigits ds) :
    parseDigits 10 ds = if value ds < 2 ^ 64 then some (value ds) else none := by
  induction ds using List.reverseRecOn with
  | nil => rfl
  | append_singleton ds c ih =>
    obtain ⟨hds, hc⟩ := allDigits_append.mp h
    have hstep : parseDigits 10 (ds ++ [c]) = (parseDigits 10 ds).bind fun acc =>
        if acc * 10 + (c.toNat - 48) < 2 ^ 64 then some (acc * 10 + (c.toNat - 48)) else none := by
      rw [parseDigits, List.foldlM_append, ← parseDigits]
      refine congrArg (parseDigits 10 ds).bind (funext fun acc => ?_)
      rw [List.foldlM_cons, toDigit_ten (hc c List.mem_cons_self)]
      simp only [Option.bind_eq_bind, Option.bind_some, List.foldlM_nil, Option.pure_def, Option.bind_fun_some]
    rw [hstep, ih hds, value_snoc]
    by_cases hlt : value ds < 2 ^ 64
    · rw [if_pos hlt, Option.bind_some]
    · rw [if_neg hlt, Option.bind_none, if_neg (by omega)]

lemma parseU64_value (h : AllDigits ds) (hne : ds ≠ []) :
    parseU64 10 ds = if value ds < 2 ^ 64 then some (value ds) else none := by
  rw [← parseDigits_value h]
  unfold parseU64
  split
  · exact absurd rfl hne
  · have hplus := h '+' List.mem_cons_self
    cases hplus
  · rfl

lemma isHexDigit_cases {c : Char} (h : isHexDigit c = true) :
    '0' ≤ c ∧ c ≤ '9' ∨ 'a' ≤ c ∧ c ≤ 'z' ∨ 'A' ≤ c ∧ c ≤ 'Z' := by
  unfold isHexDigit toDigit at h
  split_ifs at h with h1 h2 h3
  · exact .inl h1
  · exact .inr (.inl h2)
  · exact .inr (.inr h3)
  · cases h

lemma hex_visible {c : Char} (h : isHexDigit c = true) : Coordinator.isWhitespace c = false := by
  have hrange : 48 ≤ c.toNat ∧ c.toNat ≤ 122 := by
    rcases isHexDigit_cases h with hc | hc | hc
    · exact ⟨hc.1, le_trans (show c.toNat ≤ 57 from hc.2) (by decide)⟩
    · exact ⟨le_trans (by decide) (show 97 ≤ c.toNat from hc.1), hc.2⟩
    · exact ⟨le_trans (by decide) (show 65 ≤ c.toNat from hc.1), le_trans (show c.toNat ≤ 90 from hc.2) (by decide)⟩
  rw [Coordinator.isWhitespace, Bool.or_eq_false_iff, decide_eq_false_iff_not, Bool.and_eq_false_iff]
  refine ⟨?_, .inl (decide_eq_false (by omega))⟩
  simp only [List.mem_cons, List.not_mem_nil, or_false, not_or]
  omega

lemma isAddress_chars (h : isAddress s = true) : s.length = 42 ∧ ∃ rest, s = '0' :: 'x' :: rest ∧
    ∀ c ∈ rest, isHexDigit c = true := by
  rw [isAddress, Bool.and_eq_true, Bool.and_eq_true, decide_eq_true_eq, decide_eq_true_eq, List.all_eq_true] at h
  obtain ⟨⟨hlength, htake⟩, hall⟩ := h
  refine ⟨hlength, s.drop 2, ?_, hall⟩
  rw [← List.take_append_drop 2 s, htake]
  rfl

lemma trim_address (h : isAddress s = true) : trim s = s := by
  obtain ⟨hlength, rest, rfl, hall⟩ := isAddress_chars h
  refine JsStrings.strip_eq_self.mpr ⟨?_, ?_⟩
  · intro c hc
    obtain rfl := Option.some.inj hc
    decide
  · intro c hc
    have hmem := List.mem_of_getLast? hc
    simp only [List.mem_cons] at hmem
    rcases hmem with rfl | rfl | hrest
    · decide
    · decide
    · exact hex_visible (hall c hrest)

lemma address_oneLine (h : isAddress s = true) : '\n' ∉ s := by
  obtain ⟨-, rest, rfl, hall⟩ := isAddress_chars h
  simp only [List.mem_cons, not_or]
  refine ⟨by decide, by decide, fun hmem => ?_⟩
  have hbreak := hall _ hmem
  cases hbreak

lemma dateTime_oneLine {unix : Int} (h : DateTime s unix) : '\n' ∉ s := by
  obtain ⟨p, offset, hp, rfl, -⟩ := h
  obtain ⟨⟨hmo, -⟩, ⟨hd, -⟩, ⟨hh, -⟩, ⟨hmi, -⟩, ⟨hs, -⟩⟩ := hp.digits
  have hsep : '\n' ≠ p.separator := by
    intro heq
    have hmem := hp.separator
    rw [← heq] at hmem
    revert hmem
    decide
  have hfraction : '\n' ∉ p.fraction := by
    rcases hp.fraction with hnone | ⟨ds, -, hds, hsome⟩
    · rw [hnone]
      exact List.not_mem_nil
    · rw [hsome, List.mem_cons, not_or]
      exact ⟨by decide, not_mem_digits hds rfl⟩
  have hzone : '\n' ∉ p.zone := by
    have hzone := hp.zone
    generalize p.zone = z at hzone
    cases hzone with
    | zulu => decide
    | small => decide
    | ahead hour minute => simpa [not_or] using ⟨not_mem_digits hour.1 rfl, not_mem_digits minute.1 rfl⟩
    | behind hour minute => simpa [not_or] using ⟨not_mem_digits hour.1 rfl, not_mem_digits minute.1 rfl⟩
  rw [text_eq]
  simp only [dateOf, clockOf, List.mem_append, List.mem_cons, not_or]
  exact ⟨⟨not_mem_digits hp.year.1 rfl, by decide, not_mem_digits hmo rfl, by decide, not_mem_digits hd rfl⟩, hsep,
    not_mem_digits hh rfl, by decide, not_mem_digits hmi rfl, by decide, not_mem_digits hs rfl, hfraction, hzone⟩

end Texts

/-! ### Field lines -/

section Fields

variable {e : Message} {key other : Key} {v : Text}

lemma splitOnce_append {k : Text} (h : ':' ∉ k) (rest : Text) : splitOnce (k ++ ':' :: ' ' :: rest) = some (k, rest) := by
  induction k with
  | nil => rfl
  | cons c k ih =>
    rw [List.mem_cons, not_or] at h
    rw [List.cons_append, splitOnce.eq_2 _ _ fun rest' hc _ => h.1 hc.symm, ih h.2]
    rfl

lemma ofName_name (key : Key) : Key.ofName key.name = some key := by
  cases key <;> rfl

lemma splitOnce_field (key : Key) (v : Text) : splitOnce (field key v) = some (key.name, v) :=
  splitOnce_append (by cases key <;> decide) v

lemma values_field (key other : Key) (v : Text) : values other [field key v] = if key = other then [v] else [] := by
  rw [values_line other (splitOnce_field key v), ofName_name]
  simp only [Option.some.injEq]

lemma values_append (lines more : List Text) : values key (lines ++ more) = values key lines ++ values key more :=
  List.filterMap_append

lemma values_option (o : Option Text) : values other (o.toList.map (field key)) = if key = other then o.toList else [] := by
  cases o with
  | none => exact (ite_self []).symm
  | some v => exact values_field key other v

lemma values_fields (e : Message) : values .uri e.fields = [e.uri] ∧ values .version e.fields = [['1']] ∧
    values .chainId e.fields = [e.chainId] ∧ values .nonce e.fields = [e.nonce] ∧
    values .issuedAt e.fields = [e.issuedAt] ∧ values .expirationTime e.fields = e.expirationTime.toList := by
  have hfive : ∀ key, values key [field .uri e.uri, field .version ['1'], field .chainId e.chainId, field .nonce e.nonce,
      field .issuedAt e.issuedAt] = values key [field .uri e.uri] ++ (values key [field .version ['1']] ++
        (values key [field .chainId e.chainId] ++ (values key [field .nonce e.nonce] ++
          values key [field .issuedAt e.issuedAt]))) := by
    intro key
    rw [values_cons, values_cons key _ [_, _, _], values_cons key _ [_, _], values_cons key _ [_]]
  simp only [Message.fields, values_append, hfive, values_field, values_option]
  exact ⟨rfl, rfl, rfl, rfl, rfl, by simp⟩

lemma known_field (h : key = .chainId → (parseU64 10 v).isSome = true) : Known (field key v) :=
  .inr ⟨key.name, v, splitOnce_field key v, .inl (by rw [ofName_name]; rfl), fun hchain => h (by
    rw [ofName_name] at hchain
    exact Option.some.inj hchain)⟩

lemma number_known (h : Known (field .chainId v)) : (parseU64 10 v).isSome = true := by
  rcases h with hnil | ⟨k, w, hsplit, -, hnumber⟩
  · cases hnil
  · rw [splitOnce_field, Option.some.injEq, Prod.mk.injEq] at hsplit
    obtain ⟨rfl, rfl⟩ := hsplit
    exact hnumber rfl

end Fields

/-! ### Whole messages -/

section Messages

variable {G : Grammar} {e : Message}

lemma field_oneLine {key : Key} {v : Text} (h : '\n' ∉ v) : '\n' ∉ field key v := by
  simp only [field, List.mem_append, List.mem_cons, not_or]
  exact ⟨by cases key <;> decide, by decide, by decide, h⟩

lemma Message.WellFormed.oneLine (h : e.WellFormed G) : ∀ line ∈ e.lines, '\n' ∉ line := by
  have horigin : '\n' ∉ e.origin ++ GREETING := by
    have hdomain := G.oneLine _ (.inr (.inl h.domain))
    have hscheme : '\n' ∉ e.scheme.elim [] fun s => s ++ "://".toList := by
      cases hs : e.scheme with
      | none => exact List.not_mem_nil
      | some s =>
        rw [Option.elim_some, List.mem_append, not_or]
        exact ⟨G.oneLine _ (.inl (h.scheme s hs)), by decide⟩
    simp only [Message.origin, List.mem_append, not_or]
    exact ⟨⟨hscheme, hdomain⟩, by decide⟩
  have hnonce : '\n' ∉ e.nonce := by
    intro hmem
    have hbreak := h.nonce.2 _ hmem
    cases hbreak
  have hfields : ∀ line ∈ e.fields, '\n' ∉ line := by
    simp only [Message.fields, List.forall_mem_append, List.forall_mem_cons, List.forall_mem_map, Option.mem_toList]
    obtain ⟨unix, hunix⟩ := h.issuedAt
    refine ⟨⟨⟨⟨field_oneLine (G.oneLine _ (.inr (.inr (.inr (.inl h.uri))))), field_oneLine (by decide),
      field_oneLine (not_mem_digits h.chainId.1 rfl), field_oneLine hnonce, field_oneLine (dateTime_oneLine hunix),
      fun _ hl => (nomatch hl)⟩, fun v hv => ?_⟩, fun v hv => ?_⟩, fun v hv => ?_⟩
    · obtain ⟨unix, hunix⟩ := h.expirationTime v hv
      exact field_oneLine (dateTime_oneLine hunix)
    · obtain ⟨unix, hunix⟩ := h.notBefore v hv
      exact field_oneLine (dateTime_oneLine hunix)
    · exact field_oneLine (G.oneLine _ (.inr (.inr (.inr (.inr (h.requestId v hv))))))
  have hresources : ∀ line ∈ e.resourceLines, '\n' ∉ line := by
    unfold Message.resourceLines
    cases hl : e.resources with
    | none => exact fun _ hl => (nomatch hl)
    | some l =>
      rw [Option.elim_some, List.forall_mem_cons, List.forall_mem_map]
      refine ⟨by decide, fun r hr => ?_⟩
      rw [List.mem_append, not_or]
      exact ⟨by decide, G.oneLine _ (.inr (.inr (.inr (.inl (h.resources l hl r hr)))))⟩
  simp only [Message.lines, List.forall_mem_cons, List.forall_mem_append, Option.mem_toList]
  exact ⟨horigin, address_oneLine (G.hex _ h.address), List.not_mem_nil,
    fun s hs => G.oneLine _ (.inr (.inr (.inl (h.statement s hs)))), List.not_mem_nil, hfields, hresources⟩

lemma Message.WellFormed.split (h : e.WellFormed G) : e.text.splitOn '\n' = e.lines :=
  List.splitOn_intercalate '\n' h.oneLine (List.cons_ne_nil _ _)

lemma parse_plain (h : e.WellFormed G) (hplain : e.Plain) : parse e.text = .ok e.siwe := by
  obtain ⟨statement, hstatement⟩ := Option.ne_none_iff_exists'.mp hplain.statement
  have hnumber := parseU64_value h.chainId.1 h.chainId.2
  rw [if_pos hplain.chainId] at hnumber
  have haddress := G.hex _ h.address
  have hlines : e.lines = (e.domain ++ GREETING) :: e.address :: [] :: (statement :: [] :: e.fields) := by
    simp only [Message.lines, Message.origin, Message.resourceLines, hplain.scheme, hstatement, hplain.resources,
      Option.elim_none, List.nil_append, List.append_nil, Option.toList_some, List.singleton_append]
  have hknown : ∀ line ∈ e.fields, Known line := by
    simp only [Message.fields, List.forall_mem_append, List.forall_mem_cons, List.forall_mem_map]
    have hplainField : ∀ {key : Key} {v : Text}, key ≠ .chainId → Known (field key v) := fun hne =>
      known_field fun heq => absurd heq hne
    exact ⟨⟨⟨⟨hplainField (by decide), hplainField (by decide), known_field fun _ => by rw [hnumber]; rfl,
      hplainField (by decide), hplainField (by decide), fun _ hl => (nomatch hl)⟩, fun _ _ => hplainField (by decide)⟩,
      fun _ _ => hplainField (by decide)⟩, fun _ _ => hplainField (by decide)⟩
  obtain ⟨huri, hversion, hchain, hnonce, hissued, hexpiration⟩ := values_fields e
  -- a statement that begins like the first field is read as one more of its lines
  have hopened : ∃ fields, Opened (statement :: [] :: e.fields) fields ∧ (∀ line ∈ fields, Known line) ∧
      values .uri fields ≠ [] ∧ ∀ key, key ≠ .uri → values key fields = values key e.fields := by
    by_cases hbegins : "URI: ".toList <+: statement
    · obtain ⟨rest, rfl⟩ := hbegins
      have hfield : "URI: ".toList ++ rest = field .uri rest := rfl
      refine ⟨_, .inl ⟨rfl, fun line hline => ?_⟩, ?_, ?_, fun key hkey => ?_⟩
      · rw [← Option.some.inj hline]
        exact List.prefix_append _ _
      · have hknownFirst : Known (field .uri rest) := known_field fun heq => (nomatch heq)
        exact List.forall_mem_cons.mpr ⟨hknownFirst, List.forall_mem_cons.mpr ⟨.inl rfl, hknown⟩⟩
      · rw [values_cons, hfield, values_field, if_pos rfl]
        exact List.cons_ne_nil _ _
      · rw [values_cons, hfield, values_field, if_neg fun heq => hkey heq.symm]
        rfl
    · exact ⟨e.fields, .inr ⟨statement, hbegins, rfl⟩, hknown, by rw [huri]; exact List.cons_ne_nil _ _, fun _ _ => rfl⟩
  obtain ⟨fields, hopened, hall, hfirst, hothers⟩ := hopened
  rw [← hothers _ (by decide)] at hversion hchain hnonce hissued hexpiration
  refine parse_eq_ok.mpr ⟨e.address, fields, ⟨_, h.split.trans hlines, hopened⟩, ⟨?_, hall, ?_, hfirst, ?_, ?_, ?_⟩, ?_, ?_, ?_, ?_, ?_⟩
  · rw [trim_address haddress]
    exact haddress
  · rw [hversion]
    rfl
  · rw [hnonce]
    exact List.cons_ne_nil _ _
  · rw [hissued]
    exact List.cons_ne_nil _ _
  · rw [hchain]
    exact List.cons_ne_nil _ _
  · exact (trim_address haddress).symm
  · rw [hnonce]
    rfl
  · rw [hissued]
    rfl
  · rw [hexpiration, Message.siwe]
    cases e.expirationTime <;> rfl
  · rw [hchain, List.filterMap_cons, hnumber]
    rfl

lemma plain_of_parse (h : e.WellFormed G) (hparse : parse e.text = .ok e.siwe) : e.Plain := by
  obtain ⟨address, fields, ⟨lines, hlines, hopened⟩, hpasses, -⟩ := parse_eq_ok.mp hparse
  rw [h.split, Message.lines] at hlines
  simp only [List.cons.injEq, List.append_cancel_right_eq, true_and] at hlines
  obtain ⟨horigin, -, hlines⟩ := hlines
  cases hstatement : e.statement with
  | none =>
    exfalso
    rw [hstatement, Option.toList_none, List.nil_append] at hlines
    rcases hopened with ⟨rfl, hfirst⟩ | ⟨statement, -, heq⟩
    · have hprefixed := hfirst [] (by rw [← hlines]; rfl)
      revert hprefixed
      decide
    · rw [heq] at hlines
      have hfirst : (e.fields ++ e.resourceLines).head? = some (field .uri e.uri) := rfl
      rw [(List.cons.inj hlines).2, List.head?_cons, Option.some.injEq] at hfirst
      exact List.append_ne_nil_of_right_ne_nil _ (List.cons_ne_nil _ _) hfirst.symm
  | some statement =>
    rw [hstatement, Option.toList_some, List.singleton_append] at hlines
    have hall : ∀ line ∈ e.fields ++ e.resourceLines, Known line := by
      intro line hline
      rcases hopened with ⟨rfl, -⟩ | ⟨statement', -, heq⟩
      · refine hpasses.known line ?_
        rw [← hlines]
        exact List.mem_cons_of_mem _ (List.mem_cons_of_mem _ hline)
      · rw [heq] at hlines
        have hfields := (List.cons.inj (List.cons.inj hlines).2).2
        exact hpasses.known line (hfields ▸ hline)
    refine ⟨?_, by rw [hstatement]; exact Option.some_ne_none _, ?_, ?_⟩
    · cases hscheme : e.scheme with
      | none => rfl
      | some s =>
        exfalso
        rw [Message.origin, hscheme, Option.elim_some] at horigin
        have hlength := congrArg List.length horigin
        simp [Message.siwe] at hlength
        omega
    · cases hresources : e.resources with
      | none => rfl
      | some l =>
        exfalso
        have hfirst : "Resources:".toList ∈ e.fields ++ e.resourceLines := by
          rw [Message.resourceLines, hresources]
          exact List.mem_append_right _ List.mem_cons_self
        rcases hall _ hfirst with hnil | ⟨k, v, hsplit, -⟩
        · cases hnil
        · cases hsplit
    · have hchain := number_known (hall (field .chainId e.chainId) (List.mem_append_left _ (by simp [Message.fields])))
      rw [parseU64_value h.chainId.1 h.chainId.2] at hchain
      by_contra hlarge
      rw [if_neg hlarge] at hchain
      cases hchain

end Messages

/-- A text is read right exactly when it is no message of the standard and one of the checks fails for it, or it is one
without a scheme and resources, with a statement, and of a chain whose number fits 64 bits; a timestamp that is accepted
is read right exactly when it is one in UTC. -/
theorem sign_in_read_iff (G : Grammar) (m : Text) :
    (ReadRight G m ↔ (Lenient m → ∃ e : Message, e.WellFormed G ∧ m = e.text) ∧
      ∀ e : Message, e.WellFormed G → m = e.text → e.Plain) ∧
    ∀ s n, parseRfc3339 s = some n → (DateTime s n ↔ Utc s) := by
  refine ⟨⟨fun h => ⟨?_, ?_⟩, ?_⟩, fun s n h => dateTime_iff h⟩
  · intro hlenient
    obtain ⟨s, hs⟩ := parse_isOk.mpr hlenient
    obtain ⟨e, he, hm, -⟩ := (h s).mp hs
    exact ⟨e, he, hm⟩
  · rintro e he rfl
    exact plain_of_parse he ((h e.siwe).mpr ⟨e, he, rfl, rfl⟩)
  · rintro ⟨hlenient, hplain⟩ s
    constructor
    · intro hs
      obtain ⟨e, he, rfl⟩ := hlenient (parse_isOk.mp ⟨s, hs⟩)
      rw [parse_plain he (hplain e he rfl), Except.ok.injEq] at hs
      exact ⟨e, he, rfl, hs.symm⟩
    · rintro ⟨e, he, rfl, rfl⟩
      exact parse_plain he (hplain e he rfl)

/-! ### Samples -/

def sampleMessage (statement : Option Text) : Message where
  scheme := none
  domain := "localhost:5173".toList
  address := "0x1234567890abcdef1234567890abcdef12345678".toList
  statement := statement
  uri := "http://localhost:5173/bonsai/app".toList
  chainId := "31337".toList
  nonce := "abcdefgh12345678".toList
  issuedAt := "2026-09-16T10:00:00Z".toList
  expirationTime := none
  notBefore := none
  requestId := none
  resources := none

def sampleStatement : Text := "Sign in to Peal Links.".toList

/-- A grammar of lines without a break. -/
def sampleGrammar : Grammar where
  scheme s := s = "https".toList
  authority s := s = "localhost:5173".toList
  address s := isAddress s = true
  statement s := s = sampleStatement
  uri s := s = "http://localhost:5173/bonsai/app".toList
  requestId s := s = []
  oneLine s h := by
    rcases h with rfl | rfl | rfl | rfl | rfl <;> decide
  hex s h := h

def sampleStamp : Stamp := ⟨"2026".toList, "09".toList, "16".toList, 'T', "10".toList, "00".toList, "00".toList, [], ['Z']⟩

lemma allDigits_of (s : Text) (h : s.all Char.isDigit = true) : AllDigits s := List.all_eq_true.mp h

lemma sampleStamp_utc : Rfc3339 sampleStamp 0 where
  year := ⟨allDigits_of _ (by decide), rfl⟩
  fields := by
    simp only [Stamp.fields, sampleStamp, List.forall_mem_cons]
    exact ⟨⟨allDigits_of _ (by decide), rfl⟩, ⟨allDigits_of _ (by decide), rfl⟩, ⟨allDigits_of _ (by decide), rfl⟩,
      ⟨allDigits_of _ (by decide), rfl⟩, ⟨allDigits_of _ (by decide), rfl⟩, fun _ h => absurd h List.not_mem_nil⟩
  separator := by decide
  fraction := .inl rfl
  zone := .zulu
  date := ⟨by decide, by decide⟩
  time := by decide
  second := .inl (by decide)

lemma sampleMessage_wellFormed : (sampleMessage (some sampleStatement)).WellFormed sampleGrammar where
  scheme _ hs := nomatch hs
  domain := rfl
  address := show isAddress "0x1234567890abcdef1234567890abcdef12345678".toList = true by decide +kernel
  statement s hs := (Option.some.inj hs).symm
  uri := rfl
  chainId := ⟨allDigits_of _ (by decide), by decide⟩
  nonce := ⟨by decide, List.all_eq_true.mp (show "abcdefgh12345678".toList.all Char.isAlphanum = true by decide)⟩
  issuedAt := ⟨_, sampleStamp, 0, sampleStamp_utc, rfl, rfl⟩
  expirationTime _ hs := nomatch hs
  notBefore _ hs := nomatch hs
  requestId _ hs := nomatch hs
  resources _ hs := nomatch hs

lemma sampleMessage_plain {e : Message} (h : e.WellFormed sampleGrammar)
    (htext : (sampleMessage (some sampleStatement)).text = e.text) : e.Plain := by
  have hlines : e.lines = (sampleMessage (some sampleStatement)).lines := by
    rw [← h.split, ← htext, sampleMessage_wellFormed.split]
  rw [Message.lines, Message.lines] at hlines
  simp only [List.cons.injEq, List.append_cancel_right_eq, true_and] at hlines
  obtain ⟨horigin, -, hlines⟩ := hlines
  cases hstatement : e.statement with
  | none =>
    rw [hstatement] at hlines
    exact absurd (List.cons.inj hlines).1 (by decide)
  | some statement =>
    rw [hstatement] at hlines
    have hfields := (List.cons.inj (List.cons.inj hlines).2).2
    refine ⟨?_, by rw [hstatement]; exact Option.some_ne_none _, ?_, ?_⟩
    · cases hscheme : e.scheme with
      | none => rfl
      | some s =>
        have hslash : '/' ∈ e.origin := by
          rw [Message.origin, hscheme, Option.elim_some]
          exact List.mem_append_left _ (List.mem_append_right _ (by decide))
        rw [horigin] at hslash
        exact absurd hslash (by decide +kernel)
    · cases hresources : e.resources with
      | none => rfl
      | some l =>
        have hfirst : "Resources:".toList ∈ e.fields ++ e.resourceLines := by
          rw [Message.resourceLines, hresources]
          exact List.mem_append_right _ List.mem_cons_self
        rw [hfields] at hfirst
        exact absurd hfirst (by decide +kernel)
    · have hchain := congrArg (fun l => l[2]?) hfields
      have hsame : field .chainId e.chainId = field .chainId "31337".toList := Option.some.inj hchain
      rw [(List.cons.inj (List.cons.inj (List.append_cancel_left hsame)).2).2]
      decide +kernel

theorem sign_in_read_iff_sample :
    ReadRight sampleGrammar (sampleMessage (some sampleStatement)).text ∧
      DateTime "2026-09-16T10:00:00Z".toList 1789552800 :=
  ⟨(sign_in_read_iff _ _).1.mpr ⟨fun _ => ⟨_, sampleMessage_wellFormed, rfl⟩, fun _ h htext => sampleMessage_plain h htext⟩,
    ((sign_in_read_iff sampleGrammar []).2 "2026-09-16T10:00:00Z".toList 1789552800 (by decide +kernel)).mpr
      ⟨sampleStamp, sampleStamp_utc, rfl⟩⟩

/-! ### What is accepted or refused against the standard -/

def duplicatedLines : List Text :=
  ["localhost:5173".toList ++ GREETING, "0x1234567890abcdef1234567890abcdef12345678".toList, [], sampleStatement, [],
    field .uri "http://localhost:5173/bonsai/app".toList, field .version ['1'], field .chainId "31337".toList,
    field .nonce "aaaaaaaa".toList, field .nonce "bbbbbbbb".toList, field .issuedAt "2026-09-16T10:00:00Z".toList]

def duplicated : Text := ['\n'].intercalate duplicatedLines

lemma duplicated_parse : (parse duplicated).toOption.map Siwe.nonce = some "bbbbbbbb".toList := by
  decide +kernel

lemma Rfc3339.length {p : Stamp} {offset : Int} (h : Rfc3339 p offset) : 20 ≤ p.text.length := by
  obtain ⟨⟨-, hmo⟩, ⟨-, hd⟩, ⟨-, hh⟩, ⟨-, hmi⟩, ⟨-, hs⟩⟩ := h.digits
  have hzone : 1 ≤ p.zone.length := by
    have hzone := h.zone
    generalize p.zone = z at hzone
    cases hzone <;> simp
  rw [text_eq]
  simp only [dateOf, clockOf, List.length_append, List.length_cons, h.year.2, hmo, hd, hh, hmi, hs]
  omega

/-- Of two nonces the last is taken, no grammar has such a message, one without a statement is refused, and there is no
thirteenth month. -/
theorem duplicate_accepted :
    (∃ s, parse duplicated = .ok s ∧ s.nonce = "bbbbbbbb".toList) ∧ (¬∃ G, ReadRight G duplicated) ∧
      parse (sampleMessage none).text = .error "missing blank after statement" ∧
      parseRfc3339 "2026-13-45T99:99:99".toList = some 1802925639 ∧ ¬DateTime "2026-13-45T99:99:99".toList 1802925639 := by
  obtain ⟨s, hs, hnonce⟩ : ∃ s, parse duplicated = .ok s ∧ s.nonce = "bbbbbbbb".toList := by
    have h := duplicated_parse
    cases hparse : parse duplicated with
    | error e =>
      rw [hparse] at h
      cases h
    | ok s =>
      rw [hparse] at h
      exact ⟨s, rfl, Option.some.inj h⟩
  refine ⟨⟨s, hs, hnonce⟩, ?_, by decide +kernel, by decide +kernel, ?_⟩
  · rintro ⟨G, hread⟩
    obtain ⟨e, he, hm, -⟩ := (hread s).mp hs
    have hlines : e.lines = duplicatedLines := by
      rw [← he.split, ← hm, duplicated]
      exact List.splitOn_intercalate '\n' (by decide +kernel) (List.cons_ne_nil _ _)
    rw [Message.lines, duplicatedLines] at hlines
    cases hstatement : e.statement with
    | none =>
      rw [hstatement] at hlines
      have hblank : some [] = some sampleStatement := congrArg (fun l => l[3]?) hlines
      exact absurd hblank (by decide)
    | some statement =>
      rw [hstatement] at hlines
      have hissued : some (field .issuedAt e.issuedAt) = some (field .nonce "bbbbbbbb".toList) :=
        congrArg (fun l => l[9]?) hlines
      have hletter := List.cons.inj (Option.some.inj hissued)
      exact absurd hletter.1 (by decide)
  · rintro ⟨p, offset, hp, htext, -⟩
    have hlength := hp.length
    rw [← htext] at hlength
    exact absurd hlength (by decide)

end Peal.Links.Auth
