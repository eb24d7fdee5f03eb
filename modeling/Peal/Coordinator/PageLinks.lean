import Peal.Coordinator.AuctionRules
import Peal.Live.Terms

namespace Peal.Coordinator
open Peal.Fallible Peal.Runs Peal.JsNumbers Peal.Sha256

/-! # The page of an auction made through the API -/

section Statement

def orNull {α : Type} (write : α → Json.Value) : Option α → Json.Value
  | some x => write x
  | none => .null

/-- The array `canonical_terms` serialises. -/
def Terms.wire (version : Nat) (t : Terms) : List Json.Value :=
  [.num version, .str t.id, .str t.title, .str t.currency, .num t.decimals, .num t.closesAtUnix,
    orNull .num t.reserveMinor, orNull .num t.maximumMinor, orNull .str t.imageUrl, orNull .str t.description,
    orNull .str t.contactPublicKey]

/-- What serde_json and base64 do: a compact text in UTF-8, and the URL-safe alphabet without padding. -/
structure Config.Serialises (cfg : Config) : Prop where
  json : ∀ version t, cfg.termsJsonBytes version t = Utf8.encode (Json.render (.arr (t.wire version)))
  url : ∀ bytes, cfg.encodeUrl bytes = Base64.encode Base64.urlSafe bytes

def newId (kind : Text) (bytes : Bytes) : Text := kind ++ '_' :: Peal.Links.hexEncode bytes

/-- The id of a fresh round is drawn by `new_id`. -/
def DrawsNewId (s : Service) : Event → Prop
  | .proceed i _ draw => ∀ h, s.handlers[i]? = some h → h.stage = .fresh →
      ∃ bytes : Bytes, bytes.length = 12 ∧ draw = newId "cond".toList bytes
  | _ => True

section Links

variable (cfg : Config) (origin : Text) (parseUrl : Text → Option Live.Url)

/-- The step by which a handler answers with an auction. -/
def AnswersAuction (s : Service) (i : Nat) (now : Int) (draw : Text) (a : AuctionJson) : Prop :=
  ∃ h db' h', s.handlers[i]? = some h ∧ handle cfg origin s.db h now draw = some (db', h') ∧
    h'.stage = .answered (.ok (.auction a))

/-- The page opens the link with the terms that are stored. -/
structure Shows (c : Condition) (rules : Rules) (a : AuctionJson) (packed : Text) (terms : Live.Terms) : Prop where
  bidUrl : a.bidUrl = some (origin ++ "/#/live/".toList ++ packed)
  accepted : Live.unpackTerms parseUrl packed = some terms
  title : c.title = some terms.title
  currency : terms.unit = rules.currency
  decimals : terms.decimals = rules.decimals
  closing : c.kind = .atTime terms.closeAt
  reserve : terms.reserveMinor = rules.reserveMinor
  maximum : terms.maxMinor = rules.maximumMinor
  image : terms.image = c.imageUrl
  description : terms.description = c.description
  contactKey : terms.contactKey = rules.contactPublicKey

/-- The codes a page computes from its link. -/
structure SameCodes (a : AuctionJson) (terms : Live.Terms) : Prop where
  checkCode : ∃ code, a.checkCode = some code ∧ Live.checksum parseUrl terms = .ok code
  termsHash : ∃ hash, a.termsHash = some hash ∧ Live.termsHash parseUrl terms = .ok hash

def LinkAgrees (db : Database) (a : AuctionJson) : Prop :=
  ∃ c rules packed terms, db.conditions a.round.id = some c ∧ db.auctions a.round.id = some rules ∧
    Shows origin parseUrl c rules a packed terms ∧ SameCodes parseUrl a terms

/-- What of a stored auction the page would take as well. -/
structure Presentable (c : Condition) (rules : Rules) : Prop where
  title : ∃ title, c.title = some title ∧ JsStrings.trim title = title ∧ title.length ≤ Live.MAX_TITLE_CHARS
  currency : JsStrings.trim rules.currency = rules.currency
  closing : ∃ closesAt, c.kind = .atTime closesAt ∧ 0 < closesAt ∧ toDouble closesAt = closesAt ∧
    printed closesAt = closesAt
  maximum : rules.maximumMinor ≠ some 0
  image : ∀ url ∈ c.imageUrl, JsStrings.trim url = url ∧ Live.imageProblem parseUrl url = none
  description : ∀ text ∈ c.description, JsStrings.trim text = text ∧ text.length ≤ Live.MAX_DESCRIPTION_CHARS
  contactKey : ∀ key ∈ rules.contactPublicKey, Live.isSellerKey key = true

def StoredPresentable (db : Database) (id : Text) : Prop :=
  ∃ c rules, db.conditions id = some c ∧ db.auctions id = some rules ∧ Presentable parseUrl c rules

end Links

end Statement

section Proof

variable {cfg : Config} {origin : Text} {parseUrl : Text → Option Live.Url}

/-! ### What create_auction stores -/

/-- A text that was trimmed and is not blank. -/
def Tidy (v : Option Text) : Prop := ∀ s ∈ v, trim s = s ∧ s ≠ []

structure Presented (id : Text) (c : Condition) : Prop where
  id : id ≠ [] ∧ JsStrings.utf16Length id ≤ Live.MAX_AUCTION_ID_CHARS
  title : Tidy c.title
  description : Tidy c.description
  imageUrl : Tidy c.imageUrl

lemma trim_trim (s : Text) : trim (trim s) = trim s := JsStrings.strip_strip isWhitespace s

lemma presentationText_tidy {v : Option Text} {cap : Nat} {field code : String} {out : Option Text}
    (h : presentationText v cap field code = .ok out) : Tidy out := by
  unfold presentationText at h
  cases v with
  | none =>
    obtain rfl := Except.ok.inj h
    exact fun s hs => absurd hs (Option.not_mem_none s)
  | some raw =>
    dsimp only at h
    split at h
    · obtain rfl := Except.ok.inj h
      exact fun s hs => absurd hs (Option.not_mem_none s)
    · rename_i hne
      simp only [bind_eq_ok, require_eq_ok, pure_eq_ok] at h
      obtain ⟨-, -, rfl⟩ := h
      rintro s ⟨⟩
      exact ⟨trim_trim raw, hne⟩

lemma presentationImage_tidy {v out : Option Text} (h : presentationImage v = .ok out) : Tidy out := by
  unfold presentationImage at h
  split at h
  · obtain rfl := Except.ok.inj h
    exact fun s hs => absurd hs (Option.not_mem_none s)
  · rename_i url hurl
    simp only [bind_eq_ok, require_eq_ok, pure_eq_ok] at h
    obtain ⟨-, -, -, -, -, -, rfl⟩ := h
    obtain ⟨hmap, hne⟩ := Option.filter_eq_some_iff.mp hurl
    obtain ⟨raw, -, rfl⟩ := Option.map_eq_some_iff.mp hmap
    rintro s ⟨⟩
    exact ⟨trim_trim raw, of_decide_eq_true hne⟩

lemma validatePresentation_tidy {req : CreateRound} {out : Presentation} (h : validatePresentation req = .ok out) :
    Tidy out.title ∧ Tidy out.description ∧ Tidy out.imageUrl := by
  simp only [validatePresentation, bind_eq_ok, pure_eq_ok] at h
  obtain ⟨imageUrl, himage, title, htitle, description, hdescription, rfl⟩ := h
  exact ⟨presentationText_tidy htitle, presentationText_tidy hdescription, presentationImage_tidy himage⟩

lemma newId_short {bytes : Bytes} (h : bytes.length = 12) :
    newId "cond".toList bytes ≠ [] ∧
      JsStrings.utf16Length (newId "cond".toList bytes) ≤ Live.MAX_AUCTION_ID_CHARS := by
  have hlength : (newId "cond".toList bytes).length = 29 := by
    have hhex : (Peal.Links.hexEncode bytes).length = 24 := by
      rw [Peal.Links.hexEncode, List.length_flatMap]
      simp [h]
    rw [newId, List.length_append, List.length_cons, hhex]
    decide
  refine ⟨fun hnil => ?_, (JsStrings.utf16Length_le _).trans ?_⟩
  · rw [hnil] at hlength
    cases hlength
  · rw [hlength]
    decide

lemma presented_status (id : Text) (c : Condition) (status : Status) (h : Presented id c) :
    Presented id { c with status } :=
  ⟨h.id, h.title, h.description, h.imageUrl⟩

lemma inserts_presented {s : Service} {e : Event} (h : DrawsNewId s e) : Inserts cfg Presented s e := by
  cases e with
  | proceed i now draw =>
    intro hd db' json hget hstage hins
    obtain ⟨bytes, hbytes, rfl⟩ := h hd hget hstage
    simp only [insertRound, bind_eq_ok, expect_eq_ok, require_eq_ok, pure_eq_ok, Prod.mk.injEq] at hins
    obtain ⟨tag, -, shown, hshown, committeeId, -, kind, -, ⟨⟩, -, rfl, -⟩ := hins
    obtain ⟨htitle, hdescription, himage⟩ := validatePresentation_tidy hshown
    refine ⟨⟨committeeId, kind, .pending, tag, shown.title, shown.description, shown.imageUrl, now⟩, ?_,
      newId_short hbytes, htitle, hdescription, himage⟩
    rw [Database.insertCondition_conditions, Function.update_self]
  | _ => trivial

/-- The rules of an auction are those some request was accepted with. -/
def RulesAccepted (cfg : Config) (s : Service) : Prop :=
  ∀ id rules, s.db.auctions id = some rules → ∃ req, auctionRules cfg req = .ok rules

lemma rulesAccepted_step {s s' : Service} {e : Event} (hs : RulesAccepted cfg s) (h : step cfg origin s e = .ok s') :
    RulesAccepted cfg s' := by
  intro id rules hid
  rcases step_cases h with ⟨r, -, rfl⟩ | ⟨i, now, draw, hd, db', hd', -, -, hhandle, rfl⟩ | ⟨-, rfl⟩ |
    ⟨-, -, hauctions, -, -⟩
  · exact hs id rules hid
  · rcases handle_auctions hhandle with hsame | ⟨json, req, asked, -, -, hasked, hdb⟩
    · exact hs id rules (hsame ▸ hid)
    · rw [hdb] at hid
      by_cases hx : id = json.id
      · subst hx
        rw [Function.update_self, Option.some.injEq] at hid
        exact ⟨req, hid ▸ hasked⟩
      · rw [Function.update_of_ne hx] at hid
        exact hs id rules hid
  · exact hs id rules hid
  · exact hs id rules (hauctions ▸ hid)

structure InRange (rules : Rules) : Prop where
  currency : rules.currency ≠ [] ∧ rules.currency.length ≤ 12
  decimals : 0 ≤ rules.decimals ∧ rules.decimals ≤ 4
  reserve : ∀ r ∈ rules.reserveMinor, 0 ≤ r ∧ r ≤ MAX_AMOUNT_MINOR
  maximum : ∀ m ∈ rules.maximumMinor, 0 ≤ m ∧ m ≤ MAX_AMOUNT_MINOR
  order : ∀ r ∈ rules.reserveMinor, ∀ m ∈ rules.maximumMinor, r ≤ m

lemma trim_length_le (s : Text) : (trim s).length ≤ s.length := by
  have hfront := (List.dropWhile_suffix (l := s) isWhitespace).length_le
  have hback := (List.rdropWhile_prefix isWhitespace (s.dropWhile isWhitespace)).length_le
  exact hback.trans hfront

lemma findCurrency_length {code : Text} {known : Currency} (h : findCurrency cfg code = some known) :
    known.code.length = (trim code).length := by
  have hsame : equalIgnoreAsciiCase known.code (trim code) = true := by
    have := List.find?_some h
    exact this
  have hmap := congrArg List.length (of_decide_eq_true hsame)
  rwa [List.length_map, List.length_map] at hmap

lemma auctionRules_inRange {req : CreateAuction} {rules : Rules} (h : auctionRules cfg req = .ok rules) :
    InRange rules := by
  simp only [auctionRules, amountInRange, bind_eq_ok, require_eq_ok, pure_eq_ok] at h
  obtain ⟨-, ⟨hblank, hlong⟩, -, hdecimals, -, hreserve, -, hmaximum, -, horder, rfl⟩ := h
  have hshort := (trim_length_le _).trans hlong
  refine ⟨?_, hdecimals, fun r hr => ?_, fun m hm => ?_, horder⟩
  · dsimp only
    cases hknown : findCurrency cfg (req.currency.getD ['U', 'S', 'D']) with
    | none => exact ⟨hblank, hshort⟩
    | some known =>
      have hlength := findCurrency_length hknown
      refine ⟨fun hnil => hblank ?_, hlength.trans_le hshort⟩
      rw [Option.map_some, Option.getD_some] at hnil
      rw [hnil] at hlength
      exact List.length_eq_zero_iff.mp hlength.symm
  · have hsome : req.reserveMinor = some r := hr
    rw [hsome] at hreserve
    simpa using hreserve
  · have hsome : req.maximumMinor = some m := hm
    rw [hsome] at hmaximum
    simpa using hmaximum

/-! ### What a stored auction is packed as -/

lemma termsText_tidy {v : Option Text} (h : Tidy v) : termsText v = v := by
  cases v with
  | none => rfl
  | some s =>
    obtain ⟨htrim, hne⟩ := h s rfl
    rw [termsText, Option.map_some, htrim, Option.filter_some, if_pos (decide_eq_true hne)]

def storedTerms (id title : Text) (closesAt : Int) (c : Condition) (rules : Rules) : Terms where
  id := id
  title := title
  currency := rules.currency
  decimals := rules.decimals
  closesAtUnix := closesAt
  reserveMinor := rules.reserveMinor
  maximumMinor := rules.maximumMinor
  imageUrl := c.imageUrl
  description := c.description
  contactPublicKey := rules.contactPublicKey

def linkBytes (t : Terms) : Bytes := Utf8.encode (Json.render (.arr (t.wire TERMS_VERSION)))

section Stored

variable {db : Database} {id : Text} {c : Condition} {rules : Rules} {a : AuctionJson}

lemma canonicalTerms_stored (hc : Presented id c) {json : RoundJson} (hid : json.id = id) (hkind : json.kind = c.kind)
    (htitle : json.title = c.title) (himage : json.imageUrl = c.imageUrl) (hdescription : json.description = c.description)
    {t : Terms} : canonicalTerms json rules = some t ↔
      ∃ title closesAt, c.title = some title ∧ c.kind = .atTime closesAt ∧ t = storedTerms id title closesAt c rules := by
  unfold canonicalTerms
  rw [hid, hkind, htitle, himage, hdescription, termsText_tidy hc.title, termsText_tidy hc.imageUrl,
    termsText_tidy hc.description]
  cases hstored : c.title with
  | none => simp
  | some title =>
    cases hclose : c.kind with
    | atBlock chainId height => simp
    | atTime closesAt =>
      simp only [Option.bind_eq_bind, Option.bind_some, Option.pure_def, Option.some.injEq, Kind.atTime.injEq]
      constructor
      · rintro rfl
        exact ⟨title, closesAt, rfl, rfl, rfl⟩
      · rintro ⟨_, _, rfl, rfl, rfl⟩
        rfl

lemma auctionJson_link (hcfg : cfg.Serialises) (hc : Presented id c) (hround : db.conditions id = some c)
    (hrules : db.auctions id = some rules) (h : auctionJson cfg origin db id = .ok a) :
    a.round.id = id ∧
      ((∃ title closesAt, c.title = some title ∧ c.kind = .atTime closesAt ∧
        a.bidUrl = some (origin ++ "/#/live/".toList ++
          Base64.encode Base64.urlSafe (linkBytes (storedTerms id title closesAt c rules))) ∧
        a.checkCode = some (checkCode (linkBytes (storedTerms id title closesAt c rules))) ∧
        a.termsHash = some (termsHash (linkBytes (storedTerms id title closesAt c rules)))) ∨
      a.bidUrl = none ∧ ∀ title closesAt, c.title = some title → c.kind ≠ .atTime closesAt) := by
  obtain ⟨status, seals, slots, openedAt, hload⟩ := loadRound_eq hround
  simp only [auctionJson, hload, hrules, bind_eq_ok, expect_eq_ok, pure_eq_ok, Except.ok.injEq, Option.some.injEq] at h
  obtain ⟨_, rfl, _, rfl, rfl⟩ := h
  refine ⟨rfl, ?_⟩
  have hstored (t : Terms) : canonicalTerms (roundJson id status c.kind c.tag ⟨c.title, c.description, c.imageUrl⟩
        c.createdAt seals slots openedAt) rules = some t ↔
      ∃ title closesAt, c.title = some title ∧ c.kind = .atTime closesAt ∧ t = storedTerms id title closesAt c rules :=
    canonicalTerms_stored hc rfl rfl rfl rfl rfl
  cases hterms : canonicalTerms (roundJson id status c.kind c.tag ⟨c.title, c.description, c.imageUrl⟩ c.createdAt seals
      slots openedAt) rules with
  | none =>
    refine .inr ⟨rfl, fun title closesAt htitle hkind => ?_⟩
    have hsome := (hstored _).mpr ⟨title, closesAt, htitle, hkind, rfl⟩
    rw [hterms] at hsome
    cases hsome
  | some t =>
    obtain ⟨title, closesAt, htitle, hkind, rfl⟩ := (hstored t).mp hterms
    refine .inl ⟨title, closesAt, htitle, hkind, ?_⟩
    simp only [Option.map_some, liveLink, hcfg.json, hcfg.url]
    exact ⟨rfl, rfl, rfl⟩

end Stored

/-! ### What the page reads -/

/-- The terms the page reads out of a link, before it checks them. -/
def Terms.read (t : Terms) : Live.Terms where
  auctionId := t.id
  title := JsStrings.trim t.title
  unit := JsStrings.trim t.currency
  decimals := toDouble t.decimals
  closeAt := toDouble t.closesAtUnix
  reserveMinor := t.reserveMinor.map toDouble
  maxMinor := t.maximumMinor.map toDouble
  image := t.imageUrl.map JsStrings.trim
  description := Live.descriptionText t.description
  contactKey := t.contactPublicKey

lemma nullable_numberOf (o : Option Int) : Live.nullable Live.numberOf (orNull .num o) = some (o.map toDouble) := by
  cases o with
  | none => rfl
  | some n => rfl

lemma nullable_textOf (o : Option Text) : Live.nullable Live.textOf (orNull .str o) = some o := by
  cases o with
  | none => rfl
  | some s => rfl

lemma readWire_wire (t : Terms) : Live.readWire (.arr (t.wire TERMS_VERSION)) = some t.read := by
  simp only [Terms.wire, Live.readWire, nullable_numberOf, nullable_textOf, Live.numberOf, Live.textOf,
    Option.bind_eq_bind, Option.bind_some]
  rfl

/-- The terms a page shows when it shows what is stored. -/
def pageTerms (id title : Text) (closesAt : Int) (c : Condition) (rules : Rules) : Live.Terms where
  auctionId := id
  title := title
  unit := rules.currency
  decimals := rules.decimals
  closeAt := closesAt
  reserveMinor := rules.reserveMinor
  maxMinor := rules.maximumMinor
  image := c.imageUrl
  description := c.description
  contactKey := rules.contactPublicKey

section Read

variable {id title : Text} {closesAt : Int} {c : Condition} {rules : Rules}

lemma map_eq_self {α : Type} {f : α → α} {o : Option α} : o.map f = o ↔ ∀ x ∈ o, f x = x := by
  cases o with
  | none => simp
  | some x => simp

lemma descriptionText_eq_self {v : Option Text} (h : Tidy v) :
    Live.descriptionText v = v ↔ ∀ s ∈ v, JsStrings.trim s = s := by
  cases v with
  | none => exact iff_of_true rfl fun s hs => absurd hs (Option.not_mem_none s)
  | some s =>
    obtain ⟨-, hne⟩ := h s rfl
    unfold Live.descriptionText
    rw [Option.map_some]
    constructor
    · intro heq x hx
      obtain rfl := Option.some.inj hx
      exact Option.some.inj (Option.filter_eq_some_iff.mp heq).1
    · intro htrim
      rw [htrim s rfl, Option.filter_some, if_pos (decide_eq_true hne)]

lemma InRange.small (h : InRange rules) : (∀ r ∈ rules.reserveMinor, r.natAbs < 2 ^ 53) ∧
    (∀ m ∈ rules.maximumMinor, m.natAbs < 2 ^ 53) ∧ rules.decimals.natAbs < 2 ^ 53 := by
  have hceiling : MAX_AMOUNT_MINOR < 2 ^ 53 := by decide
  refine ⟨fun r hmem => ?_, fun m hmem => ?_, ?_⟩
  · have := h.reserve r hmem
    omega
  · have := h.maximum m hmem
    omega
  · have := h.decimals
    omega

lemma read_eq_pageTerms (hc : Presented id c) (hr : InRange rules) :
    (storedTerms id title closesAt c rules).read = pageTerms id title closesAt c rules ↔
      JsStrings.trim title = title ∧ JsStrings.trim rules.currency = rules.currency ∧ toDouble closesAt = closesAt ∧
        (∀ url ∈ c.imageUrl, JsStrings.trim url = url) ∧ ∀ text ∈ c.description, JsStrings.trim text = text := by
  obtain ⟨hreserve, hmaximum, hdecimals⟩ := hr.small
  rw [Terms.read, pageTerms, Live.Terms.mk.injEq]
  dsimp only [storedTerms]
  rw [toDouble_of_lt hdecimals, map_eq_self, map_eq_self, map_eq_self, descriptionText_eq_self hc.description]
  constructor
  · rintro ⟨-, htitle, hcurrency, -, hclose, -, -, himage, hdescription, -⟩
    exact ⟨htitle, hcurrency, hclose, himage, hdescription⟩
  · rintro ⟨htitle, hcurrency, hclose, himage, hdescription⟩
    exact ⟨rfl, htitle, hcurrency, rfl, hclose, fun r hr => toDouble_of_lt (hreserve r hr),
      fun m hm => toDouble_of_lt (hmaximum m hm), himage, hdescription, rfl⟩

lemma wire_pageTerms (hc : Presented id c) (hr : InRange rules)
    (hread : (storedTerms id title closesAt c rules).read = pageTerms id title closesAt c rules) :
    Live.wire (pageTerms id title closesAt c rules) =
      .arr ((storedTerms id title closesAt c rules).wire TERMS_VERSION) ↔ printed closesAt = closesAt := by
  obtain ⟨htitle, hcurrency, -, himage, hdescription⟩ := (read_eq_pageTerms hc hr).mp hread
  obtain ⟨hreserve, hmaximum, hdecimals⟩ := hr.small
  have hversion : Live.jsonNumber Live.TERMS_VERSION = .num TERMS_VERSION :=
    congrArg Json.Value.num (printed_of_lt (show ((5 : Nat) : Int).natAbs < 2 ^ 53 by decide))
  have hamount (o : Option Int) (h : ∀ n ∈ o, n.natAbs < 2 ^ 53) : Live.jsonAmount o = orNull .num o := by
    cases o with
    | none => rfl
    | some n => rw [Live.jsonAmount, Live.jsonNumber, printed_of_lt (h n rfl), orNull]
  have htext (o : Option Text) : Live.jsonText o = orNull .str o := by
    cases o with
    | none => rfl
    | some s => rfl
  rw [Live.wire, Terms.wire]
  dsimp only [pageTerms, storedTerms]
  rw [hversion, htitle, hcurrency, Live.jsonNumber, printed_of_lt hdecimals, hamount _ hreserve, hamount _ hmaximum,
    map_eq_self.mpr himage, (descriptionText_eq_self hc.description).mpr hdescription, htext, htext, htext]
  simp only [Live.jsonNumber, Json.Value.arr.injEq, List.cons.injEq, Json.Value.num.injEq, true_and, and_true]

lemma pageTerms_acceptable (hc : Presented id c) (hr : InRange rules) (hstored : c.title = some title)
    (hread : (storedTerms id title closesAt c rules).read = pageTerms id title closesAt c rules) :
    Live.Acceptable parseUrl (pageTerms id title closesAt c rules) ↔
      title.length ≤ Live.MAX_TITLE_CHARS ∧ 0 < closesAt ∧ rules.maximumMinor ≠ some 0 ∧
        (∀ url ∈ c.imageUrl, Live.imageProblem parseUrl url = none) ∧
        (∀ text ∈ c.description, text.length ≤ Live.MAX_DESCRIPTION_CHARS) ∧
        ∀ key ∈ rules.contactPublicKey, Live.isSellerKey key = true := by
  obtain ⟨htitle, hcurrency, -, himage, hdescription⟩ := (read_eq_pageTerms hc hr).mp hread
  constructor
  · intro h
    refine ⟨htitle ▸ h.title.2, h.closeAt, fun hzero => ?_, h.image, fun text htext => ?_, h.contactKey⟩
    · exact absurd (h.maximum 0 hzero).1 (lt_irrefl 0)
    · exact hdescription text htext ▸ h.description text htext
  · rintro ⟨hshort, hclose, hzero, hpicture, htext, hkey⟩
    refine ⟨hc.id, ⟨?_, ?_⟩, ⟨?_, ?_⟩, hr.decimals, hclose, hr.reserve, fun m hm => ⟨?_, (hr.maximum m hm).2, ?_⟩, hpicture,
      hkey, fun text hmem => ?_⟩
    · rw [pageTerms, htitle]
      exact (hc.title title hstored).2
    · rw [pageTerms, htitle]
      exact hshort
    · rw [pageTerms, hcurrency]
      exact hr.currency.1
    · rw [pageTerms, hcurrency]
      exact hr.currency.2
    · refine lt_of_le_of_ne (hr.maximum m hm).1 fun heq => hzero ?_
      rw [heq]
      exact hm
    · exact fun r hmem => hr.order r hmem m hm
    · rw [hdescription text hmem]
      exact htext text hmem

lemma speak_sha256 (bytes : Bytes) : Live.speak (sha256 bytes) = checkCode bytes := by
  have hbuild (f : Nat → Char) (indices : List Nat) (out : Text) :
      indices.foldl (fun out i => f i :: out) out = (indices.map f).reverse ++ out := by
    induction indices generalizing out with
    | nil => rfl
    | cons i indices ih => rw [List.foldl_cons, ih, List.map_cons, List.reverse_cons, List.append_assoc]; rfl
  rw [Live.speak, checkCode, hbuild, List.append_nil, List.map_reverse, List.reverse_reverse]
  simp only [mul_comm 5]
  rfl

lemma sameCodes {t : Terms} {terms : Live.Terms} {a : AuctionJson} (hcheck : Live.checkTerms parseUrl terms = .ok ())
    (hwire : Live.wire terms = .arr (t.wire TERMS_VERSION)) (hcode : a.checkCode = some (checkCode (linkBytes t)))
    (hhash : a.termsHash = some (termsHash (linkBytes t))) : SameCodes parseUrl a terms := by
  have hcanonical : Live.canonicalTerms parseUrl terms = .ok (linkBytes t) :=
    Live.canonicalTerms_eq_ok.mpr ⟨hcheck, by rw [hwire]; rfl⟩
  refine ⟨⟨_, hcode, ?_⟩, ⟨_, hhash, ?_⟩⟩
  · rw [Live.checksum, hcanonical, Except.map, speak_sha256]
  · rw [Live.termsHash, hcanonical, Except.map]
    rfl

end Read

/-! ### Links that agree -/

section Agree

variable {db : Database} {id : Text} {c : Condition} {rules : Rules} {a : AuctionJson}

lemma linkAgrees_iff (hcfg : cfg.Serialises) (hc : Presented id c) (hr : InRange rules)
    (hround : db.conditions id = some c) (hrules : db.auctions id = some rules)
    (h : auctionJson cfg origin db id = .ok a) :
    LinkAgrees origin parseUrl db a ↔ StoredPresentable parseUrl db a.round.id := by
  obtain ⟨rfl, hlink⟩ := auctionJson_link hcfg hc hround hrules h
  constructor
  · rintro ⟨c', rules', packed, terms, hc', hrules', hshows, -⟩
    obtain rfl := Option.some.inj (hround.symm.trans hc')
    obtain rfl := Option.some.inj (hrules.symm.trans hrules')
    rcases hlink with ⟨title, closesAt, htitle, hkind, hurl, -, -⟩ | ⟨hnone, -⟩
    · have hpacked : packed = Base64.encode Base64.urlSafe (linkBytes (storedTerms a.round.id title closesAt c rules)) := by
        have heq := hshows.bidUrl
        rw [hurl, Option.some.injEq] at heq
        exact (List.append_cancel_left heq).symm
      have haccepted := hshows.accepted
      rw [hpacked, linkBytes, Live.unpackTerms_link, readWire_wire] at haccepted
      obtain ⟨hread, hcheck, hwire⟩ := haccepted
      have hterms : terms = pageTerms a.round.id title closesAt c rules := by
        have hid : terms.auctionId = a.round.id := (congrArg Live.Terms.auctionId (Option.some.inj hread)).symm
        have htitle' : terms.title = title := Option.some.inj (hshows.title.symm.trans htitle)
        have hclose : terms.closeAt = closesAt := Kind.atTime.inj (hshows.closing.symm.trans hkind)
        cases terms
        rw [pageTerms, Live.Terms.mk.injEq]
        exact ⟨hid, htitle', hshows.currency, hshows.decimals, hclose, hshows.reserve, hshows.maximum, hshows.image,
          hshows.description, hshows.contactKey⟩
      subst hterms
      have hreads := Option.some.inj hread
      obtain ⟨htrim, hcurrency, hdouble, himage, hdescription⟩ := (read_eq_pageTerms hc hr).mp hreads
      obtain ⟨hshort, hclose, hmaximum, hpicture, htext, hkey⟩ :=
        (pageTerms_acceptable hc hr htitle hreads).mp (Live.checkTerms_eq_ok.mp hcheck)
      exact ⟨c, rules, hround, hrules, ⟨title, htitle, htrim, hshort⟩, hcurrency,
        ⟨closesAt, hkind, hclose, hdouble, (wire_pageTerms hc hr hreads).mp hwire⟩, hmaximum,
        fun url hmem => ⟨himage url hmem, hpicture url hmem⟩,
        fun text hmem => ⟨hdescription text hmem, htext text hmem⟩, hkey⟩
    · have heq := hshows.bidUrl
      rw [hnone] at heq
      cases heq
  · rintro ⟨c', rules', hc', hrules', hfits⟩
    obtain rfl := Option.some.inj (hround.symm.trans hc')
    obtain rfl := Option.some.inj (hrules.symm.trans hrules')
    obtain ⟨title, htitle, htrim, hshort⟩ := hfits.title
    obtain ⟨closesAt, hkind, hclose, hdouble, hprinted⟩ := hfits.closing
    rcases hlink with ⟨title', closesAt', htitle', hkind', hurl, hcode, hhash⟩ | ⟨-, hno⟩
    · obtain rfl := Option.some.inj (htitle.symm.trans htitle')
      obtain rfl := Kind.atTime.inj (hkind.symm.trans hkind')
      have hreads : (storedTerms a.round.id title closesAt c rules).read = pageTerms a.round.id title closesAt c rules :=
        (read_eq_pageTerms hc hr).mpr ⟨htrim, hfits.currency, hdouble, fun url hmem => (hfits.image url hmem).1,
          fun text hmem => (hfits.description text hmem).1⟩
      have hcheck : Live.checkTerms parseUrl (pageTerms a.round.id title closesAt c rules) = .ok () :=
        Live.checkTerms_eq_ok.mpr ((pageTerms_acceptable hc hr htitle hreads).mpr ⟨hshort, hclose, hfits.maximum,
          fun url hmem => (hfits.image url hmem).2, fun text hmem => (hfits.description text hmem).2, hfits.contactKey⟩)
      have hwire := (wire_pageTerms hc hr hreads).mpr hprinted
      refine ⟨c, rules, _, pageTerms a.round.id title closesAt c rules, hround, hrules, ⟨hurl, ?_, htitle, rfl, rfl, hkind,
        rfl, rfl, rfl, rfl, rfl⟩, sameCodes hcheck hwire hcode hhash⟩
      rw [linkBytes, Live.unpackTerms_link, readWire_wire]
      exact ⟨congrArg some hreads, hcheck, hwire⟩
    · exact absurd hkind (hno title closesAt htitle)

end Agree

/-! ### Whole runs -/

lemma afterRound_ne_auction (body : Body) (status : Nat) (json : RoundJson) (a : AuctionJson) :
    afterRound body status json ≠ .answered (.ok (.auction a)) := by
  rcases afterRound_cases body status json with ⟨req, -, heq⟩ | heq
  · simp [heq]
  · simp [heq]

lemma lookup_ne_auction (db : Database) (r : Request) (now : Int) (a : AuctionJson) :
    lookup cfg db r now ≠ .answered (.ok (.auction a)) := by
  cases hkey : r.key with
  | none =>
    unfold lookup
    cases precheck cfg r.body with
    | error e => simp
    | ok u => simp [hkey]
  | some key =>
    rcases lookup_cases cfg db now hkey with ⟨e, -, heq⟩ | ⟨-, heq⟩ | ⟨-, -, ⟨heq, -⟩ | ⟨row, -, -, ⟨heq, -⟩ | ⟨heq, -⟩⟩⟩
    · simp [heq]
    · simp [heq]
    · simp [heq]
    · rw [heq]
      exact afterRound_ne_auction _ _ _ a
    · simp [heq]

lemma compose_ne_auction (db : Database) (body : Body) (json : RoundJson) (now : Int) (draw : Text) (a : AuctionJson) :
    (compose cfg db body json now draw).2 ≠ .answered (.ok (.auction a)) := by
  cases body with
  | round req => simp [compose]
  | auction req => cases hrules : auctionRules cfg req <;> simp [compose, hrules]
  | loneSeal req => cases hseal : createSeal cfg db json.id req.ciphertextB64 now draw <;> simp [compose, hseal]

lemma answersAuction_json {s : Service} {i : Nat} {now : Int} {draw : Text} {a : AuctionJson}
    (h : AnswersAuction cfg origin s i now draw a) : ∃ id, auctionJson cfg origin s.db id = .ok a := by
  obtain ⟨hd, db', hd', -, hhandle, hstage⟩ := h
  rcases handle_cases hhandle with ⟨-, -, rfl⟩ | ⟨-, -, e, rfl⟩ | ⟨-, json, -, rfl⟩ | ⟨json, key, -, -, -, rfl⟩ |
    ⟨json, -, -, rfl⟩ | ⟨id, -, -, rfl⟩
  · exact absurd hstage (lookup_ne_auction _ _ _ a)
  · cases hstage
  · dsimp only at hstage
    split at hstage
    · exact absurd hstage (afterRound_ne_auction _ _ _ a)
    · cases hstage
  · exact absurd hstage (afterRound_ne_auction _ _ _ a)
  · exact absurd hstage (compose_ne_auction _ _ _ _ _ a)
  · cases hjson : auctionJson cfg origin s.db id with
    | error e => simp [hjson, Except.map] at hstage
    | ok json =>
      simp only [hjson, Except.map, Stage.answered.injEq, Except.ok.injEq, Created.auction.injEq] at hstage
      exact ⟨id, hstage ▸ hjson⟩

lemma answered_stored {events : List Event} (hdraws : Along (step cfg origin) DrawsNewId (.start Database.empty) events)
    {i : Nat} {now : Int} {draw : Text} {a : AuctionJson}
    (h : AnswersAuction cfg origin (exec (step cfg origin) (.start Database.empty) events) i now draw a) :
    ∃ id c rules, Presented id c ∧ InRange rules ∧
      (exec (step cfg origin) (.start Database.empty) events).db.conditions id = some c ∧
      (exec (step cfg origin) (.start Database.empty) events).db.auctions id = some rules ∧
      auctionJson cfg origin (exec (step cfg origin) (.start Database.empty) events).db id = .ok a := by
  have hholding : Holding Presented (exec (step cfg origin) (.start Database.empty) events) := by
    refine exec_invariant_along _ (fun s e s' hs hdraw hok => ?_) ?_ hdraws
    · exact holding_step presented_status hs (inserts_presented hdraw) hok
    · exact ⟨fun id hid => absurd rfl hid, fun key row hrow => (by cases hrow),
        fun hd hmem => absurd hmem List.not_mem_nil⟩
  have haccepted : RulesAccepted cfg (exec (step cfg origin) (.start Database.empty) events) :=
    exec_invariant _ (fun s e s' hs hok => rulesAccepted_step hs hok) (fun id rules hid => by cases hid) events
  obtain ⟨id, hjson⟩ := answersAuction_json h
  have hstored := hjson
  simp only [auctionJson, bind_eq_ok, expect_eq_ok] at hstored
  obtain ⟨_, -, rules, hrules, -⟩ := hstored
  obtain ⟨c, hround, hc⟩ := hholding.auctions id (by rw [hrules]; exact Option.some_ne_none _)
  obtain ⟨req, hreq⟩ := haccepted id rules hrules
  exact ⟨id, c, rules, hc, auctionRules_inRange hreq, hround, hrules, hjson⟩

/-- In every run whose rounds have ids of `new_id`, what a created auction is answered with agrees with its page
exactly when the page takes what is stored. -/
theorem page_link_iff (hcfg : cfg.Serialises) (events : List Event)
    (hdraws : Along (step cfg origin) DrawsNewId (.start Database.empty) events) (i : Nat) (now : Int) (draw : Text)
    (a : AuctionJson)
    (h : AnswersAuction cfg origin (exec (step cfg origin) (.start Database.empty) events) i now draw a) :
    LinkAgrees origin parseUrl (exec (step cfg origin) (.start Database.empty) events).db a ↔
      StoredPresentable parseUrl (exec (step cfg origin) (.start Database.empty) events).db a.round.id := by
  obtain ⟨id, c, rules, hc, hr, hround, hrules, hjson⟩ := answered_stored hdraws h
  exact linkAgrees_iff hcfg hc hr hround hrules hjson

lemma answers_of_ruled {s : Service} {i : Nat} {h : Handler} {id : Text} {a : AuctionJson} (hget : s.handlers[i]? = some h)
    (hstage : h.stage = .ruled id) (hjson : auctionJson cfg origin s.db id = .ok a) (now : Int) (draw : Text) :
    AnswersAuction cfg origin s i now draw a :=
  ⟨h, s.db, { h with stage := .answered (.ok (.auction a)) }, hget, by simp only [handle, hstage, hjson]; rfl, rfl⟩

end Proof

/-! ### A title the page refuses -/

def linkConfig : Config where
  rpcChains := []
  currencies := [⟨['U', 'S', 'D'], 2⟩]
  roundJsonBytes _ := []
  termsJsonBytes version t := Utf8.encode (Json.render (.arr (t.wire version)))
  decode64 := Base64.decodeStrict Base64.standard
  encodeUrl := Base64.encode Base64.urlSafe
  ctWire blob := .ok blob

lemma linkConfig_serialises : linkConfig.Serialises := ⟨fun _ _ => rfl, fun _ => rfl⟩

def pictureUrl : Text := "https://a.example/b.png".toList

def samplePage (url : Text) : Option Live.Url :=
  if url = pictureUrl then some ⟨"https:".toList, "a.example".toList⟩ else none

/-- An auction with a picture and a seller's key, closing in an hour. -/
def titled (title : Text) : Request where
  header := none
  body := .auction {
    title := some title
    description := some ['A', ' ', 'l', 'o', 't']
    imageUrl := some pictureUrl
    closesIn := some 3600
    closesAt := none
    currency := none
    decimals := none
    reserveMinor := some 100
    maximumMinor := some 900
    contactPublicKey := some (Base64.encode Base64.urlSafe (4 :: List.replicate 64 1))
    tag := none }

def linkRound : Text := newId "cond".toList (List.replicate 12 7)

def linkEvents (title : Text) : List Event :=
  [.registerCommittee ⟨['c'], 5, 3, 8, 0⟩, .arrive (titled title), .proceed 0 100 linkRound, .proceed 0 100 linkRound,
    .proceed 0 100 linkRound]

def linkService (title : Text) : Service := exec (step linkConfig []) (.start Database.empty) (linkEvents title)

lemma linkEvents_draws (title : Text) :
    Along (step linkConfig []) DrawsNewId (.start Database.empty) (linkEvents title) := by
  have hdraw (s : Service) (i : Nat) (now : Int) : DrawsNewId s (.proceed i now linkRound) :=
    fun _ _ _ => ⟨List.replicate 12 7, rfl, rfl⟩
  exact ⟨trivial, trivial, hdraw _ 0 100, hdraw _ 0 100, hdraw _ 0 100, trivial⟩

lemma linkService_answers {title : Text}
    (hruled : ((linkService title).handlers[0]?.map Handler.stage) = some (.ruled linkRound))
    (hjson : (auctionJson linkConfig [] (linkService title).db linkRound).toOption.isSome = true) :
    ∃ a, a.round.id = linkRound ∧ AnswersAuction linkConfig [] (linkService title) 0 100 [] a := by
  obtain ⟨h, hget, hstage⟩ := Option.map_eq_some_iff.mp hruled
  obtain ⟨a, ha⟩ := Option.isSome_iff_exists.mp hjson
  have hok := toOption_eq_some.mp ha
  refine ⟨a, ?_, answers_of_ruled hget hstage hok 100 []⟩
  simp only [auctionJson, bind_eq_ok, expect_eq_ok, pure_eq_ok] at hok
  obtain ⟨round, hround, rules, -, rfl⟩ := hok
  simp only [loadRound, bind_eq_ok, expect_eq_ok, pure_eq_ok] at hround
  obtain ⟨c, -, rfl⟩ := hround
  rfl

lemma longTitle_stored :
    ((linkService (List.replicate 81 'a')).handlers[0]?.map Handler.stage) = some (.ruled linkRound) ∧
      (auctionJson linkConfig [] (linkService (List.replicate 81 'a')).db linkRound).toOption.isSome = true ∧
      ((linkService (List.replicate 81 'a')).db.conditions linkRound).map Condition.title =
        some (some (List.replicate 81 'a')) := by
  decide +kernel

/-- The auction is accepted with a title of eighty-one letters, and the page does not open its link. -/
theorem long_title_dead_link :
    ∃ a c, AnswersAuction linkConfig [] (linkService (List.replicate 81 'a')) 0 100 [] a ∧
      (linkService (List.replicate 81 'a')).db.conditions a.round.id = some c ∧ c.title = some (List.replicate 81 'a') ∧
      ¬LinkAgrees [] samplePage (linkService (List.replicate 81 'a')).db a := by
  obtain ⟨hruled, hjson, hstored⟩ := longTitle_stored
  obtain ⟨a, hid, hanswers⟩ := linkService_answers hruled hjson
  obtain ⟨c, hround, htitle⟩ := Option.map_eq_some_iff.mp hstored
  rw [← hid] at hround
  refine ⟨a, c, hanswers, hround, htitle, ?_⟩
  obtain ⟨id, c', rules, hc, hr, hround', hrules, hok⟩ := answered_stored (linkEvents_draws _) hanswers
  intro hagrees
  obtain ⟨c'', rules', hround'', -, hpresentable⟩ :=
    (linkAgrees_iff linkConfig_serialises hc hr hround' hrules hok).mp hagrees
  obtain rfl := Option.some.inj (hround.symm.trans hround'')
  obtain ⟨title, htitle', -, hshort⟩ := hpresentable.title
  obtain rfl := Option.some.inj (htitle.symm.trans htitle')
  rw [List.length_replicate] at hshort
  exact absurd hshort (by decide)

lemma shortTitle_stored :
    ((linkService ['L', 'o', 't']).handlers[0]?.map Handler.stage) = some (.ruled linkRound) ∧
      (auctionJson linkConfig [] (linkService ['L', 'o', 't']).db linkRound).toOption.isSome = true ∧
      ((linkService ['L', 'o', 't']).db.conditions linkRound).map (fun c => (c.title, c.kind, c.imageUrl, c.description)) =
        some (some ['L', 'o', 't'], .atTime 3700, some pictureUrl, some ['A', ' ', 'l', 'o', 't']) ∧
      (linkService ['L', 'o', 't']).db.auctions linkRound = some ⟨['U', 'S', 'D'], 2, some 100, some 900,
        some (Base64.encode Base64.urlSafe (4 :: List.replicate 64 1))⟩ := by
  decide +kernel

lemma sampleKey_accepted : Live.isSellerKey (Base64.encode Base64.urlSafe (4 :: List.replicate 64 1)) = true := by
  decide +kernel

theorem page_link_sample :
    ∃ a, AnswersAuction linkConfig [] (linkService ['L', 'o', 't']) 0 100 [] a ∧
      LinkAgrees [] samplePage (linkService ['L', 'o', 't']).db a := by
  obtain ⟨hruled, hjson, hstored, hrules⟩ := shortTitle_stored
  obtain ⟨a, hid, hanswers⟩ := linkService_answers hruled hjson
  refine ⟨a, hanswers, (page_link_iff linkConfig_serialises _ (linkEvents_draws _) 0 100 [] a hanswers).mpr ?_⟩
  obtain ⟨⟨committeeId, kind, status, tag, title, description, imageUrl, createdAt⟩, hround, hrow⟩ :=
    Option.map_eq_some_iff.mp hstored
  simp only [Prod.mk.injEq] at hrow
  obtain ⟨rfl, rfl, rfl, rfl⟩ := hrow
  rw [hid]
  refine ⟨_, _, hround, hrules, ⟨_, rfl, by decide, by decide⟩, by decide,
    ⟨3700, rfl, by decide, by decide, printed_of_lt (by decide)⟩, by decide, ?_, ?_, ?_⟩
  · rintro url ⟨⟩
    exact ⟨by decide +kernel, by decide +kernel⟩
  · rintro text ⟨⟩
    exact ⟨by decide, by decide⟩
  · rintro key ⟨⟩
    exact sampleKey_accepted

end Peal.Coordinator
