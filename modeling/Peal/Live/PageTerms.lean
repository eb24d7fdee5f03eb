import Peal.Library.JsJson
import Peal.Live.RecordCodec
import Peal.Live.Terms

open Peal.Coordinator (Text Bytes)
open Peal.Doubles Peal.Fallible Peal.JsJson Peal.Sha256

namespace Peal.Live.Page

/-! # The terms of an auction with the strings and numbers of the page -/

structure Terms where
  auctionId : JsString
  title : JsString
  unit : JsString
  decimals : Double
  closeAt : Double
  reserveMinor : Option Double
  maxMinor : Option Double
  image : Option JsString
  description : Option JsString
  contactKey : Option JsString

/-- No half of a pair is white space. -/
def isBlank (u : UInt16) : Bool := JsStrings.isWhiteSpace (Utf16.single u)

def trim (s : JsString) : JsString := ((s.dropWhile isBlank).reverse.dropWhile isBlank).reverse

/-- `[...s].length`. -/
def codePoints (s : JsString) : Nat := (Utf16.decode s).length

/-- A lone half of a pair is no symbol of the alphabet, nor is what it decodes to. -/
def unb64 (s : JsString) : Option Bytes := b64urlDecode (Utf16.decode s)

def isSellerKey (key : JsString) : Bool := (unb64 (trim key)).any fun bytes => bytes.length = PUBLIC_KEY_BYTES

/-! ### Writing -/

section Page

variable (parseUrl : JsString → Option Url)

def imageProblem (url : JsString) : Option String :=
  let trimmed := trim url
  if trimmed = [] then none
  else if MAX_IMAGE_CHARS < trimmed.length then some s!"picture link exceeds {MAX_IMAGE_CHARS} characters"
  else
    match parseUrl trimmed with
    | none => some "that picture link is not a web address"
    | some parsed =>
      if parsed.protocol ≠ "https:".toList then some "the picture link has to start with https"
      else if parsed.hostname = [] then some "that picture link has no site in it"
      else none

def jsonText : Option JsString → Item
  | some s => .str s
  | none => .null

def jsonAmount : Option Double → Item
  | some x => .num x.whole
  | none => .null

/-- The description as it is hashed. -/
def descriptionText (description : Option JsString) : Option JsString := (description.map trim).filter fun s => s ≠ []

def wire (t : Terms) : List Item :=
  [.num TERMS_VERSION, .str t.auctionId, .str (trim t.title), .str (trim t.unit), .num t.decimals.whole,
    .num t.closeAt.whole, jsonAmount t.reserveMinor, jsonAmount t.maxMinor, jsonText (t.image.map trim),
    jsonText (descriptionText t.description), jsonText t.contactKey]

def checkReserve (t : Terms) : Except String Unit :=
  match t.reserveMinor with
  | none => .ok ()
  | some reserve => do
    require (reserve.isInteger ∧ 0 ≤ reserve.whole) "reserve must be a whole number of minor units"
    require (reserve.whole ≤ MAX_AMOUNT_MINOR) "reserve is too large"

def checkMaximum (t : Terms) : Except String Unit :=
  match t.maxMinor with
  | none => .ok ()
  | some maximum => do
    require (maximum.isInteger ∧ 0 < maximum.whole) "maximum must be a whole number of minor units"
    require (maximum.whole ≤ MAX_AMOUNT_MINOR) "maximum is too large"
    require (∀ reserve ∈ t.reserveMinor, reserve.whole ≤ maximum.whole) "the maximum cannot be below the reserve"

def checkImage (t : Terms) : Except String Unit :=
  match t.image.bind (imageProblem parseUrl) with
  | none => .ok ()
  | some problem => .error problem

def checkTerms (t : Terms) : Except String Unit := do
  require (t.auctionId ≠ []) "auction id is required"
  require (t.auctionId.length ≤ MAX_AUCTION_ID_CHARS) "auction id is too long"
  require (trim t.title ≠ []) "the item needs a name"
  require (codePoints (trim t.title) ≤ MAX_TITLE_CHARS) s!"item name exceeds {MAX_TITLE_CHARS} characters"
  require (trim t.unit ≠ [] ∧ codePoints (trim t.unit) ≤ MAX_UNIT_CHARS) "unit must be 1 to 12 characters"
  require (t.decimals.isInteger ∧ 0 ≤ t.decimals.whole ∧ t.decimals.whole ≤ 4) "decimals must be an integer from 0 to 4"
  require (t.closeAt.isInteger ∧ 0 < t.closeAt.whole) "close time must be unix seconds"
  checkReserve t
  checkMaximum t
  checkImage parseUrl t
  require (∀ key ∈ t.contactKey, isSellerKey key) "that is not a seller key"
  require (∀ description ∈ t.description, codePoints (trim description) ≤ MAX_DESCRIPTION_CHARS)
    s!"the description exceeds {MAX_DESCRIPTION_CHARS} characters"

def canonicalTerms (t : Terms) : Except String Bytes := do
  checkTerms parseUrl t
  return Utf8.encode (stringify (wire t))

def packTerms (t : Terms) : Except String JsString := do
  let bytes ← canonicalTerms parseUrl t
  return Utf16.encode (b64urlEncode bytes)

/-! ### Reading -/

def numberOf : Value → Option Double
  | .num x => some x
  | _ => none

def textOf : Value → Option JsString
  | .str s => some s
  | _ => none

/-- A value that may be null. -/
def nullable {α : Type} (read : Value → Option α) : Value → Option (Option α)
  | .null => some none
  | v => (read v).map some

/-- The tuple of a link, trimmed. -/
def readWire : Value → Option Terms
  | .arr [version, auctionId, title, unit, decimals, closeAt, reserveMinor, maxMinor, image, description, contactKey] => do
    let version ← numberOf version
    guard (version.isInteger ∧ version.whole = TERMS_VERSION)
    let auctionId ← textOf auctionId
    let title ← textOf title
    let unit ← textOf unit
    let decimals ← numberOf decimals
    let closeAt ← numberOf closeAt
    let reserveMinor ← nullable numberOf reserveMinor
    let maxMinor ← nullable numberOf maxMinor
    let image ← nullable textOf image
    let description ← nullable textOf description
    let contactKey ← nullable textOf contactKey
    return ⟨auctionId, trim title, trim unit, decimals, closeAt, reserveMinor, maxMinor, image.map trim,
      descriptionText description, contactKey⟩
  | _ => none

/-- `replace(/=+$/, '')`. -/
def dropSigns (packed : JsString) : JsString := (packed.reverse.dropWhile fun u => u = 0x3D).reverse

def unpackTerms (packed : JsString) : Option Terms := do
  let bytes ← unb64 packed
  let text ← Utf8.decodeUnmarked bytes
  let terms ← (JsJson.parse text).bind readWire
  let again ← (packTerms parseUrl terms).toOption
  -- a link is the one its terms pack to
  guard (again = dropSigns packed)
  return terms

def checksum (t : Terms) : Except String Text := do
  let bytes ← canonicalTerms parseUrl t
  return speak (sha256 bytes)

end Page

/-! ### What the page accepts -/

structure Acceptable (parseUrl : JsString → Option Url) (t : Terms) : Prop where
  auctionId : t.auctionId ≠ [] ∧ t.auctionId.length ≤ MAX_AUCTION_ID_CHARS
  title : trim t.title ≠ [] ∧ codePoints (trim t.title) ≤ MAX_TITLE_CHARS
  unit : trim t.unit ≠ [] ∧ codePoints (trim t.unit) ≤ MAX_UNIT_CHARS
  decimals : t.decimals.isInteger = true ∧ 0 ≤ t.decimals.whole ∧ t.decimals.whole ≤ 4
  closeAt : t.closeAt.isInteger = true ∧ 0 < t.closeAt.whole
  reserve : ∀ reserve ∈ t.reserveMinor,
    (reserve.isInteger = true ∧ 0 ≤ reserve.whole) ∧ reserve.whole ≤ MAX_AMOUNT_MINOR
  maximum : ∀ maximum ∈ t.maxMinor, (maximum.isInteger = true ∧ 0 < maximum.whole) ∧
    maximum.whole ≤ MAX_AMOUNT_MINOR ∧ ∀ reserve ∈ t.reserveMinor, reserve.whole ≤ maximum.whole
  image : ∀ url ∈ t.image, imageProblem parseUrl url = none
  contactKey : ∀ key ∈ t.contactKey, isSellerKey key = true
  description : ∀ description ∈ t.description, codePoints (trim description) ≤ MAX_DESCRIPTION_CHARS

variable {parseUrl : JsString → Option Url} {t : Terms}

lemma checkReserve_eq_ok {u : Unit} : checkReserve t = .ok u ↔ ∀ reserve ∈ t.reserveMinor,
    (reserve.isInteger = true ∧ 0 ≤ reserve.whole) ∧ reserve.whole ≤ MAX_AMOUNT_MINOR := by
  unfold checkReserve
  cases t.reserveMinor with
  | none => simp
  | some reserve => simp

lemma checkMaximum_eq_ok {u : Unit} : checkMaximum t = .ok u ↔ ∀ maximum ∈ t.maxMinor,
    (maximum.isInteger = true ∧ 0 < maximum.whole) ∧ maximum.whole ≤ MAX_AMOUNT_MINOR ∧
      ∀ reserve ∈ t.reserveMinor, reserve.whole ≤ maximum.whole := by
  unfold checkMaximum
  cases t.maxMinor with
  | none => simp
  | some maximum => simp

lemma checkImage_eq_ok {u : Unit} :
    checkImage parseUrl t = .ok u ↔ ∀ url ∈ t.image, imageProblem parseUrl url = none := by
  unfold checkImage
  cases t.image with
  | none => simp
  | some url => cases h : imageProblem parseUrl url <;> simp [h]

theorem checkTerms_eq_ok : checkTerms parseUrl t = .ok () ↔ Acceptable parseUrl t := by
  simp only [checkTerms, bind_eq_ok, require_eq_ok, checkReserve_eq_ok, checkMaximum_eq_ok, checkImage_eq_ok,
    exists_const]
  constructor
  · rintro ⟨hid, hidShort, htitle, htitleShort, hunit, hdecimals, hclose, hreserve, hmaximum, himage, hkey, hdescription⟩
    exact ⟨⟨hid, hidShort⟩, ⟨htitle, htitleShort⟩, hunit, hdecimals, hclose, hreserve, hmaximum, himage, hkey,
      hdescription⟩
  · intro h
    exact ⟨h.auctionId.1, h.auctionId.2, h.title.1, h.title.2, h.unit, h.decimals, h.closeAt, h.reserve, h.maximum,
      h.image, h.contactKey, h.description⟩

/-! ### What is kept -/

/-- Terms as they are hashed: the title, the unit, the picture and the description trimmed. -/
def normal (t : Terms) : Terms :=
  { t with
    title := trim t.title, unit := trim t.unit, image := t.image.map trim,
    description := descriptionText t.description }

lemma trim_trim (s : JsString) : trim (trim s) = trim s := JsStrings.strip_strip isBlank s

lemma descriptionText_idem (d : Option JsString) : descriptionText (descriptionText d) = descriptionText d := by
  unfold descriptionText
  cases d with
  | none => rfl
  | some d =>
    rw [Option.map_some, Option.filter_some]
    split_ifs with h
    · rw [Option.map_some, trim_trim, Option.filter_some, if_pos h]
    · rfl

lemma wire_normal (t : Terms) : wire (normal t) = wire t := by
  simp only [wire, normal, trim_trim, descriptionText_idem, Option.map_map, Function.comp_def]

lemma imageProblem_trim (url : JsString) : imageProblem parseUrl (trim url) = imageProblem parseUrl url := by
  simp only [imageProblem, trim_trim]

lemma acceptable_normal (h : Acceptable parseUrl t) : Acceptable parseUrl (normal t) where
  auctionId := h.auctionId
  title := by
    rw [normal, trim_trim]
    exact h.title
  unit := by
    rw [normal, trim_trim]
    exact h.unit
  decimals := h.decimals
  closeAt := h.closeAt
  reserve := h.reserve
  maximum := h.maximum
  image := by
    intro url hurl
    obtain ⟨typed, htyped, rfl⟩ := Option.mem_map.mp hurl
    rw [imageProblem_trim]
    exact h.image typed htyped
  contactKey := h.contactKey
  description := by
    intro d hd
    obtain ⟨hd, -⟩ := Option.mem_filter_iff.mp hd
    obtain ⟨typed, htyped, rfl⟩ := Option.mem_map.mp hd
    rw [trim_trim]
    exact h.description typed htyped

/-! ### Reading a link back -/

lemma unb64_encode {bytes : Bytes} (h : ∀ b ∈ bytes, b < 256) :
    unb64 (Utf16.encode (b64urlEncode bytes)) = some bytes := by
  rw [unb64, Utf16.decode_encode, b64urlEncode_eq h, b64urlDecode_encode h]

lemma decodeUnmarked_stringify (items : List Item) :
    Utf8.decodeUnmarked (Utf8.encode (stringify items)) = some (stringify items) := by
  have hmark : '[' ≠ Utf8.bom := by decide
  rw [Utf8.decodeUnmarked_eq, Utf8.decode_encode, Option.map_some, stringify, List.cons_append, Utf8.dropBom,
    if_neg hmark]

lemma wire_plain (h : Acceptable parseUrl t) : ∀ x ∈ wire t, x.Plain := by
  have hwhole : ∀ {x : Double}, x.isInteger = true → 0 ≤ x.whole → (Item.num x.whole).Plain := fun hx hpos =>
    ⟨hpos, (Double.finite_whole hx).1⟩
  have hamount : ∀ o : Option Double, (∀ x ∈ o, x.isInteger = true ∧ 0 ≤ x.whole) → (jsonAmount o).Plain := by
    intro o ho
    cases o with
    | none => trivial
    | some x => exact hwhole (ho x rfl).1 (ho x rfl).2
  have htext : ∀ o : Option JsString, (jsonText o).Plain := fun o => by cases o <;> trivial
  intro x hx
  simp only [wire, List.mem_cons, List.not_mem_nil, or_false] at hx
  rcases hx with rfl | rfl | rfl | rfl | rfl | rfl | rfl | rfl | rfl | rfl | rfl
  · exact ⟨by decide, isDouble_natCast (by decide)⟩
  · trivial
  · trivial
  · trivial
  · exact hwhole h.decimals.1 h.decimals.2.1
  · exact hwhole h.closeAt.1 h.closeAt.2.le
  · exact hamount _ fun x hx => (h.reserve x hx).1
  · exact hamount _ fun x hx => ⟨(h.maximum x hx).1.1, (h.maximum x hx).1.2.le⟩
  · exact htext _
  · exact htext _
  · exact htext _

lemma nullable_amount {o : Option Double} (h : ∀ x ∈ o, x.isInteger = true) :
    nullable numberOf (jsonAmount o).value = some o := by
  cases o with
  | none => rfl
  | some x =>
    show (some (Double.ofRat x.whole)).map some = some (some x)
    rw [Double.ofRat_whole (h x rfl)]
    rfl

lemma nullable_text (o : Option JsString) : nullable textOf (jsonText o).value = some o := by
  cases o <;> rfl

lemma readWire_wire (h : Acceptable parseUrl t) : readWire (.arr ((wire t).map Item.value)) = some (normal t) := by
  have hversion : (Double.ofRat (TERMS_VERSION : Int)).isInteger = true ∧
      (Double.ofRat (TERMS_VERSION : Int)).whole = TERMS_VERSION := by
    have hdouble : IsDouble ((TERMS_VERSION : Int) : ℚ) := isDouble_natCast (by decide)
    rw [Double.ofRat_of_nearest hdouble hdouble.exact]
    exact ⟨isInt_natCast TERMS_VERSION, Rat.num_natCast TERMS_VERSION⟩
  have hnum : ∀ n : Int, numberOf (Item.num n).value = some (Double.ofRat n) := fun _ => rfl
  have hstr : ∀ s : JsString, textOf (Item.str s).value = some s := fun _ => rfl
  simp only [wire, List.map_cons, List.map_nil, readWire, hnum, hstr, Option.bind_eq_bind, Option.bind_some, guard,
    if_pos hversion, Double.ofRat_whole h.decimals.1, Double.ofRat_whole h.closeAt.1,
    nullable_amount fun x hx => (h.reserve x hx).1.1, nullable_amount fun x hx => (h.maximum x hx).1.1, nullable_text,
    Option.pure_def, Option.some.injEq]
  rw [trim_trim, trim_trim, Option.map_map, descriptionText_idem, normal]
  simp only [Function.comp_def, trim_trim]

lemma canonicalTerms_eq_ok {bytes : Bytes} : canonicalTerms parseUrl t = .ok bytes ↔
    Acceptable parseUrl t ∧ bytes = Utf8.encode (stringify (wire t)) := by
  simp only [canonicalTerms, bind_eq_ok, pure_eq_ok, ← checkTerms_eq_ok]
  constructor
  · rintro ⟨⟨⟩, hcheck, hbytes⟩
    exact ⟨hcheck, hbytes.symm⟩
  · rintro ⟨hcheck, hbytes⟩
    exact ⟨(), hcheck, hbytes.symm⟩

lemma packTerms_eq_ok {packed : JsString} : packTerms parseUrl t = .ok packed ↔
    Acceptable parseUrl t ∧ packed = Utf16.encode (b64urlEncode (Utf8.encode (stringify (wire t)))) := by
  simp only [packTerms, bind_eq_ok, pure_eq_ok, canonicalTerms_eq_ok]
  constructor
  · rintro ⟨bytes, ⟨h, hbytes⟩, hpacked⟩
    rw [hbytes] at hpacked
    exact ⟨h, hpacked.symm⟩
  · rintro ⟨h, hpacked⟩
    exact ⟨Utf8.encode (stringify (wire t)), ⟨h, rfl⟩, hpacked.symm⟩

lemma dropSigns_encode {bytes : Bytes} (h : ∀ b ∈ bytes, b < 256) :
    dropSigns (Utf16.encode (b64urlEncode bytes)) = Utf16.encode (b64urlEncode bytes) := by
  have hunits : ∀ u ∈ Utf16.encode (b64urlEncode bytes), u ≠ 0x3D := by
    intro u hu
    obtain ⟨c, hc, hmem⟩ := List.mem_flatMap.mp hu
    rw [b64urlEncode_eq h] at hc
    have hsymbol := Base64.encode_mem Base64.urlSafe_lawful h c hc
    have hsmall := urlSafe_ascii c hsymbol
    rw [(Utf16.encodeChar_small hsmall).1, List.mem_singleton] at hmem
    rintro rfl
    have hnat := congrArg UInt16.toNat hmem
    rw [Utf16.toNat_ofNat hsmall] at hnat
    exact urlSafe_plain c hsymbol (Char.toNat_inj.mp hnat.symm)
  rw [dropSigns, List.dropWhile_eq_self_iff.mpr, List.reverse_reverse]
  intro hpos
  rw [decide_eq_true_eq]
  exact hunits _ (List.mem_reverse.mp (List.getElem_mem hpos))

/-- A link opens as the terms that were hashed. -/
theorem unpackTerms_packTerms {packed : JsString} (h : packTerms parseUrl t = .ok packed) :
    unpackTerms parseUrl packed = some (normal t) := by
  obtain ⟨hok, hpacked⟩ := packTerms_eq_ok.mp h
  have hlt := Utf8.encode_lt (stringify (wire t))
  have hagain : packTerms parseUrl (normal t) = .ok (Utf16.encode (b64urlEncode (Utf8.encode (stringify (wire t))))) := by
    rw [packTerms_eq_ok, wire_normal]
    exact ⟨acceptable_normal hok, rfl⟩
  have hne : wire t ≠ [] := List.cons_ne_nil _ _
  simp only [hpacked, unpackTerms, unb64_encode hlt, decodeUnmarked_stringify, JsJson.parse_stringify (wire_plain hok) hne,
    readWire_wire hok, hagain, Option.bind_eq_bind, Option.bind_some, Except.toOption, dropSigns_encode hlt]
  rfl

/-- A link that opens is what its terms pack to, apart from the signs at its end. -/
theorem packTerms_unpackTerms {packed : JsString} (h : unpackTerms parseUrl packed = some t) :
    packTerms parseUrl t = .ok (dropSigns packed) := by
  simp only [unpackTerms, Option.bind_eq_bind, Option.bind_eq_some_iff, toOption_eq_some, guard_eq_some, exists_const,
    Option.pure_def, Option.some.injEq] at h
  obtain ⟨bytes, -, text, -, terms, -, again, hagain, hsame, rfl⟩ := h
  rw [hagain, hsame]

/-! ### Texts without lone halves, and exact numbers -/

lemma isBlank_encodeChar (c : Char) : ∀ u ∈ Utf16.encodeChar c, isBlank u = JsStrings.isWhiteSpace c := by
  by_cases hc : c.toNat < 0x10000
  · obtain ⟨hunits, hhigh, hlow⟩ := Utf16.encodeChar_small hc
    intro u hu
    rw [hunits, List.mem_singleton] at hu
    have hsame : Utf16.single u = c := by
      rw [hu, ← Char.toNat_inj, Utf16.toNat_single hhigh hlow, Utf16.toNat_ofNat hc]
    rw [isBlank, hsame]
  · obtain ⟨u, v, hunits, hhigh, hlow, -⟩ := Utf16.encodeChar_large hc
    have hchar : JsStrings.isWhiteSpace c = false := by
      simp only [JsStrings.isWhiteSpace, Bool.or_eq_false_iff, beq_eq_false_iff_ne, Bool.and_eq_false_iff,
        decide_eq_false_iff_not]
      omega
    have hlone : ∀ w, (Utf16.isHigh w || Utf16.isLow w) = true → isBlank w = false := by
      intro w hw
      rw [isBlank, Utf16.single, if_pos hw]
      decide
    rw [hunits, hchar]
    intro w hw
    rcases List.mem_cons.mp hw with rfl | hw
    · exact hlone _ (by rw [hhigh]; rfl)
    · rw [List.mem_singleton.mp hw]
      exact hlone _ (by rw [hlow, Bool.or_true])

lemma encodeChar_ne_nil (c : Char) : Utf16.encodeChar c ≠ [] := by
  rw [Utf16.encodeChar]
  split_ifs <;> exact List.cons_ne_nil _ _

lemma dropWhile_encode (s : Text) :
    (Utf16.encode s).dropWhile isBlank = Utf16.encode (s.dropWhile JsStrings.isWhiteSpace) := by
  induction s with
  | nil => rfl
  | cons c s ih =>
    have hunits := isBlank_encodeChar c
    rw [Utf16.encode_cons]
    cases hc : JsStrings.isWhiteSpace c with
    | true =>
      rw [List.dropWhile_append_of_pos fun u hu => (hunits u hu).trans hc, ih, List.dropWhile_cons_of_pos hc]
    | false =>
      obtain ⟨u, units, hcons⟩ := List.exists_cons_of_ne_nil (encodeChar_ne_nil c)
      have hu : isBlank u = false := (hunits u (hcons ▸ List.mem_cons_self)).trans hc
      rw [List.dropWhile_cons_of_neg (by rw [hc]; decide), Utf16.encode_cons, hcons, List.cons_append,
        List.dropWhile_cons_of_neg (by rw [hu]; decide)]

lemma rdropWhile_encode (s : Text) :
    (Utf16.encode s).rdropWhile isBlank = Utf16.encode (s.rdropWhile JsStrings.isWhiteSpace) := by
  induction s using List.reverseRecOn with
  | nil => rfl
  | append_singleton s c ih =>
    have hunits := isBlank_encodeChar c
    have hone : Utf16.encode [c] = Utf16.encodeChar c := by rw [Utf16.encode, List.flatMap_singleton]
    rw [Utf16.encode_append, hone, List.rdropWhile_concat]
    cases hc : JsStrings.isWhiteSpace c with
    | true =>
      rw [if_pos rfl, ← ih, List.rdropWhile, List.reverse_append, List.dropWhile_append_of_pos]
      · rfl
      · exact fun u hu => (hunits u (List.mem_reverse.mp hu)).trans hc
    | false =>
      obtain ⟨units, u, hconcat⟩ := (List.eq_nil_or_concat (Utf16.encodeChar c)).resolve_left (encodeChar_ne_nil c)
      rw [List.concat_eq_append] at hconcat
      have hu : isBlank u = false :=
        (hunits u (by rw [hconcat]; exact List.mem_append_right _ List.mem_cons_self)).trans hc
      rw [if_neg (by decide), Utf16.encode_append, hone, hconcat, ← List.append_assoc, List.rdropWhile_concat,
        if_neg (by rw [hu]; decide)]

lemma trim_encode (s : Text) : trim (Utf16.encode s) = Utf16.encode (JsStrings.trim s) := by
  have h := rdropWhile_encode (s.dropWhile JsStrings.isWhiteSpace)
  rw [← dropWhile_encode] at h
  exact h

lemma encode_length (s : Text) : (Utf16.encode s).length = JsStrings.utf16Length s := by
  induction s with
  | nil => rfl
  | cons c s ih =>
    rw [JsStrings.utf16Length] at ih
    rw [Utf16.encode_cons, List.length_append, ih, JsStrings.utf16Length, List.map_cons, List.sum_cons, Utf16.encodeChar]
    split_ifs <;> rfl

lemma encode_eq_nil {s : Text} : Utf16.encode s = [] ↔ s = [] := by
  cases s with
  | nil => exact iff_of_true rfl rfl
  | cons c s =>
    refine iff_of_false (fun h => encodeChar_ne_nil c ?_) (List.cons_ne_nil _ _)
    rw [Utf16.encode_cons] at h
    exact (List.append_eq_nil_iff.mp h).1

lemma codePoints_encode (s : Text) : codePoints (Utf16.encode s) = s.length := by
  rw [codePoints, Utf16.decode_encode]

lemma isSellerKey_encode (key : Text) : isSellerKey (Utf16.encode key) = Live.isSellerKey key := by
  rw [isSellerKey, unb64, trim_encode, Utf16.decode_encode]
  rfl

lemma descriptionText_encode (d : Option Text) :
    descriptionText (d.map Utf16.encode) = (Live.descriptionText d).map Utf16.encode := by
  cases d with
  | none => rfl
  | some d =>
    rw [descriptionText, Live.descriptionText, Option.map_some, Option.map_some, Option.map_some, trim_encode,
      Option.filter_some, Option.filter_some]
    simp only [ne_eq, encode_eq_nil]
    split_ifs <;> rfl

lemma escapeUnits_cons {u : UInt16} (h : Utf16.isHigh u = false) (rest : JsString) :
    escapeUnits (u :: rest) = escapeUnit u ++ escapeUnits rest := by
  cases rest with
  | nil => rw [escapeUnits, escapeUnits, List.append_nil]
  | cons v rest => rw [escapeUnits, h, Bool.false_and, if_neg (by decide)]

lemma escapeUnit_char {c : Char} (hc : c.toNat < 0x10000) : escapeUnit (UInt16.ofNat c.toNat) = Json.escape c := by
  obtain ⟨-, hhigh, hlow⟩ := Utf16.encodeChar_small hc
  have hsame : Utf16.single (UInt16.ofNat c.toNat) = c := by
    rw [← Char.toNat_inj, Utf16.toNat_single hhigh hlow, Utf16.toNat_ofNat hc]
  have hfind : (Json.shortEscapes.find? fun p => p.1.toNat = (UInt16.ofNat c.toNat).toNat) =
      Json.shortEscapes.find? fun p => p.1 = c := by
    rw [Utf16.toNat_ofNat hc]
    simp only [Char.toNat_inj]
  rw [escapeUnit, Json.escape, hfind, hhigh, hlow, hsame, Utf16.toNat_ofNat hc, Bool.or_false, Bool.or_false]
  simp only [decide_eq_true_eq]
  cases Json.shortEscapes.find? fun p => p.1 = c with
  | some p => rfl
  | none =>
    dsimp only
    split_ifs with hcontrol
    · have hdigits : fourDigits c.toNat = ['0', '0', Json.hexDigit (c.toNat / 16), Json.hexDigit (c.toNat % 16)] := by
        have hzero : Json.hexDigit 0 = '0' := rfl
        rw [fourDigits, show c.toNat / 4096 = 0 by omega, show c.toNat / 256 % 16 = 0 by omega,
          show c.toNat / 16 % 16 = c.toNat / 16 by omega, hzero]
      rw [hdigits]
    · rfl

lemma escape_large {c : Char} (hc : ¬c.toNat < 0x10000) : Json.escape c = [c] := by
  have hfind : (Json.shortEscapes.find? fun p => p.1 = c) = none := by
    have hall : ∀ p ∈ Json.shortEscapes, p.1.toNat < 0x10000 := by decide
    refine List.find?_eq_none.mpr fun p hp heq => ?_
    have hsmall := hall p hp
    rw [of_decide_eq_true heq] at hsmall
    exact hc hsmall
  rw [Json.escape, hfind]
  dsimp only
  rw [if_neg (by omega)]

lemma quoteUnits_encode (s : Text) : quoteUnits (Utf16.encode s) = Json.quote s := by
  have hescape : escapeUnits (Utf16.encode s) = s.flatMap Json.escape := by
    induction s with
    | nil => rfl
    | cons c s ih =>
      rw [Utf16.encode_cons, List.flatMap_cons]
      by_cases hc : c.toNat < 0x10000
      · obtain ⟨hunits, hhigh, -⟩ := Utf16.encodeChar_small hc
        rw [hunits, List.singleton_append, escapeUnits_cons hhigh, escapeUnit_char hc, ih]
      · obtain ⟨u, v, hunits, hhigh, hlow, hpair⟩ := Utf16.encodeChar_large hc
        rw [hunits, List.cons_append, List.singleton_append, escapeUnits, if_pos (by rw [hhigh, hlow]; rfl), hpair, ih,
          escape_large hc, List.singleton_append]
  rw [quoteUnits, Json.quote, hescape]

lemma shortest_of_lt {m : Nat} (h : m < 2 ^ 53) : JsJson.shortest m = m := by
  have hround := JsJson.roundNat_shortest (JsNumbers.roundNat_of_lt h)
  exact JsNumbers.eq_of_roundNat hround h

lemma numberText_natCast {m : Nat} (h : m < 2 ^ 53) : numberText m = Json.decimal (JsNumbers.printed m) := by
  have hshort : (Nat.toDigits 10 m).length ≤ 21 :=
    (Nat.length_toDigits_le_iff (by decide) (by decide)).mpr (h.trans (by decide))
  rw [numberText, if_neg (by omega), Int.natAbs_natCast, magnitudeText, shortest_of_lt h, JsNumbers.printed_of_lt
    (by rw [Int.natAbs_natCast]; exact h)]
  exact if_pos hshort

lemma itemsText_eq {items : List Item} {values : List Json.Value}
    (h : List.Forall₂ (fun x v => x.text = Json.render v) items values) : itemsText items = Json.renderItems values := by
  induction h with
  | nil => rfl
  | cons hx hrest ih =>
    cases hrest with
    | nil => rw [itemsText, Json.renderItems, hx]
    | cons hy hrest => rw [itemsText, Json.renderItems, hx, ih]

/-- Numbers of at most fifty-three bits. -/
structure Exact (t : Live.Terms) : Prop where
  decimals : t.decimals.natAbs < 2 ^ 53
  closeAt : t.closeAt.natAbs < 2 ^ 53
  reserve : ∀ n ∈ t.reserveMinor, n.natAbs < 2 ^ 53
  maximum : ∀ n ∈ t.maxMinor, n.natAbs < 2 ^ 53

def onPage (t : Live.Terms) : Terms where
  auctionId := Utf16.encode t.auctionId
  title := Utf16.encode t.title
  unit := Utf16.encode t.unit
  decimals := .ofRat t.decimals
  closeAt := .ofRat t.closeAt
  reserveMinor := t.reserveMinor.map fun n : Int => Double.ofRat n
  maxMinor := t.maxMinor.map fun n : Int => Double.ofRat n
  image := t.image.map Utf16.encode
  description := t.description.map Utf16.encode
  contactKey := t.contactKey.map Utf16.encode

lemma ofRat_intCast {n : Int} (h : n.natAbs < 2 ^ 53) :
    (Double.ofRat n).isInteger = true ∧ (Double.ofRat n).whole = n := by
  have hdouble := isDouble_intCast h
  rw [Double.ofRat_of_nearest hdouble hdouble.exact]
  exact ⟨by rw [Double.isInteger, Rat.isInt, Rat.den_intCast]; rfl, Rat.num_intCast n⟩

section Texts

variable {parse : Text → Option Url} {s : Live.Terms}

/-- What the browser makes of an address, of a string of units. -/
def unitUrl (parse : Text → Option Url) (url : JsString) : Option Url := parse (Utf16.decode url)

lemma imageProblem_encode (url : Text) :
    imageProblem (unitUrl parse) (Utf16.encode url) = Live.imageProblem parse url := by
  cases hparse : parse (JsStrings.trim url) with
  | none =>
    simp only [imageProblem, Live.imageProblem, trim_encode, encode_eq_nil, encode_length, unitUrl,
      Utf16.decode_encode, hparse]
  | some parsed =>
    simp only [imageProblem, Live.imageProblem, trim_encode, encode_eq_nil, encode_length, unitUrl,
      Utf16.decode_encode, hparse]

lemma checkImage_onPage : checkImage (unitUrl parse) (onPage s) = Live.checkImage parse s := by
  unfold checkImage Live.checkImage
  rw [onPage]
  cases s.image with
  | none => rfl
  | some url =>
    cases hproblem : Live.imageProblem parse url with
    | none => simp only [Option.map_some, Option.bind_some, imageProblem_encode, hproblem]
    | some problem => simp only [Option.map_some, Option.bind_some, imageProblem_encode, hproblem]

lemma checkReserve_onPage (h : Exact s) : checkReserve (onPage s) = Live.checkReserve s := by
  unfold checkReserve Live.checkReserve
  rw [onPage]
  cases hreserve : s.reserveMinor with
  | none => rfl
  | some n =>
    obtain ⟨hinteger, hwhole⟩ := ofRat_intCast (h.reserve n hreserve)
    simp only [Option.map_some, hinteger, hwhole, true_and]

lemma checkMaximum_onPage (h : Exact s) : checkMaximum (onPage s) = Live.checkMaximum s := by
  have hbelow : ∀ m : Int, (∀ x ∈ (onPage s).reserveMinor, x.whole ≤ m) ↔ ∀ n ∈ s.reserveMinor, n ≤ m := by
    intro m
    rw [onPage]
    cases hreserve : s.reserveMinor with
    | none => simp
    | some n => simp [(ofRat_intCast (h.reserve n hreserve)).2]
  unfold checkMaximum Live.checkMaximum
  simp only [hbelow]
  rw [onPage]
  cases hmaximum : s.maxMinor with
  | none => rfl
  | some n =>
    obtain ⟨hinteger, hwhole⟩ := ofRat_intCast (h.maximum n hmaximum)
    simp only [Option.map_some, hinteger, hwhole, true_and]

lemma checkTerms_onPage (h : Exact s) : checkTerms (unitUrl parse) (onPage s) = Live.checkTerms parse s := by
  obtain ⟨hdecimals, hdecimalsWhole⟩ := ofRat_intCast h.decimals
  obtain ⟨hclose, hcloseWhole⟩ := ofRat_intCast h.closeAt
  have hkey : (∀ key ∈ (onPage s).contactKey, isSellerKey key = true) ↔
      ∀ key ∈ s.contactKey, Live.isSellerKey key = true := by
    rw [onPage]
    cases s.contactKey with
    | none => simp
    | some key => simp [isSellerKey_encode]
  have hdescription : (∀ d ∈ (onPage s).description, codePoints (trim d) ≤ MAX_DESCRIPTION_CHARS) ↔
      ∀ d ∈ s.description, (JsStrings.trim d).length ≤ MAX_DESCRIPTION_CHARS := by
    rw [onPage]
    cases s.description with
    | none => simp
    | some d => simp [trim_encode, codePoints_encode]
  unfold checkTerms Live.checkTerms
  rw [checkReserve_onPage h, checkMaximum_onPage h, checkImage_onPage]
  simp only [hkey, hdescription]
  simp only [onPage, ne_eq, encode_eq_nil, encode_length, trim_encode, codePoints_encode, hdecimals, hdecimalsWhole, hclose,
    hcloseWhole, true_and]

lemma jsonAmount_text {o : Option Int} (h : ∀ n ∈ o, 0 ≤ n ∧ n.natAbs < 2 ^ 53) :
    (jsonAmount (o.map fun n : Int => Double.ofRat n)).text = Json.render (Live.jsonAmount o) := by
  cases o with
  | none => rfl
  | some n =>
    obtain ⟨hpos, hsmall⟩ := h n rfl
    show numberText (Double.ofRat n).whole = Json.decimal (JsNumbers.printed n)
    obtain ⟨m, rfl⟩ := Int.eq_ofNat_of_zero_le hpos
    rw [(ofRat_intCast hsmall).2]
    exact numberText_natCast hsmall

lemma str_text (s : Text) : (Item.str (Utf16.encode s)).text = Json.render (.str s) := quoteUnits_encode s

lemma jsonText_text (o : Option Text) : (jsonText (o.map Utf16.encode)).text = Json.render (Live.jsonText o) := by
  cases o with
  | none => rfl
  | some s => exact quoteUnits_encode s

lemma wire_onPage (h : Exact s) (hok : Acceptable (unitUrl parse) (onPage s)) :
    stringify (wire (onPage s)) = Json.render (Live.wire s) := by
  have hnumber : ∀ {n : Int}, n.natAbs < 2 ^ 53 → 0 ≤ (Double.ofRat n).whole →
      (Item.num (Double.ofRat n).whole).text = Json.render (jsonNumber n) := fun hsmall hpos => by
    rw [(ofRat_intCast hsmall).2] at hpos
    exact jsonAmount_text (o := some _) fun k hk => Option.some.inj hk ▸ ⟨hpos, hsmall⟩
  have hreserve : ∀ n ∈ s.reserveMinor, 0 ≤ n ∧ n.natAbs < 2 ^ 53 := by
    intro n hn
    have hpage := (hok.reserve _ (Option.mem_map_of_mem _ hn)).1.2
    rw [(ofRat_intCast (h.reserve n hn)).2] at hpage
    exact ⟨hpage, h.reserve n hn⟩
  have hmaximum : ∀ n ∈ s.maxMinor, 0 ≤ n ∧ n.natAbs < 2 ^ 53 := by
    intro n hn
    have hpage := (hok.maximum _ (Option.mem_map_of_mem _ hn)).1.2
    rw [(ofRat_intCast (h.maximum n hn)).2] at hpage
    exact ⟨hpage.le, h.maximum n hn⟩
  have hversion : (Item.num TERMS_VERSION).text = Json.render (jsonNumber TERMS_VERSION) :=
    numberText_natCast (by decide)
  have himage : (jsonText ((onPage s).image.map trim)).text = Json.render (Live.jsonText (s.image.map JsStrings.trim)) := by
    rw [← jsonText_text, onPage, Option.map_map, Option.map_map]
    simp only [Function.comp_def, trim_encode]
  have hdescription : (jsonText (descriptionText (onPage s).description)).text =
      Json.render (Live.jsonText (Live.descriptionText s.description)) := by
    rw [onPage, descriptionText_encode, jsonText_text]
  have htitle : (Item.str (trim (onPage s).title)).text = Json.render (.str (JsStrings.trim s.title)) := by
    rw [show (onPage s).title = Utf16.encode s.title from rfl, trim_encode, str_text]
  have hunit : (Item.str (trim (onPage s).unit)).text = Json.render (.str (JsStrings.trim s.unit)) := by
    rw [show (onPage s).unit = Utf16.encode s.unit from rfl, trim_encode, str_text]
  obtain ⟨values, hvalues, htexts⟩ : ∃ values, Live.wire s = .arr values ∧
      List.Forall₂ (fun x v => x.text = Json.render v) (wire (onPage s)) values :=
    ⟨_, rfl, .cons hversion (.cons (str_text s.auctionId) (.cons htitle (.cons hunit
      (.cons (hnumber h.decimals hok.decimals.2.1) (.cons (hnumber h.closeAt hok.closeAt.2.le)
      (.cons (jsonAmount_text hreserve) (.cons (jsonAmount_text hmaximum) (.cons himage (.cons hdescription
      (.cons (jsonText_text s.contactKey) .nil))))))))))⟩
  rw [stringify, itemsText_eq htexts, hvalues, Json.render]

/-- The terms of plain texts and small numbers have the same bytes. -/
theorem canonicalTerms_onPage (h : Exact s) :
    canonicalTerms (unitUrl parse) (onPage s) = Live.canonicalTerms parse s := by
  unfold canonicalTerms Live.canonicalTerms
  rw [checkTerms_onPage h]
  cases hcheck : Live.checkTerms parse s with
  | error e => simp only [bind, Except.bind]
  | ok u =>
    have hok : Acceptable (unitUrl parse) (onPage s) := by
      rw [← checkTerms_eq_ok, checkTerms_onPage h]
      exact hcheck
    rw [wire_onPage h hok]

end Texts

/-- All of the texts trimmed. -/
def trimmed (t : Terms) : Terms :=
  { normal t with auctionId := trim t.auctionId, contactKey := t.contactKey.map trim }

/-- A link and its terms answer to each other, and links of the same bytes are the same apart from the signs. -/
theorem links_one_to_one (parseUrl : JsString → Option Url) :
    (∀ t packed, packTerms parseUrl t = .ok packed → unpackTerms parseUrl packed = some (normal t)) ∧
    (∀ packed t, unpackTerms parseUrl packed = some t → packTerms parseUrl t = .ok (dropSigns packed)) ∧
    ∀ packed packed' t t', unpackTerms parseUrl packed = some t → unpackTerms parseUrl packed' = some t' →
      dropSigns packed ≠ dropSigns packed' → ∃ bytes bytes', bytes ≠ bytes' ∧
        canonicalTerms parseUrl t = .ok bytes ∧ canonicalTerms parseUrl t' = .ok bytes' ∧
        (checksum parseUrl t = checksum parseUrl t' ↔ speak (sha256 bytes) = speak (sha256 bytes')) := by
  refine ⟨fun t packed h => unpackTerms_packTerms h, fun packed t h => packTerms_unpackTerms h, ?_⟩
  intro packed packed' t t' h h' hne
  have hpacked := packTerms_unpackTerms h
  have hpacked' := packTerms_unpackTerms h'
  simp only [packTerms, bind_eq_ok, pure_eq_ok] at hpacked hpacked'
  obtain ⟨bytes, hbytes, hlink⟩ := hpacked
  obtain ⟨bytes', hbytes', hlink'⟩ := hpacked'
  refine ⟨bytes, bytes', ?_, hbytes, hbytes', ?_⟩
  · rintro rfl
    exact hne (hlink.symm.trans hlink')
  · rw [checksum, checksum, hbytes, hbytes']
    exact ⟨Except.ok.inj, congrArg Except.ok⟩

/-- A whole number below `2 ^ 53`. -/
def Number (m : Nat) (h : m < 2 ^ 53) : Double := .finite m (isDouble_natCast h)

def sampleTerms (auctionId : JsString) : Terms where
  auctionId := auctionId
  title := Utf16.encode " mug ".toList
  unit := Utf16.encode "USD".toList
  decimals := Number 2 (by decide)
  closeAt := Number 1800000000 (by decide)
  reserveMinor := none
  maxMinor := none
  image := none
  description := some []
  contactKey := none

def noUrl : JsString → Option Url := fun _ => none

lemma sample_acceptable {auctionId : JsString} (h : auctionId ≠ [] ∧ auctionId.length ≤ MAX_AUCTION_ID_CHARS) :
    Acceptable noUrl (sampleTerms auctionId) where
  auctionId := h
  title := show trim (Utf16.encode " mug ".toList) ≠ [] ∧ codePoints (trim (Utf16.encode " mug ".toList)) ≤ 80 by
    decide
  unit := show trim (Utf16.encode "USD".toList) ≠ [] ∧ codePoints (trim (Utf16.encode "USD".toList)) ≤ 12 by decide
  decimals := show (2 : ℚ).isInt = true ∧ 0 ≤ (2 : ℚ).num ∧ (2 : ℚ).num ≤ 4 by decide
  closeAt := show (1800000000 : ℚ).isInt = true ∧ 0 < (1800000000 : ℚ).num by decide
  reserve := fun x hx => by cases hx
  maximum := fun x hx => by cases hx
  image := fun url hurl => by cases hurl
  contactKey := fun key hkey => by cases hkey
  description := fun d hd => by
    obtain rfl := Option.some.inj hd
    decide

lemma sample_packed {auctionId : JsString} (h : auctionId ≠ [] ∧ auctionId.length ≤ MAX_AUCTION_ID_CHARS) :
    packTerms noUrl (sampleTerms auctionId) =
      .ok (Utf16.encode (b64urlEncode (Utf8.encode (stringify (wire (sampleTerms auctionId)))))) :=
  packTerms_eq_ok.mpr ⟨sample_acceptable h, rfl⟩

theorem sample_link_opens : unpackTerms noUrl (Utf16.encode (b64urlEncode (Utf8.encode (stringify
    (wire (sampleTerms (Utf16.encode "cond_1".toList))))))) = some (normal (sampleTerms (Utf16.encode "cond_1".toList))) :=
  (links_one_to_one noUrl).1 _ _ (sample_packed (by decide))

/-- The auction's id is kept as it is. -/
theorem spaced_id_kept : ∃ packed, packTerms noUrl (sampleTerms (Utf16.encode " a".toList)) = .ok packed ∧
    unpackTerms noUrl packed ≠ some (trimmed (sampleTerms (Utf16.encode " a".toList))) := by
  refine ⟨_, sample_packed (by decide), fun h => ?_⟩
  rw [unpackTerms_packTerms (sample_packed (by decide))] at h
  have hid : Utf16.encode " a".toList = trim (Utf16.encode " a".toList) := congrArg Terms.auctionId (Option.some.inj h)
  exact absurd hid (by decide)

end Peal.Live.Page
