import Peal.Live.Record
import Peal.Library.Fallible
import Peal.Library.Base64
import Peal.Library.Json
import Peal.Library.JsNumbers
import Peal.Library.JsStrings
import Peal.Library.Sha256
import Mathlib.Data.List.GetD

open Peal.Coordinator (Text Bytes)
open Peal.Fallible Peal.JsNumbers Peal.Sha256
open Peal.JsStrings (trim utf16Length)
open Peal.Links (hexEncode)

namespace Peal.Live

/-! # The terms of an auction -/

structure Terms where
  auctionId : Text
  title : Text
  unit : Text
  decimals : Int
  closeAt : Int
  reserveMinor : Option Int
  maxMinor : Option Int
  image : Option Text
  description : Option Text
  contactKey : Option Text
  deriving DecidableEq, Repr

def TERMS_VERSION : Nat := 5
def MAX_TITLE_CHARS : Nat := 80
def MAX_UNIT_CHARS : Nat := 12
def MAX_AUCTION_ID_CHARS : Nat := 64
def MAX_IMAGE_CHARS : Nat := 200
def MAX_DESCRIPTION_CHARS : Nat := 280

/-- What the page reads of a parsed address. -/
structure Url where
  protocol : Text
  hostname : Text
  deriving DecidableEq, Repr

/-! ### Base64 in a fragment -/

def toUrlSafe (c : Char) : Char := if c = '+' then '-' else if c = '/' then '_' else c

def fromUrlSafe (c : Char) : Char := if c = '-' then '+' else if c = '_' then '/' else c

/-- `replace(/=+$/, '')`. -/
def dropSigns (text : Text) : Text := (text.reverse.dropWhile fun c => c = '=').reverse

def b64urlEncode (bytes : Bytes) : Text := dropSigns ((Base64.btoa bytes).map toUrlSafe)

def b64urlDecode (text : Text) : Option Bytes :=
  let padded := text.map fromUrlSafe
  Base64.atob (padded ++ Base64.padding (utf16Length padded))

def PUBLIC_KEY_BYTES : Nat := 65

def isSellerKey (key : Text) : Bool := (b64urlDecode (trim key)).any fun bytes => bytes.length = PUBLIC_KEY_BYTES

/-! ### The bytes the checksum is taken over -/

section Page

variable (parseUrl : Text → Option Url)

/-- Why a picture address cannot be used. -/
def imageProblem (url : Text) : Option String :=
  let trimmed := trim url
  if trimmed = [] then none
  else if MAX_IMAGE_CHARS < utf16Length trimmed then some s!"picture link exceeds {MAX_IMAGE_CHARS} characters"
  else
    match parseUrl trimmed with
    | none => some "that picture link is not a web address"
    | some parsed =>
      if parsed.protocol ≠ "https:".toList then some "the picture link has to start with https"
      else if parsed.hostname = [] then some "that picture link has no site in it"
      else none

def jsonText : Option Text → Json.Value
  | some s => .str s
  | none => .null

def jsonNumber (n : Int) : Json.Value := .num (printed n)

def jsonAmount : Option Int → Json.Value
  | some n => jsonNumber n
  | none => .null

/-- The description as it is hashed. -/
def descriptionText (description : Option Text) : Option Text := (description.map trim).filter fun s => s ≠ []

def wire (t : Terms) : Json.Value :=
  .arr [jsonNumber TERMS_VERSION, .str t.auctionId, .str (trim t.title), .str (trim t.unit), jsonNumber t.decimals,
    jsonNumber t.closeAt, jsonAmount t.reserveMinor, jsonAmount t.maxMinor, jsonText (t.image.map trim),
    jsonText (descriptionText t.description), jsonText t.contactKey]

def checkReserve (t : Terms) : Except String Unit :=
  match t.reserveMinor with
  | none => .ok ()
  | some reserve => do
    require (0 ≤ reserve) "reserve must be a whole number of minor units"
    require (reserve ≤ MAX_AMOUNT_MINOR) "reserve is too large"

def checkMaximum (t : Terms) : Except String Unit :=
  match t.maxMinor with
  | none => .ok ()
  | some maximum => do
    require (0 < maximum) "maximum must be a whole number of minor units"
    require (maximum ≤ MAX_AMOUNT_MINOR) "maximum is too large"
    require (∀ reserve ∈ t.reserveMinor, reserve ≤ maximum) "the maximum cannot be below the reserve"

def checkImage (t : Terms) : Except String Unit :=
  match t.image.bind (imageProblem parseUrl) with
  | none => .ok ()
  | some problem => .error problem

def checkTerms (t : Terms) : Except String Unit := do
  require (t.auctionId ≠ []) "auction id is required"
  require (utf16Length t.auctionId ≤ MAX_AUCTION_ID_CHARS) "auction id is too long"
  require (trim t.title ≠ []) "the item needs a name"
  require ((trim t.title).length ≤ MAX_TITLE_CHARS) s!"item name exceeds {MAX_TITLE_CHARS} characters"
  require (trim t.unit ≠ [] ∧ (trim t.unit).length ≤ MAX_UNIT_CHARS) "unit must be 1 to 12 characters"
  require (0 ≤ t.decimals ∧ t.decimals ≤ 4) "decimals must be an integer from 0 to 4"
  require (0 < t.closeAt) "close time must be unix seconds"
  checkReserve t
  checkMaximum t
  checkImage parseUrl t
  require (∀ key ∈ t.contactKey, isSellerKey key) "that is not a seller key"
  require (∀ description ∈ t.description, (trim description).length ≤ MAX_DESCRIPTION_CHARS)
    s!"the description exceeds {MAX_DESCRIPTION_CHARS} characters"

def canonicalTerms (t : Terms) : Except String Bytes := do
  checkTerms parseUrl t
  return Utf8.encode (Json.render (wire t))

def packTerms (t : Terms) : Except String Text := (canonicalTerms parseUrl t).map b64urlEncode

/-! ### Reading a link -/

def numberOf : Json.Value → Option Int
  | .num n => some (toDouble n)
  | _ => none

def textOf : Json.Value → Option Text
  | .str s => some s
  | _ => none

/-- A value that may be null. -/
def nullable {α : Type} (read : Json.Value → Option α) : Json.Value → Option (Option α)
  | .null => some none
  | v => (read v).map some

/-- The tuple of a link, trimmed. -/
def readWire : Json.Value → Option Terms
  | .arr [version, auctionId, title, unit, decimals, closeAt, reserveMinor, maxMinor, image, description, contactKey] => do
    let version ← numberOf version
    if version ≠ TERMS_VERSION then none
    let auctionId ← textOf auctionId
    let title ← textOf title
    let unit ← textOf unit
    let decimals ← numberOf decimals
    let closeAt ← numberOf closeAt
    let reserveMinor ← nullable numberOf reserveMinor
    let maxMinor ← nullable numberOf maxMinor
    let image ← nullable textOf image
    let description ← nullable textOf description
    let contactKey ← nullable textOf contactKey
    return ⟨auctionId, trim title, trim unit, decimals, closeAt, reserveMinor, maxMinor, image.map trim,
      descriptionText description, contactKey⟩
  | _ => none

def unpackTerms (packed : Text) : Option Terms := do
  let bytes ← b64urlDecode packed
  let text ← Utf8.decodeUnmarked bytes
  let terms ← (Json.parse text).bind readWire
  let again ← (packTerms parseUrl terms).toOption
  -- a link is the one its terms pack to
  if again ≠ dropSigns packed then none
  return terms

/-! ### What is read out and what goes on chain -/

def BASE32 : Text := "0123456789ABCDEFGHJKMNPQRSTVWXYZ".toList

/-- The letters are put in front, from the eighth to the first. -/
def speak (digest : Bytes) : Text :=
  let bits := (digest.take 5).foldl (fun bits byte => bits * 256 + byte) 0
  let out := (List.range 8).reverse.foldl (fun out i => BASE32.getD (bits / 2 ^ (i * 5) % 32) '0' :: out) []
  out.take 4 ++ ' ' :: out.drop 4

def checksum (t : Terms) : Except String Text := (canonicalTerms parseUrl t).map fun bytes => speak (sha256 bytes)

def termsHash (t : Terms) : Except String Text :=
  (canonicalTerms parseUrl t).map fun bytes => "0x".toList ++ hexEncode (sha256 bytes)

end Page

/-! ### What the page accepts -/

structure Acceptable (parseUrl : Text → Option Url) (t : Terms) : Prop where
  auctionId : t.auctionId ≠ [] ∧ utf16Length t.auctionId ≤ MAX_AUCTION_ID_CHARS
  title : trim t.title ≠ [] ∧ (trim t.title).length ≤ MAX_TITLE_CHARS
  unit : trim t.unit ≠ [] ∧ (trim t.unit).length ≤ MAX_UNIT_CHARS
  decimals : 0 ≤ t.decimals ∧ t.decimals ≤ 4
  closeAt : 0 < t.closeAt
  reserve : ∀ reserve ∈ t.reserveMinor, 0 ≤ reserve ∧ reserve ≤ MAX_AMOUNT_MINOR
  maximum : ∀ maximum ∈ t.maxMinor,
    0 < maximum ∧ maximum ≤ MAX_AMOUNT_MINOR ∧ ∀ reserve ∈ t.reserveMinor, reserve ≤ maximum
  image : ∀ url ∈ t.image, imageProblem parseUrl url = none
  contactKey : ∀ key ∈ t.contactKey, isSellerKey key = true
  description : ∀ description ∈ t.description, (trim description).length ≤ MAX_DESCRIPTION_CHARS

section Checks

variable {parseUrl : Text → Option Url} {t : Terms}

lemma checkReserve_eq_ok {u : Unit} :
    checkReserve t = .ok u ↔ ∀ reserve ∈ t.reserveMinor, 0 ≤ reserve ∧ reserve ≤ MAX_AMOUNT_MINOR := by
  unfold checkReserve
  cases t.reserveMinor with
  | none => simp
  | some reserve => simp

lemma checkMaximum_eq_ok {u : Unit} :
    checkMaximum t = .ok u ↔ ∀ maximum ∈ t.maxMinor,
      0 < maximum ∧ maximum ≤ MAX_AMOUNT_MINOR ∧ ∀ reserve ∈ t.reserveMinor, reserve ≤ maximum := by
  unfold checkMaximum
  cases t.maxMinor with
  | none => simp
  | some maximum => simp

lemma checkImage_eq_ok {u : Unit} :
    checkImage parseUrl t = .ok u ↔ ∀ url ∈ t.image, imageProblem parseUrl url = none := by
  unfold checkImage
  cases t.image with
  | none => simp
  | some url => cases h : imageProblem parseUrl url <;> simp [h]

theorem checkTerms_eq_ok : checkTerms parseUrl t = .ok () ↔ Acceptable parseUrl t := by
  simp only [checkTerms, bind_eq_ok, require_eq_ok, checkReserve_eq_ok, checkMaximum_eq_ok, checkImage_eq_ok,
    exists_const]
  constructor
  · rintro ⟨hid, hidShort, htitle, htitleShort, hunit, hdecimals, hclose, hreserve, hmaximum, himage, hkey, hdescription⟩
    exact ⟨⟨hid, hidShort⟩, ⟨htitle, htitleShort⟩, hunit, hdecimals, hclose, hreserve, hmaximum, himage, hkey,
      hdescription⟩
  · intro h
    exact ⟨h.auctionId.1, h.auctionId.2, h.title.1, h.title.2, h.unit, h.decimals, h.closeAt, h.reserve, h.maximum,
      h.image, h.contactKey, h.description⟩

end Checks

/-! ### A link's text -/

lemma map_toUrlSafe (bytes : Bytes) :
    (Base64.encode Base64.standard bytes).map toUrlSafe = Base64.encode Base64.urlSafe bytes := by
  have halphabet : Base64.urlSafe = Base64.standard.map toUrlSafe := by decide
  have hsymbol (n : Nat) : toUrlSafe (Base64.symbol Base64.standard n) = Base64.symbol Base64.urlSafe n := by
    rw [Base64.symbol, Base64.symbol, halphabet]
    exact (List.getD_map _ _ toUrlSafe).symm
  rw [Base64.encode_eq_map, Base64.encode_eq_map, List.map_map]
  exact List.map_congr_left fun n _ => hsymbol n

lemma map_fromUrlSafe (bytes : Bytes) :
    (Base64.encode Base64.urlSafe bytes).map fromUrlSafe = Base64.encode Base64.standard bytes := by
  have halphabet : Base64.standard = Base64.urlSafe.map fromUrlSafe := by decide
  have hsymbol (n : Nat) : fromUrlSafe (Base64.symbol Base64.urlSafe n) = Base64.symbol Base64.standard n := by
    rw [Base64.symbol, Base64.symbol, halphabet]
    exact (List.getD_map _ _ fromUrlSafe).symm
  rw [Base64.encode_eq_map, Base64.encode_eq_map, List.map_map]
  exact List.map_congr_left fun n _ => hsymbol n

lemma urlSafe_plain : ∀ c ∈ Base64.urlSafe, c ≠ '=' := by
  have hall : Base64.urlSafe.all (fun c => decide (c ≠ '=')) = true := by decide
  exact fun c hc => of_decide_eq_true (List.all_eq_true.mp hall c hc)

lemma urlSafe_ascii : ∀ c ∈ Base64.urlSafe, c.toNat < 0x10000 := by
  have hall : Base64.urlSafe.all (fun c => decide (c.toNat < 0x10000)) = true := by decide
  exact fun c hc => of_decide_eq_true (List.all_eq_true.mp hall c hc)

lemma standard_ascii : ∀ c ∈ Base64.standard, c.toNat < 0x10000 := by
  have hall : Base64.standard.all (fun c => decide (c.toNat < 0x10000)) = true := by decide
  exact fun c hc => of_decide_eq_true (List.all_eq_true.mp hall c hc)

lemma dropSigns_append {text : Text} (h : ∀ c ∈ text, c ≠ '=') (k : Nat) :
    dropSigns (text ++ List.replicate k '=') = text := by
  have hsigns : ∀ c ∈ List.replicate k '=', decide (c = '=') = true := by
    intro c hc
    rw [(List.mem_replicate.mp hc).2]
    rfl
  have hstop : text.reverse.dropWhile (fun c => decide (c = '=')) = text.reverse := by
    rw [List.dropWhile_eq_self_iff]
    intro hlt
    have hmem := List.mem_reverse.mp (List.getElem_mem hlt)
    simp only [decide_eq_true_eq]
    exact h _ hmem
  rw [dropSigns, List.reverse_append, List.reverse_replicate, List.dropWhile_append_of_pos hsigns, hstop,
    List.reverse_reverse]

lemma dropSigns_encode {bytes : Bytes} (h : ∀ b ∈ bytes, b < 256) :
    dropSigns (Base64.encode Base64.urlSafe bytes) = Base64.encode Base64.urlSafe bytes := by
  have hplain : ∀ c ∈ Base64.encode Base64.urlSafe bytes, c ≠ '=' := fun c hc =>
    urlSafe_plain c (Base64.encode_mem Base64.urlSafe_lawful h c hc)
  have happend := dropSigns_append hplain 0
  rwa [List.replicate_zero, List.append_nil] at happend

lemma b64urlEncode_eq {bytes : Bytes} (h : ∀ b ∈ bytes, b < 256) :
    b64urlEncode bytes = Base64.encode Base64.urlSafe bytes := by
  have hplain : ∀ c ∈ Base64.encode Base64.urlSafe bytes, c ≠ '=' := fun c hc =>
    urlSafe_plain c (Base64.encode_mem Base64.urlSafe_lawful h c hc)
  rw [b64urlEncode, Base64.btoa, List.map_append, map_toUrlSafe, Base64.padding, List.map_replicate]
  exact dropSigns_append hplain _

lemma b64urlDecode_encode {bytes : Bytes} (h : ∀ b ∈ bytes, b < 256) :
    b64urlDecode (Base64.encode Base64.urlSafe bytes) = some bytes := by
  have hascii : ∀ c ∈ Base64.encode Base64.standard bytes, c.toNat < 0x10000 := fun c hc =>
    standard_ascii c (Base64.encode_mem Base64.standard_lawful h c hc)
  unfold b64urlDecode
  rw [map_fromUrlSafe]
  dsimp only
  rw [JsStrings.utf16Length_of_lt hascii]
  exact Base64.atob_btoa h

/-! ### Reading a link back -/

lemma decodeUnmarked_render (items : List Json.Value) :
    Utf8.decodeUnmarked (Utf8.encode (Json.render (.arr items))) = some (Json.render (.arr items)) := by
  have hmark : '[' ≠ Utf8.bom := by decide
  rw [Utf8.decodeUnmarked_eq, Utf8.decode_encode, Option.map_some, Json.render, List.cons_append, Utf8.dropBom,
    if_neg hmark]

lemma canonicalTerms_eq_ok {parseUrl : Text → Option Url} {t : Terms} {bytes : Bytes} :
    canonicalTerms parseUrl t = .ok bytes ↔
      checkTerms parseUrl t = .ok () ∧ bytes = Utf8.encode (Json.render (wire t)) := by
  simp only [canonicalTerms, bind_eq_ok, pure_eq_ok]
  constructor
  · rintro ⟨⟨⟩, hcheck, rfl⟩
    exact ⟨hcheck, rfl⟩
  · rintro ⟨hcheck, rfl⟩
    exact ⟨(), hcheck, rfl⟩

lemma packTerms_eq_ok {parseUrl : Text → Option Url} {t : Terms} {packed : Text} :
    packTerms parseUrl t = .ok packed ↔
      checkTerms parseUrl t = .ok () ∧
        packed = Base64.encode Base64.urlSafe (Utf8.encode (Json.render (wire t))) := by
  unfold packTerms
  cases h : canonicalTerms parseUrl t with
  | error e =>
    refine iff_of_false (fun hok => by cases hok) fun hok => ?_
    rw [canonicalTerms_eq_ok.mpr ⟨hok.1, rfl⟩] at h
    cases h
  | ok bytes =>
    obtain ⟨hcheck, rfl⟩ := canonicalTerms_eq_ok.mp h
    rw [Except.map, Except.ok.injEq, b64urlEncode_eq (Utf8.encode_lt _)]
    exact ⟨fun heq => ⟨hcheck, heq.symm⟩, fun heq => heq.2.symm⟩

lemma link_injective {v w : Json.Value}
    (h : Base64.encode Base64.urlSafe (Utf8.encode (Json.render v)) =
      Base64.encode Base64.urlSafe (Utf8.encode (Json.render w))) : v = w := by
  have hv := Base64.decode_encode Base64.urlSafe_lawful (Utf8.encode_lt (Json.render v))
  rw [h, Base64.decode_encode Base64.urlSafe_lawful (Utf8.encode_lt (Json.render w)), Option.some.injEq] at hv
  exact (Json.render_injective (Utf8.encode_injective hv)).symm

/-- A link with these items opens exactly when the page reads acceptable terms out of it that it would itself
write as these items. -/
theorem unpackTerms_link (parseUrl : Text → Option Url) (items : List Json.Value) (t : Terms) :
    unpackTerms parseUrl (Base64.encode Base64.urlSafe (Utf8.encode (Json.render (.arr items)))) = some t ↔
      readWire (.arr items) = some t ∧ checkTerms parseUrl t = .ok () ∧ wire t = .arr items := by
  have hlt := Utf8.encode_lt (Json.render (.arr items))
  simp only [unpackTerms, b64urlDecode_encode hlt, decodeUnmarked_render, Json.parse_render, dropSigns_encode hlt,
    Option.bind_eq_bind, Option.bind_some, Option.bind_eq_some_iff, toOption_eq_some]
  constructor
  · rintro ⟨read, hread, packed, hpacked, hsame⟩
    obtain ⟨hcheck, rfl⟩ := packTerms_eq_ok.mp hpacked
    split_ifs at hsame with hne
    · simp at hsame
    · obtain rfl := Option.some.inj hsame
      exact ⟨hread, hcheck, link_injective (not_not.mp hne)⟩
  · rintro ⟨hread, hcheck, hwire⟩
    refine ⟨t, hread, _, packTerms_eq_ok.mpr ⟨hcheck, rfl⟩, ?_⟩
    rw [hwire, if_neg (not_not.mpr rfl)]
    rfl

end Peal.Live
