import Peal.Live.RecordCodec
import Peal.Live.Terms

open Peal.Coordinator (Text Bytes)
open Peal.Fallible

namespace Peal.Live

/-! # Contact details for the seller alone -/

def MAX_CONTACT_BYTES : Nat := 64
def IV_BYTES : Nat := 12
def TAG_BYTES : Nat := 16
def SEALED_CONTACT_BYTES : Nat := PUBLIC_KEY_BYTES + IV_BYTES + MAX_CONTACT_BYTES + TAG_BYTES

/-- What the browser does with keys, and the public half of a private key. -/
structure WebCrypto (PublicKey PrivateKey Jwk Key : Type) where
  publicOf : PrivateKey → PublicKey
  exportRaw : PublicKey → Bytes
  exportJwk : PrivateKey → Jwk
  importRaw : Bytes → Except String PublicKey
  importJwk : Jwk → Except String PrivateKey
  deriveKey : PublicKey → PrivateKey → Except String Key
  encrypt : Key → Bytes → Bytes → Bytes
  decrypt : Key → Bytes → Bytes → Except String Bytes

variable {PublicKey PrivateKey Jwk Key : Type}

/-- ECDH and AES-GCM as they are documented. -/
structure WebCrypto.Standard (crypto : WebCrypto PublicKey PrivateKey Jwk Key) : Prop where
  exportRaw_length : ∀ k, (crypto.exportRaw k).length = PUBLIC_KEY_BYTES
  exportRaw_lt : ∀ k, ∀ b ∈ crypto.exportRaw k, b < 256
  importRaw_exportRaw : ∀ k, crypto.importRaw (crypto.exportRaw k) = .ok k
  importJwk_exportJwk : ∀ k, crypto.importJwk (crypto.exportJwk k) = .ok k
  agreement : ∀ a b, ∃ shared, crypto.deriveKey (crypto.publicOf a) b = .ok shared ∧
    crypto.deriveKey (crypto.publicOf b) a = .ok shared
  encrypt_length : ∀ shared iv data, (crypto.encrypt shared iv data).length = data.length + TAG_BYTES
  decrypt_encrypt : ∀ shared iv data, crypto.decrypt shared iv (crypto.encrypt shared iv data) = .ok data

/-- `Uint8Array.set`. -/
def setBytes (dst src : Bytes) (offset : Nat) : Except String Bytes := do
  require (offset + src.length ≤ dst.length) "RangeError: offset is out of bounds"
  return dst.take offset ++ src ++ dst.drop (offset + src.length)

section Page

variable (crypto : WebCrypto PublicKey PrivateKey Jwk Key)

/-- The key pair `ephemeral` and the nonce `iv` are drawn by the browser. -/
def sealContact (sellerPublicKey : Text) (text : JsString) (ephemeral : PrivateKey) (iv : Bytes) :
    Except String Bytes := do
  let plain := textEncode text
  require (plain.length ≤ MAX_CONTACT_BYTES) s!"contact details exceed {MAX_CONTACT_BYTES} bytes"
  let raw ← expect (b64urlDecode sellerPublicKey) "InvalidCharacterError"
  let seller ← crypto.importRaw raw
  let shared ← crypto.deriveKey seller ephemeral
  let padded ← setBytes ((List.replicate MAX_CONTACT_BYTES 0).set 0 plain.length) plain 1
  let body := crypto.encrypt shared iv (slice padded 0 MAX_CONTACT_BYTES)
  let out ← setBytes (List.replicate SEALED_CONTACT_BYTES 0) (crypto.exportRaw (crypto.publicOf ephemeral)) 0
  let out ← setBytes out iv PUBLIC_KEY_BYTES
  setBytes out body (PUBLIC_KEY_BYTES + IV_BYTES)

/-- The part of `openContact` that may throw. -/
def tryOpen (privateKey : Jwk) (sealed : Bytes) : Except String (Option JsString) := do
  let mine ← crypto.importJwk privateKey
  let theirs ← crypto.importRaw (slice sealed 0 PUBLIC_KEY_BYTES)
  let shared ← crypto.deriveKey theirs mine
  let iv := slice sealed PUBLIC_KEY_BYTES (PUBLIC_KEY_BYTES + IV_BYTES)
  let padded ← crypto.decrypt shared iv (sealed.drop (PUBLIC_KEY_BYTES + IV_BYTES))
  let len := padded.getD 0 0
  if len = 0 ∨ MAX_CONTACT_BYTES - 1 < len then return none
  else
    let text ← expect (Utf8.decodeUnmarked (slice padded 1 (1 + len))) "TypeError: The encoded data was not valid"
    return some (Utf16.encode text)

def openContact (privateKey : Jwk) (sealed : Bytes) : Except String (Option JsString) :=
  if sealed.length ≠ SEALED_CONTACT_BYTES then return none
  else tryCatch (tryOpen crypto privateKey sealed) fun _ => return none

/-- How a seller's key rides in the terms. -/
def sellerKey (seller : PrivateKey) : Text := b64urlEncode (crypto.exportRaw (crypto.publicOf seller))

end Page

/-! ### The frame -/

lemma setBytes_eq_ok {dst src out : Bytes} {offset : Nat} : setBytes dst src offset = .ok out ↔
    offset + src.length ≤ dst.length ∧ dst.take offset ++ src ++ dst.drop (offset + src.length) = out := by
  simp only [setBytes, bind_eq_ok, require_eq_ok, pure_eq_ok, exists_const]

lemma setBytes_mid {front old back src out : Bytes} {offset : Nat} (hfront : front.length = offset)
    (hold : old.length = src.length) : setBytes (front ++ old ++ back) src offset = .ok out ↔ front ++ src ++ back = out := by
  have htake : (front ++ old ++ back).take offset = front := by
    rw [List.append_assoc, List.take_left' hfront]
  have hdrop : (front ++ old ++ back).drop (offset + src.length) = back := by
    rw [List.drop_left' (by rw [List.length_append, hfront, hold])]
  rw [setBytes_eq_ok, htake, hdrop]
  refine and_iff_right ?_
  rw [List.length_append, List.length_append, hfront, hold]
  exact Nat.le_add_right _ _

/-- The text after its length, then zeros. -/
def padText (plain : Bytes) : Bytes :=
  plain.length :: plain ++ List.replicate (MAX_CONTACT_BYTES - 1 - plain.length) 0

lemma padText_length {plain : Bytes} (h : plain.length < MAX_CONTACT_BYTES) :
    (padText plain).length = MAX_CONTACT_BYTES := by
  rw [padText, List.length_append, List.length_cons, List.length_replicate]
  omega

lemma pad_eq_ok {plain padded : Bytes} :
    setBytes ((List.replicate MAX_CONTACT_BYTES 0).set 0 plain.length) plain 1 = .ok padded ↔
      plain.length < MAX_CONTACT_BYTES ∧ padText plain = padded := by
  have hzeros : (List.replicate MAX_CONTACT_BYTES 0).set 0 plain.length =
      [plain.length] ++ List.replicate (MAX_CONTACT_BYTES - 1) 0 := rfl
  by_cases h : plain.length < MAX_CONTACT_BYTES
  · have hsplit : List.replicate (MAX_CONTACT_BYTES - 1) 0 =
        List.replicate plain.length 0 ++ List.replicate (MAX_CONTACT_BYTES - 1 - plain.length) 0 := by
      rw [← List.replicate_add]
      congr 1
      omega
    rw [hzeros, hsplit, ← List.append_assoc, setBytes_mid (List.length_singleton (a := plain.length)) List.length_replicate]
    exact (and_iff_right h).symm
  · refine iff_of_false (fun hok => h ?_) fun hno => h hno.1
    have hfits := (setBytes_eq_ok.mp hok).1
    rw [List.length_set, List.length_replicate] at hfits
    omega

variable {crypto : WebCrypto PublicKey PrivateKey Jwk Key} {seller ephemeral : PrivateKey} {iv : Bytes} {text : Text}

lemma frame_eq_ok {raw body sealed : Bytes} (hraw : raw.length = PUBLIC_KEY_BYTES) (hiv : iv.length = IV_BYTES)
    (hbody : body.length = MAX_CONTACT_BYTES + TAG_BYTES) :
    (∃ out, setBytes (List.replicate SEALED_CONTACT_BYTES 0) raw 0 = .ok out ∧
      ∃ out', setBytes out iv PUBLIC_KEY_BYTES = .ok out' ∧
        setBytes out' body (PUBLIC_KEY_BYTES + IV_BYTES) = .ok sealed) ↔ raw ++ iv ++ body = sealed := by
  let nonceRoom := List.replicate IV_BYTES 0
  let bodyRoom := List.replicate (MAX_CONTACT_BYTES + TAG_BYTES) 0
  have hzeros : List.replicate SEALED_CONTACT_BYTES 0 = [] ++ List.replicate PUBLIC_KEY_BYTES 0 ++
      (nonceRoom ++ bodyRoom) := by decide
  have hfirst : ∀ out, setBytes (List.replicate SEALED_CONTACT_BYTES 0) raw 0 = .ok out ↔
      raw ++ nonceRoom ++ bodyRoom = out := by
    intro out
    rw [hzeros, setBytes_mid List.length_nil (List.length_replicate.trans hraw.symm), List.nil_append, List.append_assoc]
  have hsecond : ∀ out, setBytes (raw ++ nonceRoom ++ bodyRoom) iv PUBLIC_KEY_BYTES = .ok out ↔
      raw ++ iv ++ bodyRoom = out := fun out => setBytes_mid hraw (List.length_replicate.trans hiv.symm)
  have hlast : setBytes (raw ++ iv ++ bodyRoom) body (PUBLIC_KEY_BYTES + IV_BYTES) = .ok sealed ↔
      raw ++ iv ++ body = sealed := by
    have hmid : setBytes (raw ++ iv ++ bodyRoom ++ []) body (PUBLIC_KEY_BYTES + IV_BYTES) = .ok sealed ↔
        raw ++ iv ++ body ++ [] = sealed :=
      setBytes_mid (by rw [List.length_append, hraw, hiv]) (List.length_replicate.trans hbody.symm)
    rwa [List.append_nil, List.append_nil] at hmid
  simp only [hfirst, hsecond, hlast, exists_eq_left']

lemma sealContact_eq_ok (h : crypto.Standard) (hiv : iv.length = IV_BYTES) {sealed : Bytes} :
    sealContact crypto (sellerKey crypto seller) (Utf16.encode text) ephemeral iv = .ok sealed ↔
      (Utf8.encode text).length < MAX_CONTACT_BYTES ∧
      ∃ shared, crypto.deriveKey (crypto.publicOf seller) ephemeral = .ok shared ∧
        crypto.exportRaw (crypto.publicOf ephemeral) ++ iv ++ crypto.encrypt shared iv (padText (Utf8.encode text)) =
          sealed := by
  have hkey : b64urlDecode (sellerKey crypto seller) = some (crypto.exportRaw (crypto.publicOf seller)) := by
    rw [sellerKey, b64urlEncode_eq (h.exportRaw_lt _), b64urlDecode_encode (h.exportRaw_lt _)]
  have hraw := h.exportRaw_length (crypto.publicOf ephemeral)
  simp only [sealContact, bind_eq_ok, require_eq_ok, expect_eq_ok, exists_const, textEncode_encode, hkey,
    Option.some.injEq, exists_eq_left', h.importRaw_exportRaw, Except.ok.injEq, pad_eq_ok]
  constructor
  · rintro ⟨-, shared, hshared, padded, ⟨hroom, rfl⟩, hframe⟩
    have hslice : slice (padText (Utf8.encode text)) 0 MAX_CONTACT_BYTES = padText (Utf8.encode text) := by
      rw [slice, List.drop_zero, Nat.sub_zero, List.take_of_length_le (padText_length hroom).le]
    rw [hslice, frame_eq_ok hraw hiv (by rw [h.encrypt_length, padText_length hroom])] at hframe
    exact ⟨hroom, shared, hshared, hframe⟩
  · rintro ⟨hroom, shared, hshared, hframe⟩
    have hslice : slice (padText (Utf8.encode text)) 0 MAX_CONTACT_BYTES = padText (Utf8.encode text) := by
      rw [slice, List.drop_zero, Nat.sub_zero, List.take_of_length_le (padText_length hroom).le]
    refine ⟨hroom.le, shared, hshared, _, ⟨hroom, rfl⟩, ?_⟩
    rw [hslice, frame_eq_ok hraw hiv (by rw [h.encrypt_length, padText_length hroom])]
    exact hframe

lemma tryCatch_eq_ok {ε α : Type} {x : Except ε α} {f : ε → Except ε α} {a : α} :
    tryCatch x f = .ok a ↔ x = .ok a ∨ ∃ e, x = .error e ∧ f e = .ok a := by
  cases x with
  | ok b => simp [tryCatch, tryCatchThe, MonadExceptOf.tryCatch, Except.tryCatch]
  | error e => simp [tryCatch, tryCatchThe, MonadExceptOf.tryCatch, Except.tryCatch]

lemma tryOpen_frame (h : crypto.Standard) (hiv : iv.length = IV_BYTES) {shared : Key}
    (hshared : crypto.deriveKey (crypto.publicOf ephemeral) seller = .ok shared) (padded : Bytes) :
    tryOpen crypto (crypto.exportJwk seller)
      (crypto.exportRaw (crypto.publicOf ephemeral) ++ iv ++ crypto.encrypt shared iv padded) =
    if padded.getD 0 0 = 0 ∨ MAX_CONTACT_BYTES - 1 < padded.getD 0 0 then return none
    else do
      let text ← expect (Utf8.decodeUnmarked (slice padded 1 (1 + padded.getD 0 0)))
        "TypeError: The encoded data was not valid"
      return some (Utf16.encode text) := by
  have hraw := h.exportRaw_length (crypto.publicOf ephemeral)
  let raw := crypto.exportRaw (crypto.publicOf ephemeral)
  let body := crypto.encrypt shared iv padded
  have hkey : slice (raw ++ iv ++ body) 0 PUBLIC_KEY_BYTES = raw := by
    have hfront : slice ([] ++ raw ++ (iv ++ body)) 0 PUBLIC_KEY_BYTES = raw :=
      slice_append rfl (by rw [Nat.zero_add]; exact hraw)
    rwa [List.nil_append, ← List.append_assoc] at hfront
  have hnonce : slice (raw ++ iv ++ body) PUBLIC_KEY_BYTES (PUBLIC_KEY_BYTES + IV_BYTES) = iv :=
    slice_append hraw (by rw [hiv])
  have hbody : (raw ++ iv ++ body).drop (PUBLIC_KEY_BYTES + IV_BYTES) = body :=
    List.drop_left' (by rw [List.length_append, hraw, hiv])
  rw [tryOpen, h.importJwk_exportJwk, hkey, hnonce, hbody]
  simp only [raw, body, bind, Except.bind, h.importRaw_exportRaw, hshared, h.decrypt_encrypt]

lemma slice_padText {plain : Bytes} : slice (padText plain) 1 (1 + plain.length) = plain := by
  rw [slice, Nat.add_sub_cancel_left]
  exact List.take_left

lemma openContact_sealed (h : crypto.Standard) (hiv : iv.length = IV_BYTES) {sealed : Bytes}
    (hsealed : sealContact crypto (sellerKey crypto seller) (Utf16.encode text) ephemeral iv = .ok sealed)
    (hsome : text ≠ []) : sealed.length = SEALED_CONTACT_BYTES ∧
      openContact crypto (crypto.exportJwk seller) sealed = .ok (some (Utf16.encode (Utf8.dropBom text))) := by
  obtain ⟨hroom, shared, hshared, rfl⟩ := (sealContact_eq_ok h hiv).mp hsealed
  obtain ⟨shared', hmine, htheirs⟩ := h.agreement ephemeral seller
  obtain rfl : shared = shared' := Except.ok.inj (hshared.symm.trans htheirs)
  have hlength : (crypto.exportRaw (crypto.publicOf ephemeral) ++ iv ++
      crypto.encrypt shared iv (padText (Utf8.encode text))).length = SEALED_CONTACT_BYTES := by
    rw [List.length_append, List.length_append, h.exportRaw_length, hiv, h.encrypt_length, padText_length hroom]
    rfl
  have hne : (Utf8.encode text).length ≠ 0 := by
    cases text with
    | nil => exact absurd rfl hsome
    | cons c rest =>
      rw [Utf8.encode_cons, List.length_append]
      have := List.length_pos_iff.mpr (Utf8.encodeChar_ne_nil c)
      omega
  have hfirst : (padText (Utf8.encode text)).getD 0 0 = (Utf8.encode text).length := rfl
  refine ⟨hlength, ?_⟩
  rw [openContact, if_neg (not_not_intro hlength), tryCatch_eq_ok, tryOpen_frame h hiv hmine, hfirst, slice_padText,
    if_neg (by omega), Utf8.decodeUnmarked_eq, Utf8.decode_encode]
  exact .inl rfl

lemma tryOpen_fits {privateKey : Jwk} {sealed : Bytes} {opened : JsString}
    (h : tryOpen crypto privateKey sealed = .ok (some opened)) :
    ∃ text, opened = Utf16.encode text ∧ (Utf8.encode text).length < MAX_CONTACT_BYTES := by
  simp only [tryOpen, bind_eq_ok] at h
  obtain ⟨mine, -, theirs, -, shared, -, padded, -, h⟩ := h
  split_ifs at h with hlen
  · cases h
  · rw [not_or, not_lt] at hlen
    simp only [bind_eq_ok, expect_eq_ok, pure_eq_ok, Option.some.injEq] at h
    obtain ⟨text, htext, rfl⟩ := h
    refine ⟨text, rfl, ?_⟩
    rw [Utf8.decodeUnmarked_eq, Option.map_eq_some_iff] at htext
    obtain ⟨whole, hwhole, rfl⟩ := htext
    have hshort : (Utf8.encode whole).length ≤ MAX_CONTACT_BYTES - 1 := by
      rw [← Utf8.decode_eq_some.mp hwhole, slice, List.length_take]
      omega
    have hdrop := Utf8.encode_dropBom_le whole
    unfold MAX_CONTACT_BYTES at *
    omega

lemma sealContact_succeeds (h : crypto.Standard) (hiv : iv.length = IV_BYTES)
    (hroom : (Utf8.encode text).length < MAX_CONTACT_BYTES) :
    ∃ sealed, sealContact crypto (sellerKey crypto seller) (Utf16.encode text) ephemeral iv = .ok sealed := by
  obtain ⟨shared, hshared, -⟩ := h.agreement seller ephemeral
  exact ⟨_, (sealContact_eq_ok h hiv).mpr ⟨hroom, shared, hshared, rfl⟩⟩

lemma openContact_total (privateKey : Jwk) (sealed : Bytes) : ∃ opened, openContact crypto privateKey sealed = .ok opened ∧
    ∀ t ∈ opened, tryOpen crypto privateKey sealed = .ok (some t) := by
  unfold openContact
  split_ifs with hlength
  · exact ⟨none, rfl, fun t ht => by cases ht⟩
  · simp only [tryCatch_eq_ok]
    cases hopen : tryOpen crypto privateKey sealed with
    | ok opened => exact ⟨opened, .inl rfl, fun t ht => by rw [Option.mem_def.mp ht]⟩
    | error e => exact ⟨none, .inr ⟨e, rfl, rfl⟩, fun t ht => by cases ht⟩

/-- A contact is kept exactly when it leaves room for its length and has no leading mark; opening never fails. -/
theorem contact_kept_iff (h : crypto.Standard) :
    (∀ (seller ephemeral : PrivateKey) (iv : Bytes) (text : Text), iv.length = IV_BYTES →
      1 ≤ (Utf8.encode text).length → (Utf8.encode text).length ≤ MAX_CONTACT_BYTES →
      ((∃ sealed, sealContact crypto (sellerKey crypto seller) (Utf16.encode text) ephemeral iv = .ok sealed ∧
        sealed.length = SEALED_CONTACT_BYTES ∧
        openContact crypto (crypto.exportJwk seller) sealed = .ok (some (Utf16.encode text))) ↔
      (Utf8.encode text).length < MAX_CONTACT_BYTES ∧ ¬Marked (Utf16.encode text))) ∧
    ∀ (privateKey : Jwk) (sealed : Bytes), ∃ opened, openContact crypto privateKey sealed = .ok opened ∧
      ∀ t ∈ opened, ∀ (seller ephemeral : PrivateKey) (iv : Bytes), iv.length = IV_BYTES →
        ∃ resealed, sealContact crypto (sellerKey crypto seller) t ephemeral iv = .ok resealed := by
  constructor
  · intro seller ephemeral iv text hiv hpos hmax
    have hsome : text ≠ [] := by
      rintro rfl
      exact absurd hpos (by decide)
    rw [marked_encode, ← Ne, ← Utf8.dropBom_eq_self]
    constructor
    · rintro ⟨sealed, hsealed, -, hopened⟩
      refine ⟨((sealContact_eq_ok h hiv).mp hsealed).1, ?_⟩
      rw [(openContact_sealed h hiv hsealed hsome).2] at hopened
      exact Utf16.encode_injective (Option.some.inj (Except.ok.inj hopened))
    · rintro ⟨hroom, hunmarked⟩
      obtain ⟨sealed, hsealed⟩ := sealContact_succeeds h hiv hroom
      obtain ⟨hlength, hopened⟩ := openContact_sealed h hiv hsealed hsome
      rw [hunmarked] at hopened
      exact ⟨sealed, hsealed, hlength, hopened⟩
  · intro privateKey sealed
    obtain ⟨opened, hopened, htext⟩ := openContact_total privateKey sealed
    refine ⟨opened, hopened, fun t ht seller ephemeral iv hiv => ?_⟩
    obtain ⟨text, rfl, hroom⟩ := tryOpen_fits (htext t ht)
    exact sealContact_succeeds h hiv hroom

/-- Keys are bytes that agree by their product, and the tag repeats the shared key. -/
def sampleCrypto : WebCrypto (Fin 256) (Fin 256) (Fin 256) (Fin 256) where
  publicOf k := k
  exportRaw k := k.val :: List.replicate 64 4
  exportJwk k := k
  importRaw raw := expect (raw.head?.map (Fin.ofNat 256)) "DataError"
  importJwk k := .ok k
  deriveKey a b := .ok (a * b)
  encrypt shared _ data := data ++ List.replicate TAG_BYTES shared.val
  decrypt shared _ data := do
    let cut := data.length - TAG_BYTES
    require (data.drop cut = List.replicate TAG_BYTES shared.val) "OperationError"
    return data.take cut

lemma sampleCrypto_standard : sampleCrypto.Standard where
  exportRaw_length _ := rfl
  exportRaw_lt k b hb := by
    rcases List.mem_cons.mp hb with rfl | hb
    · exact k.isLt
    · exact lt_of_eq_of_lt (List.eq_of_mem_replicate hb) (by decide)
  importRaw_exportRaw k := by
    show Except.ok (Fin.ofNat 256 k.val) = .ok k
    rw [Fin.ofNat_val_eq_self]
  importJwk_exportJwk _ := rfl
  agreement a b := ⟨a * b, rfl, by rw [mul_comm]; rfl⟩
  encrypt_length shared _ data := by
    rw [sampleCrypto, List.length_append, List.length_replicate]
  decrypt_encrypt shared iv data := by
    have hcut : (data ++ List.replicate TAG_BYTES shared.val).length - TAG_BYTES = data.length := by
      rw [List.length_append, List.length_replicate, Nat.add_sub_cancel]
    simp only [sampleCrypto, hcut, List.drop_left, List.take_left, require, if_true]
    rfl

theorem short_contact_kept :
    ∃ sealed, sealContact sampleCrypto (sellerKey sampleCrypto 7) (Utf16.encode ['a', 'n', 'a']) 9
        (List.replicate 12 1) = .ok sealed ∧ sealed.length = SEALED_CONTACT_BYTES ∧
      openContact sampleCrypto 7 sealed = .ok (some (Utf16.encode ['a', 'n', 'a'])) :=
  ((contact_kept_iff sampleCrypto_standard).1 7 9 (List.replicate 12 1) ['a', 'n', 'a'] rfl (by decide) (by decide)).mpr
    ⟨by decide, by decide⟩

/-- Sixty-four bytes are admitted and then do not fit after their length; a leading mark is lost. -/
theorem full_contact_refused :
    sealContact sampleCrypto (sellerKey sampleCrypto 7) (Utf16.encode (List.replicate MAX_CONTACT_BYTES 'x')) 9
        (List.replicate 12 1) = .error "RangeError: offset is out of bounds" ∧
      ∃ sealed, sealContact sampleCrypto (sellerKey sampleCrypto 7) (Utf16.encode ['\uFEFF', 'a']) 9
          (List.replicate 12 1) = .ok sealed ∧
        openContact sampleCrypto 7 sealed = .ok (some (Utf16.encode ['a'])) := by
  have hread : (fun x => openContact sampleCrypto 7 x) <$> (sealContact sampleCrypto (sellerKey sampleCrypto 7)
      (Utf16.encode ['\uFEFF', 'a']) 9 (List.replicate 12 1)) = .ok (.ok (some (Utf16.encode ['a']))) := by
    decide +kernel
  exact ⟨by decide +kernel, map_eq_ok.mp hread⟩

end Peal.Live
