import Peal.Actions.CanonicalTexts
import Peal.Actions.Receipt
import Peal.Library.TextDecoder

namespace Peal.Actions.Serialisation
open Peal.Fallible Peal.Doubles Peal.JsRender
open Peal.Links (Text Bytes)

/-! # Payloads as they are sealed -/

def PAYLOAD_VERSION : ℚ := 1

/-- A property of a value that is an object; no array has one of a payload's. -/
def field (v : JsValue) (key : String) : JsValue :=
  match v with
  | .obj fields => lookup fields (units key)
  | .classInstance fields => lookup fields (units key)
  | _ => .undefined

/-! ### What the fields are checked for -/

def isObject : JsValue → Bool
  | .arr _ => true
  | .obj _ => true
  | .classInstance _ => true
  | _ => false

def isNumber (q : ℚ) : JsValue → Bool
  | .num (.finite r _) => r == q
  | .negativeZero => q == 0
  | _ => false

def isText (s : String) : JsValue → Bool
  | .str t => t == units s
  | _ => false

def isString : JsValue → Bool
  | .str _ => true
  | _ => false

def isCount : JsValue → Bool
  | .num x => x.isInteger && 0 ≤ x.whole
  | .negativeZero => true
  | _ => false

def isDigitUnit (u : UInt16) : Bool := 48 ≤ u && u ≤ 57

def isHexUnit (u : UInt16) : Bool := isDigitUnit u || (97 ≤ u && u ≤ 102) || (65 ≤ u && u ≤ 70)

def isAddressText : JsValue → Bool
  | .str (48 :: 120 :: digits) => digits.length == 40 && digits.all isHexUnit
  | _ => false

def isUint : JsValue → Bool
  | .str s => !s.isEmpty && s.all isDigitUnit
  | _ => false

/-- `BigInt` of digits. -/
def bigIntOf (digits : JsText) : Nat := digits.foldl (fun n u => 10 * n + (u.toNat - 48)) 0

def isZero : JsValue → Bool
  | .str s => bigIntOf s == 0
  | _ => false

/-- `some` passes over a hole. -/
def isStringArray : JsValue → Bool
  | .arr items => items.all fun item => (item.map isString).getD true
  | _ => false

def isBoolean : JsValue → Bool
  | .bool _ => true
  | _ => false

/-- An array is an object as well, and is refused by itself. -/
def isRecord : JsValue → Bool
  | .obj _ => true
  | .classInstance _ => true
  | _ => false

def entries : JsValue → List (JsText × JsValue)
  | .obj fields => fields
  | .classInstance fields => fields
  | _ => []

def isUndefined : JsValue → Bool
  | .undefined => true
  | _ => false

def bad {α : Type} (msg : JsText) : Except JsText α := .error (units "invalid intent payload: " ++ msg)

/-- What a check that fails says may itself not be shown. -/
def check (passes : Bool) (msg : Except JsText JsText) : Except JsText Unit := if passes then .ok () else msg.bind bad

def checkAll (p : JsValue) (passes : JsValue → Bool) (message : String) (keys : List String) : Except JsText Unit :=
  keys.forM fun key => check (passes (field p key)) (.ok (units key ++ units message))

section Payloads

-- `String` of a value, which may throw.
variable (shown : JsValue → Except JsText JsText)

def validatePayload (p : JsValue) : Except JsText JsValue := do
  check (isObject p) (.ok (units "not an object"))
  check (isNumber PAYLOAD_VERSION (field p "payloadVersion"))
    ((shown (field p "payloadVersion")).map (units "unsupported payloadVersion " ++ ·))
  check (isText "swap" (field p "actionType")) ((shown (field p "actionType")).map (units "unsupported actionType " ++ ·))
  checkAll p isCount " must be a non-negative integer" ["originChainId", "destinationChainId", "deadline"]
  checkAll p isAddressText " must be an address" ["sellToken", "buyToken", "recipient", "refundAddress"]
  checkAll p isUint " must be a decimal uint string" ["sellAmount", "minimumBuyAmount", "maximumFee"]
  check (!isZero (field p "sellAmount")) (.ok (units "sellAmount must be non-zero"))
  checkAll p isStringArray " must be a string array" ["preferredAdapters", "excludedAdapters"]
  checkAll p isBoolean " must be a boolean" ["allowPartialFill", "privateSubmissionRequired"]
  let metadata := field p "agentMetadata"
  check (isUndefined metadata || isRecord metadata) (.ok (units "agentMetadata must be an object"))
  check (isUndefined metadata || (entries metadata).all fun e => isString e.2)
    (.ok (units "agentMetadata values must be strings"))
  return p

def encodePayload (p : JsValue) : Except JsText (List Nat) := (canonicalize p).map Utf8.encode

def decodePayload (bytes : List Nat) : Except JsText JsValue :=
  match JsJson.parse (TextDecoder.decode bytes) with
  | some w => validatePayload shown (ofJson w)
  | none => .error (units "SyntaxError")

def payloadHash (p : JsValue) : Except JsText Text := (encodePayload p).map sha256Hex

end Payloads

/-! ### What is accepted -/

/-- Every check of a payload passes. -/
structure Accepted (p : JsValue) : Prop where
  object : isObject p = true
  version : isNumber PAYLOAD_VERSION (field p "payloadVersion") = true
  action : isText "swap" (field p "actionType") = true
  counts : ∀ key ∈ ["originChainId", "destinationChainId", "deadline"], isCount (field p key) = true
  addresses : ∀ key ∈ ["sellToken", "buyToken", "recipient", "refundAddress"], isAddressText (field p key) = true
  amounts : ∀ key ∈ ["sellAmount", "minimumBuyAmount", "maximumFee"], isUint (field p key) = true
  nonzero : isZero (field p "sellAmount") = false
  adapters : ∀ key ∈ ["preferredAdapters", "excludedAdapters"], isStringArray (field p key) = true
  switches : ∀ key ∈ ["allowPartialFill", "privateSubmissionRequired"], isBoolean (field p key) = true
  metadata : field p "agentMetadata" = .undefined ∨ isRecord (field p "agentMetadata") = true ∧
    ∀ e ∈ entries (field p "agentMetadata"), isString e.2 = true

section Checks

variable {shown : JsValue → Except JsText JsText} {p p' x y : JsValue}

@[simp] lemma check_eq_ok {passes : Bool} {msg : Except JsText JsText} {u : Unit} :
    check passes msg = .ok u ↔ passes = true := by
  cases passes
  · cases msg <;> simp [check, bad, Except.bind]
  · simp [check]

@[simp] lemma checkAll_eq_ok {passes : JsValue → Bool} {message : String} {keys : List String} {u : Unit} :
    checkAll p passes message keys = .ok u ↔ ∀ key ∈ keys, passes (field p key) = true := by
  induction keys with
  | nil => simp [checkAll]
  | cons key keys ih =>
    rw [checkAll] at ih
    rw [checkAll, List.forM_eq_forM, List.forM_cons, bind_eq_ok, List.forall_mem_cons]
    simp only [check_eq_ok, List.forM_eq_forM] at ih ⊢
    rw [ih]
    simp

lemma isUndefined_iff : isUndefined x = true ↔ x = .undefined := by
  cases x <;> simp [isUndefined]

lemma validatePayload_eq_ok : validatePayload shown p = .ok p' ↔ p = p' ∧ Accepted p := by
  simp only [validatePayload, bind_eq_ok, check_eq_ok, checkAll_eq_ok, pure_eq_ok, Bool.or_eq_true, Bool.not_eq_true',
    isUndefined_iff, List.all_eq_true]
  constructor
  · rintro ⟨-, hobject, -, hversion, -, haction, -, hcounts, -, haddresses, -, hamounts, -, hnonzero, -, hadapters, -,
      hswitches, -, hrecord, -, hentries, rfl⟩
    refine ⟨rfl, hobject, hversion, haction, hcounts, haddresses, hamounts, hnonzero, hadapters, hswitches, ?_⟩
    rcases hrecord with hrecord | hrecord
    · exact .inl hrecord
    · rcases hentries with hentries | hentries
      · exact .inl hentries
      · exact .inr ⟨hrecord, hentries⟩
  · rintro ⟨rfl, h⟩
    exact ⟨(), h.object, (), h.version, (), h.action, (), h.counts, (), h.addresses, (), h.amounts, (), h.nonzero, (),
      h.adapters, (), h.switches, (), h.metadata.imp_right And.left, (), h.metadata.imp_right And.right, rfl⟩

end Checks

section Alike

variable {p q x y : JsValue} {w : JsJson.Value}

lemma field_alike (h : Alike p q) (key : String) : Alike (field p key) (field q key) := by
  cases h with
  | obj same => exact same _
  | classInstance same => exact same _
  | _ => exact .undefined

lemma ofRat_zero : ∃ h, Double.ofRat 0 = .finite 0 h := by
  have hzero : IsDouble 0 := by exact_mod_cast isDouble_intCast (n := 0) (by decide)
  exact ⟨hzero, Double.ofRat_of_nearest hzero hzero.exact⟩

lemma isObject_alike (h : Alike x y) (hx : isObject x = true) : isObject y = true := by
  cases h <;> exact hx

lemma isNumber_alike {r : ℚ} (h : Alike x y) (hx : isNumber r x = true) : isNumber r y = true := by
  obtain ⟨hzero, heq⟩ := ofRat_zero
  cases h with
  | zeros h =>
    rw [h, heq] at hx
    exact beq_iff_eq.mpr (beq_iff_eq.mp hx).symm
  | zeros' h =>
    rw [h, heq]
    exact beq_iff_eq.mpr (beq_iff_eq.mp hx).symm
  | num => exact hx
  | negativeZero => exact hx
  | _ => cases hx

lemma isText_alike {s : String} (h : Alike x y) (hx : isText s x = true) : isText s y = true := by
  cases h <;> exact hx

lemma isString_alike (h : Alike x y) (hx : isString x = true) : isString y = true := by
  cases h <;> exact hx

lemma isCount_alike (h : Alike x y) (hx : isCount x = true) : isCount y = true := by
  obtain ⟨hzero, heq⟩ := ofRat_zero
  cases h with
  | zeros h => rfl
  | zeros' h =>
    rw [h, heq]
    rfl
  | num => exact hx
  | negativeZero => exact hx
  | _ => cases hx

lemma isAddressText_alike (h : Alike x y) (hx : isAddressText x = true) : isAddressText y = true := by
  cases h <;> exact hx

lemma isUint_alike (h : Alike x y) (hx : isUint x = true) : isUint y = true := by
  cases h <;> exact hx

lemma isZero_alike (h : Alike x y) (hx : isZero x = false) : isZero y = false := by
  cases h <;> exact hx

lemma isBoolean_alike (h : Alike x y) (hx : isBoolean x = true) : isBoolean y = true := by
  cases h <;> exact hx

lemma isStringArray_iff {items : List (Option JsValue)} :
    isStringArray (.arr items) = true ↔ ∀ x, some x ∈ items → isString x = true := by
  rw [isStringArray, List.all_eq_true]
  constructor
  · exact fun h x hx => h _ hx
  · intro h item hitem
    cases item with
    | none => rfl
    | some x => exact h x hitem

lemma isStringArray_alike (h : Alike x y) (hx : isStringArray x = true) : isStringArray y = true := by
  cases h with
  | arr length holes same =>
    rw [isStringArray_iff] at hx ⊢
    intro u hu
    obtain ⟨i, hi⟩ := List.mem_iff_getElem?.mp hu
    have hlt := (List.getElem?_eq_some_iff.mp hi).1
    rw [← length] at hlt
    have hget := List.getElem?_eq_getElem hlt
    cases hitem : (_ : List (Option JsValue))[i] with
    | none =>
      rw [hitem] at hget
      rw [(holes i).mp hget] at hi
      cases hi
    | some v =>
      rw [hitem] at hget
      exact isString_alike (same i v u hget hi) (hx v (List.mem_of_getElem? hget))
  | _ => cases hx

lemma isRecord_alike (h : Alike x y) (hx : isRecord x = true) : isRecord y = true := by
  cases h <;> exact hx

lemma entries_alike (h : Alike x y) (hplain : Plain y) (hx : ∀ e ∈ entries x, isString e.2 = true)
    (hdefined : ∀ e ∈ entries y, e.2 ≠ .undefined) : ∀ e ∈ entries y, isString e.2 = true := by
  have hfields : ∀ {fields fields' : List (JsText × JsValue)}, (∀ key, Alike (lookup fields key) (lookup fields' key)) →
      (fields'.map Prod.fst).Nodup → (∀ e ∈ fields, isString e.2 = true) → (∀ e ∈ fields', e.2 ≠ .undefined) →
      ∀ e ∈ fields', isString e.2 = true := by
    rintro fields fields' same hkeys hstrings hne ⟨key, value⟩ he
    have hvalue := lookup_of_mem hkeys he
    have hsame := same key
    rw [hvalue] at hsame
    have hlisted := mem_of_lookup ((alike_undefined hsame).not.mpr (hne _ he))
    exact isString_alike hsame (hstrings _ hlisted)
  cases h with
  | obj same => exact hfields same hplain.1 hx hdefined
  | classInstance same => exact hfields same hplain.1 hx hdefined
  | _ => exact fun e he => (nomatch he)

lemma ofFields_mem {l : List (JsText × JsJson.Value)} {e : JsText × JsValue} (h : e ∈ ofFields l) :
    ∃ u, e.2 = ofJson u := by
  induction l with
  | nil => rw [ofFields] at h; cases h
  | cons f l ih =>
    rw [ofFields] at h
    split_ifs at h with hf
    · exact ih h
    · rcases List.mem_cons.mp h with rfl | hrest
      · exact ⟨f.2, by rw [ofField]⟩
      · exact ih hrest

lemma field_ofJson (w : JsJson.Value) (key : String) : field (ofJson w) key = .undefined ∨
    ∃ u, field (ofJson w) key = ofJson u := by
  by_cases h : field (ofJson w) key = .undefined
  · exact .inl h
  · cases w with
    | obj fields =>
      rw [ofJson, field] at h ⊢
      exact .inr (ofFields_mem (mem_of_lookup h))
    | _ => exact absurd (by simp [ofJson, field]) h

lemma entries_ofJson {u : JsJson.Value} {e : JsText × JsValue} (h : e ∈ entries (ofJson u)) : e.2 ≠ .undefined := by
  cases u with
  | obj fields =>
    rw [ofJson, entries] at h
    obtain ⟨u, hu⟩ := ofFields_mem h
    rw [hu]
    exact ofJson_defined u
  | _ => simp [ofJson, entries] at h

lemma accepted_ofJson (hp : Accepted p) (h : Alike p (ofJson w)) : Accepted (ofJson w) where
  object := isObject_alike h hp.object
  version := isNumber_alike (field_alike h _) hp.version
  action := isText_alike (field_alike h _) hp.action
  counts key hkey := isCount_alike (field_alike h key) (hp.counts key hkey)
  addresses key hkey := isAddressText_alike (field_alike h key) (hp.addresses key hkey)
  amounts key hkey := isUint_alike (field_alike h key) (hp.amounts key hkey)
  nonzero := isZero_alike (field_alike h _) hp.nonzero
  adapters key hkey := isStringArray_alike (field_alike h key) (hp.adapters key hkey)
  switches key hkey := isBoolean_alike (field_alike h key) (hp.switches key hkey)
  metadata := by
    have hsame := field_alike h "agentMetadata"
    rcases field_ofJson w "agentMetadata" with hnone | ⟨u, hu⟩
    · exact .inl hnone
    · rw [hu] at hsame ⊢
      have hne := (alike_undefined hsame).not.mpr (ofJson_defined u)
      obtain ⟨hrecord, hstrings⟩ := hp.metadata.resolve_left hne
      exact .inr ⟨isRecord_alike hsame hrecord, entries_alike hsame (plain_ofJson u) hstrings fun e => entries_ofJson⟩

end Alike

/-! ### The round trip -/

section Sealing

variable {shown : JsValue → Except JsText JsText} {p q : JsValue} {bytes : List Nat}

/-- A payload comes back from its bytes, and its hash is theirs. -/
def Kept (shown : JsValue → Except JsText JsText) (p : JsValue) : Prop :=
  ∃ bytes q, encodePayload p = .ok bytes ∧ decodePayload shown bytes = .ok q ∧ Alike q p ∧
    payloadHash p = .ok (sha256Hex bytes)

lemma encodePayload_eq_ok : encodePayload p = .ok bytes ↔ ∃ text, canonicalize p = .ok text ∧ Utf8.encode text = bytes :=
  exceptMap_eq_ok

lemma decodePayload_eq_ok : decodePayload shown bytes = .ok q ↔
    ∃ w, JsJson.parse (TextDecoder.decode bytes) = some w ∧ q = ofJson w ∧ Accepted (ofJson w) := by
  unfold decodePayload
  cases JsJson.parse (TextDecoder.decode bytes) with
  | none => simp
  | some w =>
    simp only [validatePayload_eq_ok, Option.some.injEq]
    exact ⟨fun ⟨hq, hw⟩ => ⟨w, rfl, hq.symm, hw⟩, fun ⟨u, hu, hq, hw⟩ => hu ▸ ⟨hq.symm, hu ▸ hw⟩⟩

lemma render_unmarked (hp : Accepted p) {w : JsJson.Value} (h : normal p = some w) : Utf8.dropBom (render w) = render w := by
  have hrecord : ∃ fields, p = .obj fields := by
    have hversion := hp.version
    cases p with
    | obj fields => exact ⟨fields, rfl⟩
    | classInstance fields => cases h
    | _ => simp [field, isNumber] at hversion
  obtain ⟨fields, rfl⟩ := hrecord
  rw [normal, Option.map_eq_some_iff] at h
  obtain ⟨l, -, rfl⟩ := h
  rw [render, Utf8.dropBom.eq_def]
  exact if_neg (by decide)

lemma kept_iff (hplain : Plain p) (hp : Accepted p) : Kept shown p ↔ refused p = false ∧ sparse p = false := by
  constructor
  · rintro ⟨bytes, q, hencode, hdecode, halike, -⟩
    obtain ⟨text, htext, -⟩ := encodePayload_eq_ok.mp hencode
    obtain ⟨w, -, rfl, -⟩ := decodePayload_eq_ok.mp hdecode
    refine ⟨(enc_isOk p (units "$")).mp ⟨text, htext⟩, Bool.eq_false_iff.mpr fun hsparse => ?_⟩
    have hread := alike_sparse halike hplain hsparse
    rw [sparse_ofJson] at hread
    cases hread
  · rintro ⟨hrefused, hsparse⟩
    obtain ⟨w, hw⟩ := (normal_isSome p).mpr ⟨hrefused, hsparse⟩
    obtain ⟨hfinite, henc⟩ := enc_normal p hw
    have hread := normal_ofJson p hw hplain
    have hforth := normal_alike p hw hread hplain (plain_ofJson w)
    have hencode : encodePayload p = .ok (Utf8.encode (render w)) := encodePayload_eq_ok.mpr ⟨_, henc _, rfl⟩
    refine ⟨_, ofJson w, hencode, ?_, normal_alike (ofJson w) hread hw (plain_ofJson w) hplain, ?_⟩
    · rw [decodePayload_eq_ok, TextDecoder.decode_encode, render_unmarked hp hw]
      exact ⟨w, parse_render hfinite, rfl, accepted_ofJson hp hforth⟩
    · rw [payloadHash, hencode]
      rfl

/-- What a payload is read back as is sealed to the same bytes. -/
theorem resealed (hplain : Plain p) (hp : Accepted p) (hsparse : sparse p = false)
    (hencode : encodePayload p = .ok bytes) (hdecode : decodePayload shown bytes = .ok q) :
    encodePayload q = .ok bytes := by
  obtain ⟨text, htext, rfl⟩ := encodePayload_eq_ok.mp hencode
  obtain ⟨w, hw, hfinite, rfl⟩ := canonicalize_normal hsparse htext
  obtain ⟨u, hparse, rfl, -⟩ := decodePayload_eq_ok.mp hdecode
  rw [TextDecoder.decode_encode, render_unmarked hp hw, parse_render hfinite, Option.some.injEq] at hparse
  subst hparse
  exact encodePayload_eq_ok.mpr ⟨_, (enc_normal _ (normal_ofJson p hw hplain)).2 _, rfl⟩

/-- Two values are each read back, and told apart by their texts, where no array in them has a hole; a payload that is
accepted comes back where moreover nothing in it is refused. -/
theorem texts_faithful_iff (v : JsValue) :
    (∀ v', Plain v → Plain v' →
      ((Faithful v ∧ Faithful v' ∧ ∀ text text', canonicalize v = .ok text → canonicalize v' = .ok text' →
        (text = text' ↔ Alike v v')) ↔ Fits v ∧ Fits v')) ∧
    ∀ shown p', Plain v → validatePayload shown v = .ok p' →
      (Kept shown v ↔ refused v = false ∧ sparse v = false) := by
  refine ⟨fun v' hplain hplain' => ⟨?_, ?_⟩, ?_⟩
  · rintro ⟨h, h', -⟩
    exact ⟨(faithful_iff hplain).mp h, (faithful_iff hplain').mp h'⟩
  · rintro ⟨h, h'⟩
    refine ⟨(faithful_iff hplain).mpr h, (faithful_iff hplain').mpr h', fun text text' htext htext' => ?_⟩
    have haccepted := (enc_isOk v (units "$")).mp ⟨text, htext⟩
    have haccepted' := (enc_isOk v' (units "$")).mp ⟨text', htext'⟩
    have hsparse := h.resolve_left (by rw [haccepted]; decide)
    have hsparse' := h'.resolve_left (by rw [haccepted']; decide)
    exact texts_eq_iff hplain hplain' hsparse hsparse' htext htext'
  · intro shown p' hplain hvalid
    exact kept_iff hplain (validatePayload_eq_ok.mp hvalid).2

end Sealing

/-! ### An array with a hole -/

lemma one_isDouble : IsDouble 1 := by exact_mod_cast isDouble_natCast (m := 1) (by decide)

def sampleAddress : JsValue := .str (units ("0x" ++ String.ofList (List.replicate 40 'a')))

def samplePayload (adapters : JsValue) : JsValue := .obj
  [(units "payloadVersion", .num (.finite 1 one_isDouble)), (units "actionType", .str (units "swap")),
    (units "originChainId", .num (.finite 1 one_isDouble)), (units "destinationChainId", .negativeZero),
    (units "deadline", .num (.finite 1 one_isDouble)), (units "sellToken", sampleAddress),
    (units "buyToken", sampleAddress), (units "recipient", sampleAddress), (units "refundAddress", sampleAddress),
    (units "sellAmount", .str (units "7")), (units "minimumBuyAmount", .str (units "0")),
    (units "maximumFee", .str (units "0")), (units "preferredAdapters", adapters),
    (units "excludedAdapters", .arr []), (units "allowPartialFill", .bool true),
    (units "privateSubmissionRequired", .bool false), (units "agentMetadata", .undefined)]

lemma samplePayload_plain {adapters : JsValue} (h : Plain adapters) : Plain (samplePayload adapters) := by
  rw [samplePayload, Plain, plainFields_iff]
  refine ⟨by simp only [List.map_cons, List.map_nil]; decide +kernel, ?_⟩
  simp only [List.forall_mem_cons, sampleAddress, Plain, PlainItems, h]
  simp

lemma samplePayload_accepted {adapters : JsValue} (h : isStringArray adapters = true) :
    Accepted (samplePayload adapters) := by
  have hadapters : field (samplePayload adapters) "preferredAdapters" = adapters := rfl
  have hexcluded : field (samplePayload adapters) "excludedAdapters" = .arr [] := rfl
  refine ⟨rfl, rfl, rfl, ?_, ?_, ?_, rfl, ?_, ?_, .inl rfl⟩
  · simp only [List.forall_mem_cons]
    exact ⟨rfl, rfl, rfl, by simp⟩
  · simp only [List.forall_mem_cons]
    exact ⟨rfl, rfl, rfl, rfl, by simp⟩
  · simp only [List.forall_mem_cons]
    exact ⟨rfl, rfl, rfl, by simp⟩
  · simp only [List.forall_mem_cons, hadapters, hexcluded]
    exact ⟨h, rfl, by simp⟩
  · simp only [List.forall_mem_cons]
    exact ⟨rfl, rfl, by simp⟩

theorem texts_faithful_iff_sample :
    Faithful (.arr [some .null]) ∧
      Kept (fun _ => .error []) (samplePayload (.arr [some (.str (units "zerox"))])) ∧
      ¬Kept (fun _ => .error []) (samplePayload (.arr [none])) := by
  refine ⟨?_, ?_, ?_⟩
  · have hfits := (texts_faithful_iff (.arr [some .null])).1 (.obj []) (by simp [Plain, PlainItems, PlainItem])
      (by simp [Plain, PlainFields])
    exact (hfits.mpr ⟨.inr rfl, .inr rfl⟩).1
  · exact ((texts_faithful_iff _).2 _ _ (samplePayload_plain (by simp [Plain, PlainItems, PlainItem]))
      (validatePayload_eq_ok.mpr ⟨rfl, samplePayload_accepted rfl⟩)).mpr ⟨rfl, rfl⟩
  · intro h
    have hsparse := (((texts_faithful_iff _).2 _ _ (samplePayload_plain (by simp [Plain, PlainItems, PlainItem]))
      (validatePayload_eq_ok.mpr ⟨rfl, samplePayload_accepted rfl⟩)).mp h).2
    cases hsparse

/-- An array of one hole is written as the empty one. -/
theorem hole_forgotten :
    canonicalize (.arr [none]) = .ok "[]".toList ∧ canonicalize (.arr []) = .ok "[]".toList ∧
      ¬Alike (.arr [none]) (.arr []) ∧ ¬Faithful (.arr [none]) ∧
      canonicalize (.arr [some (.bool true), none, some (.bool true)]) = .ok "[true,,true]".toList ∧
      (JsJson.parse "[true,,true]".toList).isNone = true := by
  have hplain : Plain (.arr [none]) := by simp [Plain, PlainItems, PlainItem]
  refine ⟨rfl, rfl, ?_, ?_, rfl, by decide +kernel⟩
  · rintro (_ | _)
    rename_i length _ _
    cases length
  · intro h
    have hfits := (faithful_iff hplain).mp h
    cases hfits with
    | inl hrefused => cases hrefused
    | inr hsparse => cases hsparse

end Peal.Actions.Serialisation
