import Peal.Live.PageTerms

open Peal.Coordinator (Text Bytes)
open Peal.Fallible Peal.JsJson

namespace Peal.Live.Page

/-! # Terms under a short name -/

def FORMAT_DEFLATE : Nat := 1

/-- The two streams of the browser, of which reading may fail. -/
structure Streams where
  canCompress : Bool
  deflate : Bytes → Bytes
  inflate : Bytes → Option Bytes

structure Streams.Lawful (streams : Streams) : Prop where
  inflate_deflate : ∀ x, (∀ b ∈ x, b < 256) → streams.inflate (streams.deflate x) = some x
  deflate_lt : ∀ x, (∀ b ∈ x, b < 256) → ∀ b ∈ streams.deflate x, b < 256
  inflate_lt : ∀ x raw, streams.inflate x = some raw → ∀ b ∈ raw, b < 256

section Page

variable (parseUrl : JsString → Option Url) (streams : Streams)

def toRegistryBytes (t : Terms) : Except String Bytes := do
  let raw ← canonicalTerms parseUrl t
  if !streams.canCompress then return raw
  let deflated := streams.deflate raw
  if raw.length ≤ deflated.length + 1 then return raw
  return FORMAT_DEFLATE :: deflated

def fromCanonical (bytes : Bytes) : Option Terms := unpackTerms parseUrl (Utf16.encode (b64urlEncode bytes))

/-- `String.fromCharCode` of each byte. -/
def latin1 (bytes : Bytes) : JsString := bytes.map UInt16.ofNat

def fromRegistryBytes : Bytes → Option Terms
  | [] => none
  | first :: rest =>
    if first = FORMAT_DEFLATE ∧ streams.canCompress then (streams.inflate rest).bind (fromCanonical parseUrl)
    else
      match fromCanonical parseUrl (first :: rest) with
      | some plain => some plain
      | none => unpackTerms parseUrl (latin1 (first :: rest))

/-! ### The shapes of an entry -/

inductive Shape where
  | deflated
  | plain
  | text
  deriving DecidableEq

/-- The bytes are those the terms are hashed as, and nothing of the terms is lost. -/
def Canonical (t : Terms) (bytes : Bytes) : Prop := canonicalTerms parseUrl t = .ok bytes ∧ normal t = t

/-- An entry holds terms in a shape. -/
def StoredAs (bytes : Bytes) (t : Terms) : Shape → Prop
  | .deflated => ∃ rest raw, bytes = FORMAT_DEFLATE :: rest ∧ streams.inflate rest = some raw ∧ Canonical parseUrl t raw
  | .plain => Canonical parseUrl t bytes
  | .text => ∃ raw, unb64 (latin1 bytes) = some raw ∧ dropSigns (latin1 bytes) = Utf16.encode (b64urlEncode raw) ∧
      Canonical parseUrl t raw

end Page

variable {parseUrl : JsString → Option Url} {streams : Streams} {t t' : Terms} {bytes raw : Bytes} {shape shape' : Shape}

lemma Canonical.bytes_eq (h : Canonical parseUrl t bytes) : bytes = Utf8.encode (stringify (wire t)) :=
  (canonicalTerms_eq_ok.mp h.1).2

lemma Canonical.lt (h : Canonical parseUrl t bytes) : ∀ b ∈ bytes, b < 256 := by
  rw [h.bytes_eq]
  exact Utf8.encode_lt _

lemma Canonical.pack (h : Canonical parseUrl t bytes) : packTerms parseUrl t = .ok (Utf16.encode (b64urlEncode bytes)) := by
  simp only [packTerms, h.1, bind, Except.bind, pure, Except.pure]

lemma stringify_cons (items : List Item) : ∃ rest, Utf8.encode (stringify items) = 0x5B :: rest := by
  refine ⟨Utf8.encode (itemsText items ++ [']']), ?_⟩
  rw [stringify, List.cons_append, Utf8.encode_cons, Json.encodeChar_ascii (show '['.toNat < 128 by decide)]
  exact List.singleton_append

lemma Canonical.cons (h : Canonical parseUrl t bytes) : ∃ rest, bytes = 0x5B :: rest := by
  rw [h.bytes_eq]
  exact stringify_cons (wire t)

lemma encodeUrl_injective {a b : Bytes} (ha : ∀ x ∈ a, x < 256) (hb : ∀ x ∈ b, x < 256)
    (h : Utf16.encode (b64urlEncode a) = Utf16.encode (b64urlEncode b)) : a = b := by
  have hback := unb64_encode ha
  rw [h, unb64_encode hb] at hback
  exact (Option.some.inj hback).symm

lemma readWire_normal {v : Value} (h : readWire v = some t) : normal t = t := by
  unfold readWire at h
  split at h
  · simp only [Option.bind_eq_bind, Option.bind_eq_some_iff, guard_eq_some, exists_const, Option.pure_def,
      Option.some.injEq] at h
    obtain ⟨_, -, -, _, -, _, -, _, -, _, -, _, -, _, -, _, -, _, -, _, -, _, -, rfl⟩ := h
    simp only [normal, trim_trim, Option.map_map, Function.comp_def, descriptionText_idem]
  · cases h

lemma unpackTerms_normal {packed : JsString} (h : unpackTerms parseUrl packed = some t) : normal t = t := by
  simp only [unpackTerms, Option.bind_eq_bind, Option.bind_eq_some_iff, toOption_eq_some, guard_eq_some, exists_const,
    Option.pure_def, Option.some.injEq] at h
  obtain ⟨_, -, _, -, terms, ⟨v, -, hread⟩, _, -, -, rfl⟩ := h
  exact readWire_normal hread

theorem fromCanonical_eq_some (hlt : ∀ b ∈ bytes, b < 256) :
    fromCanonical parseUrl bytes = some t ↔ Canonical parseUrl t bytes := by
  constructor
  · intro h
    have hpack := packTerms_unpackTerms h
    rw [dropSigns_encode hlt] at hpack
    simp only [packTerms, bind_eq_ok, pure_eq_ok] at hpack
    obtain ⟨raw, hraw, hsame⟩ := hpack
    have hrawLt : ∀ b ∈ raw, b < 256 := by
      rw [(canonicalTerms_eq_ok.mp hraw).2]
      exact Utf8.encode_lt _
    obtain rfl := encodeUrl_injective hrawLt hlt hsame
    exact ⟨hraw, unpackTerms_normal h⟩
  · intro h
    have hopen := unpackTerms_packTerms h.pack
    rwa [h.2] at hopen

lemma encode_signs (k : Nat) : Utf16.encode (List.replicate k '=') = List.replicate k 0x3D := by
  induction k with
  | zero => rfl
  | succ k ih =>
    rw [List.replicate_succ, List.replicate_succ, Utf16.encode_cons, ih]
    rfl

lemma signs_split {packed : JsString} (h : dropSigns packed = Utf16.encode (b64urlEncode raw)) :
    ∃ k, packed = Utf16.encode (b64urlEncode raw ++ List.replicate k '=') := by
  have hsplit := List.rdropWhile_append_rtakeWhile (p := fun u : UInt16 => decide (u = 0x3D)) (l := packed)
  have hsigns : packed.rtakeWhile (fun u : UInt16 => decide (u = 0x3D)) =
      List.replicate (packed.rtakeWhile fun u : UInt16 => decide (u = 0x3D)).length 0x3D := by
    refine List.eq_replicate_iff.mpr ⟨rfl, fun u hu => ?_⟩
    have hsign := List.mem_rtakeWhile_imp hu
    exact of_decide_eq_true hsign
  refine ⟨(packed.rtakeWhile fun u : UInt16 => decide (u = 0x3D)).length, ?_⟩
  rw [Utf16.encode_append, encode_signs, ← hsigns, ← h]
  exact hsplit.symm

lemma unb64_signs (hlt : ∀ b ∈ raw, b < 256) {packed : JsString} (h : dropSigns packed = Utf16.encode (b64urlEncode raw)) :
    unb64 packed = some raw ∨ unb64 packed = none := by
  obtain ⟨k, hk⟩ := signs_split h
  have hmap : (b64urlEncode raw ++ List.replicate k '=').map fromUrlSafe =
      Base64.encode Base64.standard raw ++ List.replicate k '=' := by
    rw [List.map_append, b64urlEncode_eq hlt, map_fromUrlSafe, List.map_replicate]
    rfl
  rw [hk, unb64, Utf16.decode_encode, b64urlDecode, hmap, Base64.padding, List.append_assoc, ← List.replicate_add]
  exact Base64.atob_signs hlt _

/-- A link opens exactly when it is the text of canonical bytes, with signs that its length allows. -/
theorem unpackTerms_eq_some {packed : JsString} : unpackTerms parseUrl packed = some t ↔
    ∃ raw, unb64 packed = some raw ∧ dropSigns packed = Utf16.encode (b64urlEncode raw) ∧ Canonical parseUrl t raw := by
  constructor
  · intro h
    have hpack := packTerms_unpackTerms h
    simp only [packTerms, bind_eq_ok, pure_eq_ok] at hpack
    obtain ⟨raw, hraw, hsame⟩ := hpack
    have hcanonical : Canonical parseUrl t raw := ⟨hraw, unpackTerms_normal h⟩
    refine ⟨raw, ?_, hsame.symm, hcanonical⟩
    refine (unb64_signs hcanonical.lt hsame.symm).resolve_right fun hnone => ?_
    simp only [unpackTerms, hnone, Option.bind_eq_bind, Option.bind_none] at h
    cases h
  · rintro ⟨raw, hread, hsame, h⟩
    have hopen := unpackTerms_packTerms h.pack
    rw [h.2] at hopen
    simp only [unpackTerms, unb64_encode h.lt, Option.bind_eq_bind, Option.bind_some, dropSigns_encode h.lt] at hopen
    simp only [unpackTerms, hread, Option.bind_eq_bind, Option.bind_some, hsame]
    exact hopen

/-! ### Telling the shapes apart -/

/-- The first byte of an entry shows its shape. -/
def Shape.first : Shape → Nat
  | .deflated => FORMAT_DEFLATE
  | .plain => 0x5B
  | .text => 0x57

lemma encode_head (a : Nat) (rest : Bytes) :
    (Base64.encode Base64.urlSafe (a :: rest)).head? = some (Base64.symbol Base64.urlSafe (a / 4)) := by
  match rest with
  | [] => rfl
  | [_] => rfl
  | _ :: _ :: _ => rfl

lemma Canonical.text_head (h : Canonical parseUrl t raw) :
    (Utf16.encode (b64urlEncode raw)).head? = some 0x57 := by
  obtain ⟨rest, hraw⟩ := h.cons
  have hhead := encode_head 0x5B rest
  rw [← hraw, ← b64urlEncode_eq h.lt] at hhead
  obtain ⟨tail, htail⟩ := List.head?_eq_some_iff.mp hhead
  rw [htail, Utf16.encode_cons]
  rfl

lemma dropSigns_begins (packed : JsString) : dropSigns packed <+: packed := List.rdropWhile_prefix _ packed

lemma StoredAs.head (h : StoredAs parseUrl streams bytes t shape) (hlt : ∀ b ∈ bytes, b < 256) :
    bytes.head? = some shape.first := by
  cases shape with
  | deflated =>
    obtain ⟨rest, raw, rfl, -, -⟩ := h
    rfl
  | plain =>
    obtain ⟨rest, rfl⟩ := Canonical.cons h
    rfl
  | text =>
    obtain ⟨raw, -, hsame, hraw⟩ := h
    have hhead := hraw.text_head
    rw [← hsame] at hhead
    obtain ⟨tail, htail⟩ := List.head?_eq_some_iff.mp hhead
    obtain ⟨more, hmore⟩ := dropSigns_begins (latin1 bytes)
    rw [htail, List.cons_append] at hmore
    cases bytes with
    | nil => cases hmore
    | cons b bytes =>
      obtain ⟨hb, -⟩ := List.cons.inj hmore
      have hnat := congrArg UInt16.toNat hb
      rw [Utf16.toNat_ofNat ((hlt b List.mem_cons_self).trans (by decide))] at hnat
      rw [List.head?_cons, ← hnat]
      rfl

/-- An entry holds terms in one shape, and one set of them. -/
theorem StoredAs.unique (hlt : ∀ b ∈ bytes, b < 256) (h : StoredAs parseUrl streams bytes t shape)
    (h' : StoredAs parseUrl streams bytes t' shape') : shape = shape' ∧ t = t' := by
  have hshape : shape = shape' := by
    have hfirst : some shape.first = some shape'.first := (h.head hlt).symm.trans (h'.head hlt)
    cases shape <;> cases shape' <;> first | rfl | exact absurd hfirst (by decide)
  subst hshape
  refine ⟨rfl, ?_⟩
  have hread : ∀ {raw}, Canonical parseUrl t raw → Canonical parseUrl t' raw → t = t' := fun hraw hraw' =>
    Option.some.inj (((fromCanonical_eq_some hraw.lt).mpr hraw).symm.trans ((fromCanonical_eq_some hraw.lt).mpr hraw'))
  cases shape with
  | deflated =>
    obtain ⟨rest, raw, rfl, hinflate, hraw⟩ := h
    obtain ⟨rest', raw', hsame, hinflate', hraw'⟩ := h'
    obtain rfl := (List.cons.inj hsame).2
    obtain rfl := Option.some.inj (hinflate.symm.trans hinflate')
    exact hread hraw hraw'
  | plain => exact hread h h'
  | text =>
    obtain ⟨raw, hunb, -, hraw⟩ := h
    obtain ⟨raw', hunb', -, hraw'⟩ := h'
    obtain rfl := Option.some.inj (hunb.symm.trans hunb')
    exact hread hraw hraw'

/-- An entry resolves to what it holds, in whichever shape the environment can read. -/
theorem fromRegistryBytes_eq_some (hs : streams.Lawful) (hlt : ∀ b ∈ bytes, b < 256) :
    fromRegistryBytes parseUrl streams bytes = some t ↔
      ∃ shape, StoredAs parseUrl streams bytes t shape ∧ (shape = .deflated → streams.canCompress = true) := by
  constructor
  · intro h
    cases bytes with
    | nil => cases h
    | cons first rest =>
      rw [fromRegistryBytes] at h
      split_ifs at h with hdeflated
      · obtain ⟨raw, hraw, hread⟩ := Option.bind_eq_some_iff.mp h
        refine ⟨.deflated, ⟨rest, raw, by rw [hdeflated.1], hraw, ?_⟩, fun _ => hdeflated.2⟩
        exact (fromCanonical_eq_some (hs.inflate_lt _ _ hraw)).mp hread
      · cases hplain : fromCanonical parseUrl (first :: rest) with
        | some plain =>
          rw [hplain] at h
          obtain rfl := Option.some.inj h
          exact ⟨.plain, (fromCanonical_eq_some hlt).mp hplain, (fun hno => by cases hno)⟩
        | none =>
          rw [hplain] at h
          exact ⟨.text, unpackTerms_eq_some.mp h, (fun hno => by cases hno)⟩
  · rintro ⟨shape, h, hcan⟩
    have hhead := h.head hlt
    cases bytes with
    | nil => cases hhead
    | cons first rest =>
      obtain rfl := Option.some.inj hhead
      rw [fromRegistryBytes]
      cases shape with
      | deflated =>
        obtain ⟨rest', raw, hsame, hraw, hcanonical⟩ := h
        obtain rfl := (List.cons.inj hsame).2
        rw [if_pos ⟨rfl, hcan rfl⟩, hraw, Option.bind_some]
        exact (fromCanonical_eq_some hcanonical.lt).mpr hcanonical
      | plain =>
        rw [if_neg fun hno => absurd hno.1 (by decide), (fromCanonical_eq_some hlt).mpr h]
      | text =>
        have hplain : fromCanonical parseUrl (Shape.text.first :: rest) = none := by
          rw [Option.eq_none_iff_forall_ne_some]
          intro other hother
          have hstored : StoredAs parseUrl streams (Shape.text.first :: rest) other .plain :=
            (fromCanonical_eq_some hlt).mp hother
          exact absurd (StoredAs.unique hlt h hstored).1 (by decide)
        rw [if_neg fun hno => absurd hno.1 (by decide), hplain]
        exact unpackTerms_eq_some.mpr h

lemma normal_normal (t : Terms) : normal (normal t) = normal t := by
  simp only [normal, trim_trim, Option.map_map, Function.comp_def, descriptionText_idem]

lemma canonical_normal (h : canonicalTerms parseUrl t = .ok bytes) : Canonical parseUrl (normal t) bytes := by
  obtain ⟨hok, hbytes⟩ := canonicalTerms_eq_ok.mp h
  refine ⟨canonicalTerms_eq_ok.mpr ⟨acceptable_normal hok, ?_⟩, normal_normal t⟩
  rw [wire_normal, hbytes]

lemma toRegistryBytes_stored (hs : streams.Lawful) (h : toRegistryBytes parseUrl streams t = .ok bytes) :
    (∀ b ∈ bytes, b < 256) ∧ ∃ shape, StoredAs parseUrl streams bytes (normal t) shape ∧
      (shape = .deflated → streams.canCompress = true) := by
  simp only [toRegistryBytes, bind_eq_ok] at h
  obtain ⟨raw, hraw, h⟩ := h
  have hcanonical := canonical_normal hraw
  have hplain : ∀ {out : Bytes}, out = raw → (∀ b ∈ out, b < 256) ∧ ∃ shape,
      StoredAs parseUrl streams out (normal t) shape ∧ (shape = .deflated → streams.canCompress = true) := by
    rintro out rfl
    exact ⟨hcanonical.lt, .plain, hcanonical, fun hno => by cases hno⟩
  split_ifs at h with hcan hhelps
  · exact hplain (Except.ok.inj h).symm
  · exact hplain (Except.ok.inj h).symm
  · obtain rfl := Except.ok.inj h
    refine ⟨List.forall_mem_cons.mpr ⟨by decide, hs.deflate_lt raw hcanonical.lt⟩, .deflated, ?_,
      fun _ => by simpa using hcan⟩
    exact ⟨streams.deflate raw, raw, rfl, hs.inflate_deflate raw hcanonical.lt, hcanonical⟩

lemma toRegistryBytes_ok (h : checkTerms parseUrl t = .ok ()) : ∃ bytes, toRegistryBytes parseUrl streams t = .ok bytes := by
  have hraw := canonicalTerms_eq_ok.mpr ⟨checkTerms_eq_ok.mp h, rfl⟩
  rw [toRegistryBytes, hraw]
  dsimp only [bind, Except.bind, pure, Except.pure]
  split_ifs
  · exact ⟨_, rfl⟩
  · exact ⟨_, rfl⟩
  · exact ⟨_, rfl⟩

theorem fromRegistryBytes_toRegistryBytes (hs : streams.Lawful) (h : toRegistryBytes parseUrl streams t = .ok bytes) :
    fromRegistryBytes parseUrl streams bytes = some (normal t) := by
  obtain ⟨hlt, hstored⟩ := toRegistryBytes_stored hs h
  exact (fromRegistryBytes_eq_some hs hlt).mpr hstored

end Peal.Live.Page
