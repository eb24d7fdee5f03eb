import Peal.Live.Previews

open Peal.Coordinator (Text Bytes Preview JsonItem PreviewCrates INFLATE_LIMIT readText b64url decodeTerms)
open Peal.Fallible Peal.JsJson

namespace Peal.Live.Page

/-! # Entries as the page and the server read them -/

variable {crates : PreviewCrates} {parseUrl : JsString → Option Url} {streams : Streams} {t : Terms} {bytes raw : Bytes}
  {shape : Shape}

/-- The terms that the page finds in an entry. -/
def Held (parseUrl : JsString → Option Url) (streams : Streams) (bytes : Bytes) (t : Terms) (shape : Shape) : Prop :=
  StoredAs parseUrl streams bytes t shape ∧ (shape = .deflated → streams.canCompress = true)

/-- An entry that the server reads as the page does. -/
structure Mirrored (crates : PreviewCrates) (parseUrl : JsString → Option Url) (streams : Streams) (bytes : Bytes) :
    Prop where
  held : ∀ t shape, Held parseUrl streams bytes t shape → Legible t ∧
    (shape = .deflated → ∀ raw, streams.inflate bytes.tail = some raw → raw.length ≤ INFLATE_LIMIT)
  other : (∀ t shape, ¬Held parseUrl streams bytes t shape) → ∀ raw, Reading crates bytes raw → ¬Titled crates raw

/-! ### The server on an entry that holds terms -/

lemma b64url_eq_none {c : Char} {rest : Text} (h : c ∉ Base64.urlSafe) (hsign : c ≠ '=') : b64url (c :: rest) = none := by
  have hsplit := List.rdropWhile_append_rtakeWhile (p := fun c : Char => decide (c = '=')) (l := c :: rest)
  have hmem : c ∈ (c :: rest).rdropWhile (fun c : Char => decide (c = '=')) ++
      (c :: rest).rtakeWhile fun c : Char => decide (c = '=') := by
    rw [hsplit]
    exact List.mem_cons_self
  rcases List.mem_append.mp hmem with hkept | hdropped
  · exact Base64.decodeStrict_eq_none hkept h
  · have hdrop := List.mem_rtakeWhile_imp hdropped
    exact absurd (of_decide_eq_true hdrop) hsign

lemma text_eq_none {b : Nat} (hb : b < 0x80) (h : Char.ofNat b ∉ Base64.urlSafe) (hsign : Char.ofNat b ≠ '=')
    (rest : Bytes) : (Utf8.decode (b :: rest)).bind b64url = none := by
  cases htext : Utf8.decode (b :: rest) with
  | none => rfl
  | some text =>
    obtain ⟨tail, rfl⟩ := Utf8.decode_cons hb htext
    exact b64url_eq_none h hsign

lemma decode_plain (h : Canonical parseUrl t bytes) : decodeTerms crates bytes = Coordinator.fromCanonical crates bytes := by
  obtain ⟨rest, rfl⟩ := h.cons
  have htext := text_eq_none (b := 0x5B) (by decide) (by decide) (by decide) rest
  have hfirst : ¬(0x5B :: rest).head? = some 1 := fun hno => absurd (Option.some.inj hno) (by decide)
  rw [decodeTerms, if_neg hfirst, htext]
  cases Coordinator.fromCanonical crates (0x5B :: rest) <;> rfl

lemma decode_deflated (hc : Documented crates streams) {rest : Bytes} (hinflate : streams.inflate rest = some raw)
    (h : Canonical parseUrl t raw) : decodeTerms crates (FORMAT_DEFLATE :: rest) =
      if raw.length ≤ INFLATE_LIMIT then Coordinator.fromCanonical crates raw else none := by
  have hcut : (Coordinator.inflate crates rest).bind (Coordinator.fromCanonical crates) =
      if raw.length ≤ INFLATE_LIMIT then Coordinator.fromCanonical crates raw else none := by
    have hread : Coordinator.inflate crates rest = some (raw.take INFLATE_LIMIT) := by
      rw [Coordinator.inflate, hc.flate2_inflate _ _ hinflate]
      dsimp only
      split_ifs with hlong
      · rfl
      · rw [List.take_of_length_le (Nat.le_of_not_le hlong)]
      · rename_i hends
        exact absurd rfl hends
    rw [hread, Option.bind_some]
    split_ifs with hfits
    · rw [List.take_of_length_le hfits]
    · obtain ⟨hok, hraw⟩ := canonicalTerms_eq_ok.mp h.1
      -- the text of a tuple that is cut short is none
      have hserde : crates.serde (raw.take INFLATE_LIMIT) = none := by
        rw [hraw] at hfits ⊢
        exact hc.serde_cut _ (wire_plain hok) (List.cons_ne_nil _ _) _ (Nat.lt_of_not_le hfits)
      rw [Coordinator.fromCanonical, hserde]
      rfl
  have hplain : Coordinator.fromCanonical crates (FORMAT_DEFLATE :: rest) = none := by
    rw [Coordinator.fromCanonical, hc.serde_first _ _ (by decide)]
    rfl
  have htext := text_eq_none (b := FORMAT_DEFLATE) (by decide) (by decide) (by decide) rest
  have hfirst : (FORMAT_DEFLATE :: rest).head? = some 1 := rfl
  rw [decodeTerms, if_pos hfirst, List.tail_cons, hcut, hplain, htext]
  split_ifs
  · cases Coordinator.fromCanonical crates raw <;> rfl
  · rfl

lemma urlSafe_small : ∀ c ∈ Base64.urlSafe, c.toNat < 0x80 := by
  have hall : Base64.urlSafe.all (fun c => decide (c.toNat < 0x80)) = true := by decide
  exact fun c hc => of_decide_eq_true (List.all_eq_true.mp hall c hc)

lemma bytes_of_units {s : Text} (hs : ∀ c ∈ s, c.toNat < 0x80) (hlt : ∀ b ∈ bytes, b < 256)
    (h : latin1 bytes = Utf16.encode s) : bytes = Utf8.encode s := by
  induction s generalizing bytes with
  | nil => exact List.map_eq_nil_iff.mp h
  | cons c s ih =>
    obtain ⟨hc, hs⟩ := List.forall_mem_cons.mp hs
    have hsmall : c.toNat < 0x10000 := hc.trans (by decide)
    rw [Utf16.encode_cons, (Utf16.encodeChar_small hsmall).1, List.singleton_append] at h
    obtain ⟨b, rest, rfl, hb, hrest⟩ := List.map_eq_cons_iff.mp h
    obtain ⟨hblt, hlt⟩ := List.forall_mem_cons.mp hlt
    have hnat := congrArg UInt16.toNat hb
    rw [Utf16.toNat_ofNat (hblt.trans (by decide)), Utf16.toNat_ofNat hsmall] at hnat
    rw [Utf8.encode_cons, Json.encodeChar_ascii hc, List.singleton_append, hnat, ih hs hlt hrest]

lemma text_bytes (hlt : ∀ b ∈ bytes, b < 256) (h : StoredAs parseUrl streams bytes t .text) : ∃ raw k,
    Canonical parseUrl t raw ∧ bytes = Utf8.encode (Base64.encode Base64.urlSafe raw ++ List.replicate k '=') := by
  obtain ⟨raw, -, hsame, hraw⟩ := h
  obtain ⟨k, hk⟩ := signs_split hsame
  rw [b64urlEncode_eq hraw.lt] at hk
  refine ⟨raw, k, hraw, bytes_of_units (fun c hc => ?_) hlt hk⟩
  rcases List.mem_append.mp hc with hsymbol | hsign
  · exact urlSafe_small c (Base64.encode_mem Base64.urlSafe_lawful hraw.lt c hsymbol)
  · rw [(List.mem_replicate.mp hsign).2]
    decide

lemma b64url_signs (hlt : ∀ b ∈ raw, b < 256) (k : Nat) :
    b64url (Base64.encode Base64.urlSafe raw ++ List.replicate k '=') = some raw := by
  have hplain : ∀ c ∈ Base64.encode Base64.urlSafe raw, c ≠ '=' := fun c hc =>
    urlSafe_plain c (Base64.encode_mem Base64.urlSafe_lawful hlt c hc)
  have hdrop : (Base64.encode Base64.urlSafe raw ++ List.replicate k '=').rdropWhile (fun c => c = '=') =
      Base64.encode Base64.urlSafe raw := dropSigns_append hplain k
  rw [b64url, hdrop]
  exact Base64.decodeStrict_encode Base64.urlSafe_lawful hlt

lemma decode_text (hc : Documented crates streams) (hlt : ∀ b ∈ bytes, b < 256)
    (h : StoredAs parseUrl streams bytes t .text) : ∃ raw, Canonical parseUrl t raw ∧
      decodeTerms crates bytes = Coordinator.fromCanonical crates raw := by
  obtain ⟨raw, k, hraw, hbytes⟩ := text_bytes hlt h
  refine ⟨raw, hraw, ?_⟩
  obtain ⟨rest, hrest⟩ := List.head?_eq_some_iff.mp (h.head hlt)
  have hplain : Coordinator.fromCanonical crates bytes = none := by
    rw [Coordinator.fromCanonical, hrest, hc.serde_first _ _ (by decide)]
    rfl
  have htext : (Utf8.decode bytes).bind b64url = some raw := by
    rw [hbytes, Utf8.decode_encode, Option.bind_some, b64url_signs hraw.lt]
  have hfirst : ¬bytes.head? = some 1 := by
    rw [hrest]
    exact fun hno => absurd (Option.some.inj hno) (by decide)
  rw [decodeTerms, if_neg hfirst, hplain, htext, Option.bind_some]

lemma held_shown (hc : Documented crates streams) (hlt : ∀ b ∈ bytes, b < 256)
    (h : StoredAs parseUrl streams bytes t shape) : (∃ p, decodeTerms crates bytes = some p ∧ Shows p t) ↔
      Legible t ∧ (shape = .deflated → ∀ raw, streams.inflate bytes.tail = some raw → raw.length ≤ INFLATE_LIMIT) := by
  cases shape with
  | deflated =>
    obtain ⟨rest, raw, rfl, hinflate, hraw⟩ := h
    rw [decode_deflated hc hinflate hraw, List.tail_cons]
    have hfits : (Shape.deflated = .deflated → ∀ raw', streams.inflate rest = some raw' → raw'.length ≤ INFLATE_LIMIT) ↔
        raw.length ≤ INFLATE_LIMIT := by
      constructor
      · exact fun h => h rfl raw hinflate
      · intro h _ raw' hraw'
        rwa [Option.some.inj (hraw'.symm.trans hinflate)]
    rw [hfits]
    split_ifs with hlong
    · rw [canonical_shown hc hraw, and_iff_left hlong]
    · exact iff_of_false (fun ⟨p, hp, _⟩ => by cases hp) fun hno => hlong hno.2
  | plain =>
    rw [decode_plain h, canonical_shown hc h]
    exact (and_iff_left fun hno => by cases hno).symm
  | text =>
    obtain ⟨raw, hraw, hread⟩ := decode_text hc hlt h
    rw [hread, canonical_shown hc hraw]
    exact (and_iff_left fun hno => by cases hno).symm

lemma rel_some {o : Option Preview} : Option.Rel Shows o (some t) ↔ ∃ p, o = some p ∧ Shows p t := by
  constructor
  · intro h
    cases h with
    | some hshows => exact ⟨_, rfl, hshows⟩
  · rintro ⟨p, rfl, hshows⟩
    exact .some hshows

lemma rel_none {o : Option Preview} : Option.Rel Shows o none ↔ o = none := by
  constructor
  · intro h
    cases h
    rfl
  · rintro rfl
    exact .none

/-- An entry is shown as it opens exactly when it is mirrored. -/
theorem decodeTerms_agrees (hs : streams.Lawful) (hc : Documented crates streams) (hlt : ∀ b ∈ bytes, b < 256) :
    Option.Rel Shows (decodeTerms crates bytes) (fromRegistryBytes parseUrl streams bytes) ↔
      Mirrored crates parseUrl streams bytes := by
  cases hopen : fromRegistryBytes parseUrl streams bytes with
  | some t =>
    obtain ⟨shape, hheld⟩ := (fromRegistryBytes_eq_some hs hlt).mp hopen
    rw [rel_some, held_shown hc hlt hheld.1]
    constructor
    · intro h
      refine ⟨fun t' shape' hheld' => ?_, fun hno => absurd hheld (hno t shape)⟩
      obtain ⟨rfl, rfl⟩ := StoredAs.unique hlt hheld.1 hheld'.1
      exact h
    · exact fun h => h.held t shape hheld
  | none =>
    have hno : ∀ t shape, ¬Held parseUrl streams bytes t shape := by
      intro t shape hheld
      rw [(fromRegistryBytes_eq_some hs hlt).mpr ⟨shape, hheld⟩] at hopen
      cases hopen
    rw [rel_none, decodeTerms_eq_none]
    exact ⟨fun h => ⟨fun t shape hheld => absurd hheld (hno t shape), fun _ => h⟩, fun h => h.other hno⟩

/-- Terms come back as they were written, no entry is read in another shape, and the server shows what is mirrored. -/
theorem registry_entries (parseUrl : JsString → Option Url) (hs : streams.Lawful) (hc : Documented crates streams) :
    (∀ t, checkTerms parseUrl t = .ok () → ∃ bytes, toRegistryBytes parseUrl streams t = .ok bytes ∧
      fromRegistryBytes parseUrl streams bytes = some (normal t)) ∧
    (∀ bytes t shape, (∀ b ∈ bytes, b < 256) → StoredAs parseUrl streams bytes t shape →
      (∀ t' shape', StoredAs parseUrl streams bytes t' shape' → shape = shape' ∧ t = t') ∧
      ((shape = .deflated → streams.canCompress = true) → fromRegistryBytes parseUrl streams bytes = some t)) ∧
    ∀ bytes, (∀ b ∈ bytes, b < 256) →
      (Option.Rel Shows (decodeTerms crates bytes) (fromRegistryBytes parseUrl streams bytes) ↔
        Mirrored crates parseUrl streams bytes) := by
  refine ⟨fun t hok => ?_, fun bytes t shape hlt h => ⟨fun t' shape' h' => StoredAs.unique hlt h h', fun hcan => ?_⟩,
    fun bytes hlt => decodeTerms_agrees hs hc hlt⟩
  · obtain ⟨bytes, hbytes⟩ : ∃ bytes, toRegistryBytes parseUrl streams t = .ok bytes := toRegistryBytes_ok hok
    exact ⟨bytes, hbytes, fromRegistryBytes_toRegistryBytes hs hbytes⟩
  · exact (fromRegistryBytes_eq_some hs hlt).mpr ⟨shape, h, hcan⟩

/-! ### Streams and crates for the examples -/

/-- A block of its own for each byte, and an empty one at the end. -/
def storedBlocks : Bytes → Bytes
  | [] => [1, 0, 0, 255, 255]
  | b :: rest => 0 :: 1 :: 0 :: 254 :: 255 :: b :: storedBlocks rest

def readBlocks : Bytes → Option Bytes
  | [1, 0, 0, 255, 255] => some []
  | 0 :: 1 :: 0 :: 254 :: 255 :: b :: rest => if b < 256 then (readBlocks rest).map (b :: ·) else none
  | _ => none

def sampleStreams : Streams := ⟨true, storedBlocks, readBlocks⟩

/-- The items of a tuple written without blanks. -/
def readTuple (bytes : Bytes) : Option (List Item) := do
  let text ← Utf8.decode bytes
  match JsJson.parse text with
  | some (.arr values) =>
    let items ← values.mapM Value.item
    guard (items ≠ [] ∧ stringify items = text)
    return items
  | _ => none

def sampleCrates : PreviewCrates where
  serde := fun bytes => (readTuple bytes).bind (List.mapM serdeItem)
  flate2 := fun x => match readBlocks x with
    | some raw => (raw, true)
    | none => ([], false)

lemma readBlocks_lt {x raw : Bytes} (h : readBlocks x = some raw) : ∀ b ∈ raw, b < 256 := by
  fun_induction readBlocks x generalizing raw with
  | case1 =>
    obtain rfl := Option.some.inj h
    exact fun b hb => by cases hb
  | case2 b rest hb ih =>
    obtain ⟨tail, htail, rfl⟩ := Option.map_eq_some_iff.mp h
    exact List.forall_mem_cons.mpr ⟨hb, ih htail⟩
  | case3 b rest hb => cases h
  | case4 x hlast hblock => cases h

lemma sampleStreams_lawful : sampleStreams.Lawful where
  inflate_deflate x hx := by
    induction x with
    | nil => rfl
    | cons b x ih =>
      obtain ⟨hb, hx⟩ := List.forall_mem_cons.mp hx
      show readBlocks (0 :: 1 :: 0 :: 254 :: 255 :: b :: storedBlocks x) = _
      rw [readBlocks, if_pos hb]
      exact congrArg (Option.map (b :: ·)) (ih hx)
  deflate_lt x hx := by
    induction x with
    | nil =>
      show ∀ b ∈ [1, 0, 0, 255, 255], b < 256
      decide
    | cons b x ih =>
      obtain ⟨hb, hx⟩ := List.forall_mem_cons.mp hx
      show ∀ c ∈ [0, 1, 0, 254, 255] ++ b :: storedBlocks x, c < 256
      intro c hc
      rcases List.mem_append.mp hc with hhead | htail
      · exact (by decide : ∀ c ∈ [0, 1, 0, 254, 255], c < 256) c hhead
      · exact (List.forall_mem_cons.mpr ⟨hb, ih hx⟩ : ∀ c ∈ b :: storedBlocks x, c < 256) c htail
  inflate_lt _ _ := readBlocks_lt

lemma mapM_item_plain {values : List Value} {items : List Item} (h : values.mapM Value.item = some items) :
    ∀ x ∈ items, x.Plain := by
  have hrel := mapM_eq_some.mp h
  clear h
  induction hrel with
  | nil => exact fun x hx => by cases hx
  | cons hx _ ih => exact List.forall_mem_cons.mpr ⟨Value.item_plain hx, ih⟩

lemma readTuple_eq_some {items : List Item} : readTuple bytes = some items ↔
    ((∀ x ∈ items, x.Plain) ∧ items ≠ []) ∧ bytes = Utf8.encode (stringify items) := by
  constructor
  · intro h
    simp only [readTuple, Option.bind_eq_bind, Option.bind_eq_some_iff] at h
    obtain ⟨text, htext, h⟩ := h
    split at h
    · rename_i values hvalues
      simp only [Option.bind_eq_some_iff, guard_eq_some, exists_const, Option.pure_def, Option.some.injEq] at h
      obtain ⟨items, hitems, ⟨hne, htuple⟩, rfl⟩ := h
      exact ⟨⟨mapM_item_plain hitems, hne⟩, by rw [htuple, Utf8.decode_eq_some.mp htext]⟩
    · cases h
  · rintro ⟨⟨hitems, hne⟩, rfl⟩
    have hback : (items.map Item.value).mapM Value.item = some items := by
      rw [mapM_eq_some, List.forall₂_map_left_iff, List.forall₂_same]
      exact fun x hx => Item.item_value (hitems x hx)
    simp only [readTuple, Option.bind_eq_bind, Utf8.decode_encode, Option.bind_some, parse_stringify hitems hne, hback]
    simp only [hne, ne_eq, not_false_eq_true, true_and, guard_true, Option.pure_def, Option.bind_some]

lemma sampleCrates_documented : Documented sampleCrates sampleStreams where
  flate2_inflate x raw h := by
    show (match readBlocks x with
      | some raw => (raw, true)
      | none => ([], false)) = _
    rw [show readBlocks x = some raw from h]
  serde_tuple items hitems hne := by
    show (readTuple _).bind _ = _
    rw [readTuple_eq_some.mpr ⟨⟨hitems, hne⟩, rfl⟩]
    rfl
  serde_cut items hitems hne n hn := by
    show (readTuple _).bind _ = _
    rw [Option.bind_eq_none_iff]
    intro items' hread
    obtain ⟨⟨hitems', hne'⟩, htake⟩ := readTuple_eq_some.mp hread
    have hsplit := (List.take_append_drop n (Utf8.encode (stringify items))).symm
    rw [htake] at hsplit
    obtain ⟨more, htext, hmore⟩ := Utf8.encode_split hsplit
    -- nothing follows the shorter of two tuples
    rw [stringify_eq_append hitems hne hitems' hne' htext] at hmore
    exact absurd (List.drop_eq_nil_iff.mp hmore) (Nat.not_le_of_lt hn)
  serde_first b rest hb := by
    show (readTuple _).bind _ = _
    rw [Option.bind_eq_none_iff]
    intro items hread
    obtain ⟨-, hbytes⟩ := readTuple_eq_some.mp hread
    obtain ⟨tail, htail⟩ := stringify_cons items
    rw [htail] at hbytes
    obtain ⟨rfl, -⟩ := List.cons.inj hbytes
    exact absurd (by decide) hb

def sampleEntry : Bytes := Utf8.encode (stringify (wire (sampleTerms (Utf16.encode "cond_1".toList))))

lemma sampleEntry_canonical : Canonical noUrl (normal (sampleTerms (Utf16.encode "cond_1".toList))) sampleEntry :=
  canonical_normal (canonicalTerms_eq_ok.mpr ⟨sample_acceptable (by decide), rfl⟩)

/-- No surrogate of the item stands alone. -/
def wholeText : Item → Bool
  | .str s => !Utf16.loneSurrogate s
  | _ => true

lemma sampleEntry_legible : Legible (normal (sampleTerms (Utf16.encode "cond_1".toList))) where
  texts s hs := by
    have hall : (wire (normal (sampleTerms (Utf16.encode "cond_1".toList)))).all wholeText = true := by decide
    simpa [wholeText] using List.all_eq_true.mp hall _ hs
  title := ⟨by decide, by decide⟩
  description s hs := by
    have hnone : (normal (sampleTerms (Utf16.encode "cond_1".toList))).description = none := by decide
    rw [hnone] at hs
    cases hs
  image s hs := by cases hs

lemma sampleEntry_mirrored : Mirrored sampleCrates noUrl sampleStreams sampleEntry where
  held t shape h := by
    have hplain : StoredAs noUrl sampleStreams sampleEntry (normal (sampleTerms (Utf16.encode "cond_1".toList))) .plain :=
      sampleEntry_canonical
    obtain ⟨hshape, rfl⟩ := StoredAs.unique sampleEntry_canonical.lt h.1 hplain
    refine ⟨sampleEntry_legible, fun hno => ?_⟩
    rw [hno] at hshape
    cases hshape
  other hno := absurd ⟨sampleEntry_canonical, fun h => by cases h⟩
    (hno (normal (sampleTerms (Utf16.encode "cond_1".toList))) .plain)

theorem sample_entry_shown : Option.Rel Shows (decodeTerms sampleCrates sampleEntry)
    (fromRegistryBytes noUrl sampleStreams sampleEntry) :=
  ((registry_entries noUrl sampleStreams_lawful sampleCrates_documented).2.2 sampleEntry sampleEntry_canonical.lt).mpr
    sampleEntry_mirrored

/-- A name in its place, and nothing that the page would open. -/
def shortTuple : List Item := [.num 5, .str (Utf16.encode "cond_1".toList), .str (Utf16.encode "mug".toList),
  .str (Utf16.encode "USD".toList), .num 2, .num 1800000000, .null, .null, .null, .null]

lemma shortTuple_plain : ∀ x ∈ shortTuple, x.Plain := by
  have hnumber : ∀ {m : Nat}, m < 2 ^ 53 → (Item.num m).Plain := fun hm => ⟨Int.natCast_nonneg _, by
    exact_mod_cast Doubles.isDouble_natCast hm⟩
  intro x hx
  simp only [shortTuple, List.mem_cons, List.not_mem_nil, or_false] at hx
  rcases hx with rfl | rfl | rfl | rfl | rfl | rfl | rfl | rfl | rfl | rfl
  · exact hnumber (m := 5) (by decide)
  · trivial
  · trivial
  · trivial
  · exact hnumber (m := 2) (by decide)
  · exact hnumber (m := 1800000000) (by decide)
  all_goals trivial

/-- A tuple of ten items is shown, although it holds no terms. -/
theorem short_tuple_shown : ¬Option.Rel Shows (decodeTerms sampleCrates (Utf8.encode (stringify shortTuple)))
    (fromRegistryBytes noUrl sampleStreams (Utf8.encode (stringify shortTuple))) := by
  have hne : shortTuple ≠ [] := List.cons_ne_nil _ _
  have hserde : sampleCrates.serde (Utf8.encode (stringify shortTuple)) = some (shortTuple.map jsonItem) := by
    rw [sampleCrates_documented.serde_tuple _ shortTuple_plain hne, mapM_serdeItem]
    refine ⟨fun s hs => ?_, rfl⟩
    have hall : shortTuple.all wholeText = true := by decide
    simpa [wholeText] using List.all_eq_true.mp hall _ hs
  rw [decodeTerms_agrees sampleStreams_lawful sampleCrates_documented (Utf8.encode_lt _)]
  intro h
  refine h.other (fun t shape hheld => ?_) _ .plain ⟨_, Utf16.decode (Utf16.encode "mug".toList), hserde, by decide, rfl,
    by decide⟩
  have hcanonical : Canonical noUrl t (Utf8.encode (stringify shortTuple)) := by
    have hhead := hheld.1.head (Utf8.encode_lt _)
    obtain ⟨rest, hrest⟩ := stringify_cons shortTuple
    rw [hrest, List.head?_cons] at hhead
    cases shape with
    | deflated => exact absurd hhead (by decide)
    | plain => exact hheld.1
    | text => exact absurd hhead (by decide)
  have htext := Utf8.encode_injective hcanonical.bytes_eq
  have hparse := parse_stringify shortTuple_plain hne
  rw [htext, parse_stringify (wire_plain (canonicalTerms_eq_ok.mp hcanonical.1).1) (List.cons_ne_nil _ _)] at hparse
  have hlength := congrArg List.length (Value.arr.inj (Option.some.inj hparse))
  rw [List.length_map, List.length_map] at hlength
  have heleven : (wire t).length = 11 := rfl
  rw [heleven] at hlength
  exact absurd hlength (by decide)

end Peal.Live.Page
