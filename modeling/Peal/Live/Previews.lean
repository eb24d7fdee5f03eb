import Peal.Coordinator.Rounds
import Peal.Live.Registry

open Peal.Coordinator (Text Bytes)

/-! # The preview of an entry -/

namespace Peal.Coordinator

structure Preview where
  title : Text
  description : Option Text
  image : Option Text
  deriving DecidableEq

/-- A value of a tuple: a string, or anything else. -/
inductive JsonItem where
  | str (s : Text)
  | other
  deriving DecidableEq

def JsonItem.asStr : JsonItem → Option Text
  | .str s => some s
  | .other => none

/-- The two libraries: a reader of tuples, and a decoder with what comes out of it and whether it ends well. -/
structure PreviewCrates where
  serde : Bytes → Option (List JsonItem)
  flate2 : Bytes → Bytes × Bool

def INFLATE_LIMIT : Nat := 64 * 1024

section Crates

variable (crates : PreviewCrates)

def inflate (bytes : Bytes) : Option Bytes :=
  let (out, ends) := crates.flate2 bytes
  -- the reader stops at the limit before it sees how the stream ends
  if INFLATE_LIMIT ≤ out.length then some (out.take INFLATE_LIMIT) else if ends then some out else none

def b64url (text : Text) : Option Bytes :=
  Base64.decodeStrict Base64.urlSafe (text.rdropWhile fun c => c = '=')

def readText (wire : List JsonItem) (i : Nat) : Option Text :=
  ((wire[i]?.bind JsonItem.asStr).map trim).filter fun s => s ≠ []

def fromCanonical (bytes : Bytes) : Option Preview := do
  let wire ← crates.serde bytes
  guard (10 ≤ wire.length)
  let title ← readText wire 2
  return ⟨title, readText wire 9, (readText wire 8).filter fun s => "https://".toList.isPrefixOf s⟩

def decodeTerms (bytes : Bytes) : Option Preview :=
  let deflated := if bytes.head? = some 1 then (inflate crates bytes.tail).bind (fromCanonical crates) else none
  match deflated with
  | some p => some p
  | none =>
    match fromCanonical crates bytes with
    | some p => some p
    | none => ((Utf8.decode bytes).bind b64url).bind (fromCanonical crates)

end Crates

end Peal.Coordinator

namespace Peal.Live.Page
open Peal.Coordinator (Preview JsonItem PreviewCrates INFLATE_LIMIT readText b64url decodeTerms)
open Peal.JsJson

/-! ### What the crates are documented to do -/

/-- A string with a lone half of a pair is refused. -/
def serdeItem : Item → Option JsonItem
  | .str s => if Utf16.loneSurrogate s then none else some (.str (Utf16.decode s))
  | _ => some .other

structure Documented (crates : PreviewCrates) (streams : Streams) : Prop where
  flate2_inflate : ∀ x raw, streams.inflate x = some raw → crates.flate2 x = (raw, true)
  serde_tuple : ∀ items : List Item, (∀ x ∈ items, x.Plain) → items ≠ [] →
    crates.serde (Utf8.encode (stringify items)) = items.mapM serdeItem
  serde_cut : ∀ items : List Item, (∀ x ∈ items, x.Plain) → items ≠ [] →
    ∀ n < (Utf8.encode (stringify items)).length, crates.serde ((Utf8.encode (stringify items)).take n) = none
  serde_first : ∀ b rest, b ∉ [9, 10, 13, 32, 0x5B] → crates.serde (b :: rest) = none

/-! ### When the two readers agree -/

/-- A preview shows the terms; a blank address is no picture. -/
structure Shows (p : Preview) (t : Terms) : Prop where
  title : Utf16.encode p.title = t.title
  description : p.description.map Utf16.encode = t.description
  image : p.image.map Utf16.encode = t.image.filter fun s => s ≠ []

def nel : Char := Char.ofNat 0x85

/-- Neither end is the one character that only the server trims. -/
def Kept (s : JsString) : Prop := (Utf16.decode s).head? ≠ some nel ∧ (Utf16.decode s).getLast? ≠ some nel

/-- Terms that the server reads as the page does. -/
structure Legible (t : Terms) : Prop where
  texts : ∀ s, Item.str s ∈ wire t → Utf16.loneSurrogate s = false
  title : Kept t.title
  description : ∀ s ∈ t.description, Kept s
  image : ∀ s ∈ t.image, s ≠ [] → Kept s ∧ "https://".toList <+: Utf16.decode s

/-- Bytes that the server looks for a tuple in. -/
inductive Reading (crates : PreviewCrates) (bytes : Bytes) : Bytes → Prop where
  | deflated {raw : Bytes} : bytes.head? = some 1 → Coordinator.inflate crates bytes.tail = some raw →
      Reading crates bytes raw
  | plain : Reading crates bytes bytes
  | text {raw : Bytes} : (Utf8.decode bytes).bind b64url = some raw → Reading crates bytes raw

/-- At least ten items, of which the third is a name. -/
def Titled (crates : PreviewCrates) (raw : Bytes) : Prop := ∃ items s, crates.serde raw = some items ∧ 10 ≤ items.length ∧
  items[2]? = some (.str s) ∧ Coordinator.trim s ≠ []

variable {crates : PreviewCrates} {parseUrl : JsString → Option Url} {streams : Streams} {t : Terms} {bytes raw : Bytes}

lemma readText_eq_some {wire : List JsonItem} {i : Nat} {text : Text} : readText wire i = some text ↔
    ∃ s, wire[i]? = some (.str s) ∧ Coordinator.trim s = text ∧ text ≠ [] := by
  rw [readText, Option.filter_eq_some_iff, Option.map_eq_some_iff, decide_eq_true_eq]
  constructor
  · rintro ⟨⟨s, hs, rfl⟩, hne⟩
    obtain ⟨item, hitem, hstr⟩ := Option.bind_eq_some_iff.mp hs
    cases item with
    | str s' =>
      obtain rfl := Option.some.inj hstr
      exact ⟨s', hitem, rfl, hne⟩
    | other => cases hstr
  · rintro ⟨s, hitem, rfl, hne⟩
    exact ⟨⟨s, by rw [hitem]; rfl, rfl⟩, hne⟩

lemma preview_eq_some {p : Preview} : Coordinator.fromCanonical crates raw = some p ↔
    ∃ items, crates.serde raw = some items ∧ 10 ≤ items.length ∧ readText items 2 = some p.title ∧
      readText items 9 = p.description ∧
      ((readText items 8).filter fun s => "https://".toList.isPrefixOf s) = p.image := by
  unfold Coordinator.fromCanonical
  simp only [Option.bind_eq_bind, Option.bind_eq_some_iff, guard_eq_some, exists_const, Option.pure_def, Option.some.injEq]
  constructor
  · rintro ⟨items, hitems, hlength, title, htitle, rfl⟩
    exact ⟨items, hitems, hlength, htitle, rfl, rfl⟩
  · rintro ⟨items, hitems, hlength, htitle, hdescription, himage⟩
    refine ⟨items, hitems, hlength, p.title, htitle, ?_⟩
    rw [hdescription, himage]

lemma fromCanonical_titled : (Coordinator.fromCanonical crates raw).isSome ↔ Titled crates raw := by
  rw [Option.isSome_iff_exists]
  constructor
  · rintro ⟨p, hp⟩
    obtain ⟨items, hitems, hlength, htitle, -⟩ := preview_eq_some.mp hp
    obtain ⟨s, hs, hsame, hne⟩ := readText_eq_some.mp htitle
    rw [← hsame] at hne
    exact ⟨items, s, hitems, hlength, hs, hne⟩
  · rintro ⟨items, s, hitems, hlength, hs, hne⟩
    exact ⟨⟨Coordinator.trim s, _, _⟩, preview_eq_some.mpr
      ⟨items, hitems, hlength, readText_eq_some.mpr ⟨s, hs, rfl, hne⟩, rfl, rfl⟩⟩

lemma decodeTerms_eq_none : decodeTerms crates bytes = none ↔ ∀ raw, Reading crates bytes raw → ¬Titled crates raw := by
  have hnone : ∀ raw, Coordinator.fromCanonical crates raw = none ↔ ¬Titled crates raw := fun raw => by
    rw [← fromCanonical_titled, Bool.not_eq_true, Option.isSome_eq_false_iff, Option.isNone_iff_eq_none]
  have hbind : ∀ o : Option Bytes, o.bind (Coordinator.fromCanonical crates) = none ↔
      ∀ raw, o = some raw → ¬Titled crates raw := by
    intro o
    cases o with
    | none => exact iff_of_true rfl fun raw h => by cases h
    | some raw =>
      rw [Option.bind_some, hnone]
      exact ⟨fun h raw' hraw => Option.some.inj hraw ▸ h, fun h => h raw rfl⟩
  have hdeflated : (if bytes.head? = some 1 then
      (Coordinator.inflate crates bytes.tail).bind (Coordinator.fromCanonical crates) else none) = none ↔
      ∀ raw, bytes.head? = some 1 → Coordinator.inflate crates bytes.tail = some raw → ¬Titled crates raw := by
    split_ifs with hfirst
    · rw [hbind]
      exact ⟨fun h raw _ => h raw, fun h raw => h raw hfirst⟩
    · exact iff_of_true rfl fun raw hno => absurd hno hfirst
  have hall : decodeTerms crates bytes = none ↔ ((if bytes.head? = some 1 then
      (Coordinator.inflate crates bytes.tail).bind (Coordinator.fromCanonical crates) else none) = none ∧
      Coordinator.fromCanonical crates bytes = none) ∧
      ((Utf8.decode bytes).bind b64url).bind (Coordinator.fromCanonical crates) = none := by
    unfold decodeTerms
    extract_lets deflated
    show _ ↔ (deflated = none ∧ _) ∧ _
    generalize deflated = first
    generalize ((Utf8.decode bytes).bind b64url).bind (Coordinator.fromCanonical crates) = last
    cases first with
    | some p => exact iff_of_false (fun h => by cases h) fun h => by cases h.1.1
    | none =>
      cases Coordinator.fromCanonical crates bytes with
      | some p => exact iff_of_false (fun h => by cases h) fun h => by cases h.1.2
      | none => exact (and_iff_right ⟨rfl, rfl⟩).symm
  rw [hall, hdeflated, hnone, hbind]
  constructor
  · rintro ⟨⟨hdeflated, hplain⟩, htext⟩ raw hreading
    cases hreading with
    | deflated hfirst hraw => exact hdeflated raw hfirst hraw
    | plain => exact hplain
    | text hraw => exact htext raw hraw
  · intro h
    exact ⟨⟨fun raw hfirst hraw => h raw (.deflated hfirst hraw), h bytes .plain⟩, fun raw hraw => h raw (.text hraw)⟩

/-! ### What the server makes of a text -/

lemma whitespace_iff {c : Char} (h : JsStrings.isWhiteSpace c = false) : Coordinator.isWhitespace c = true ↔ c = nel := by
  have hnel : c = nel ↔ c.toNat = 0x85 := by
    rw [← Char.toNat_inj]
    rfl
  simp only [JsStrings.isWhiteSpace, Bool.or_eq_false_iff, beq_eq_false_iff_ne, Bool.and_eq_false_iff,
    decide_eq_false_iff_not] at h
  simp only [Coordinator.isWhitespace, Bool.or_eq_true, Bool.and_eq_true, decide_eq_true_eq, List.mem_cons,
    List.not_mem_nil, or_false, hnel]
  omega

lemma trim_decode_iff {s : JsString} (hvalid : Utf16.loneSurrogate s = false) (htrim : trim s = s) :
    Coordinator.trim (Utf16.decode s) = Utf16.decode s ↔ Kept s := by
  have hunits : Utf16.encode (Utf16.decode s) = s := Utf16.encode_decode hvalid rfl
  have hpage : JsStrings.trim (Utf16.decode s) = Utf16.decode s := by
    refine Utf16.encode_injective ?_
    rw [← trim_encode, hunits, htrim]
  obtain ⟨hfirst, hlast⟩ := JsStrings.strip_eq_self.mp hpage
  have hside : ∀ o : Option Char, (∀ c ∈ o, JsStrings.isWhiteSpace c = false) →
      ((∀ c ∈ o, Coordinator.isWhitespace c = false) ↔ o ≠ some nel) := by
    intro o ho
    cases o with
    | none => exact iff_of_true (fun c hc => by cases hc) fun h => by cases h
    | some c =>
      have hc := whitespace_iff (ho c rfl)
      constructor
      · intro h hnel
        have hwhite := h c rfl
        rw [hc.mpr (Option.some.inj hnel)] at hwhite
        cases hwhite
      · intro h d hd
        obtain rfl := Option.some.inj hd
        rw [Bool.eq_false_iff, Ne, hc]
        exact fun hnel => h (congrArg some hnel)
  rw [Kept, ← hside _ hfirst, ← hside _ hlast]
  exact JsStrings.strip_eq_self

/-- A string as the server's reader has it. -/
def jsonItem : Item → JsonItem
  | .str s => .str (Utf16.decode s)
  | _ => .other

lemma mapM_serdeItem {items : List Item} {out : List JsonItem} : items.mapM serdeItem = some out ↔
    (∀ s, Item.str s ∈ items → Utf16.loneSurrogate s = false) ∧ items.map jsonItem = out := by
  induction items generalizing out with
  | nil => exact ⟨fun h => ⟨fun s hs => (by cases hs), Option.some.inj h⟩, fun h => congrArg some h.2⟩
  | cons x items ih =>
    have hx : ∀ y, serdeItem x = some y ↔ (∀ s, Item.str s = x → Utf16.loneSurrogate s = false) ∧ jsonItem x = y := by
      intro y
      cases x with
      | str s =>
        cases hs : Utf16.loneSurrogate s <;> simp [serdeItem, jsonItem, hs]
      | null => simp [serdeItem, jsonItem]
      | num n => simp [serdeItem, jsonItem]
    simp only [List.mapM_cons, Option.bind_eq_bind, Option.bind_eq_some_iff, Option.pure_def, Option.some.injEq, ih, hx,
      List.map_cons, List.mem_cons]
    constructor
    · rintro ⟨y, ⟨hvalid, rfl⟩, out, ⟨hrest, rfl⟩, rfl⟩
      exact ⟨fun s hs => hs.elim (hvalid s) (hrest s), rfl⟩
    · rintro ⟨hvalid, rfl⟩
      exact ⟨_, ⟨fun s hs => hvalid s (.inl hs), rfl⟩, _, ⟨fun s hs => hvalid s (.inr hs), rfl⟩, rfl⟩

lemma readText_map {items : List Item} {i : Nat} {s : JsString} (hitem : items[i]? = some (.str s))
    (hvalid : Utf16.loneSurrogate s = false) (htrim : trim s = s) (hne : s ≠ []) :
    (readText (items.map jsonItem) i = some (Utf16.decode s) ↔ Kept s) ∧
      ∀ text, readText (items.map jsonItem) i = some text → Utf16.encode text = s → Kept s := by
  have hat : (items.map jsonItem)[i]? = some (.str (Utf16.decode s)) := by
    rw [List.getElem?_map, hitem]
    rfl
  have hsome : Utf16.decode s ≠ [] := by
    intro hnil
    have hunits := Utf16.encode_decode hvalid rfl
    rw [hnil] at hunits
    exact hne hunits.symm
  have hread : ∀ text, readText (items.map jsonItem) i = some text → text = Coordinator.trim (Utf16.decode s) := by
    intro text h
    obtain ⟨s', hs', hsame, -⟩ := readText_eq_some.mp h
    rw [hat] at hs'
    obtain rfl := JsonItem.str.inj (Option.some.inj hs')
    exact hsame.symm
  rw [← trim_decode_iff hvalid htrim]
  refine ⟨⟨fun h => (hread _ h).symm, fun h => ?_⟩, fun text h hsame => ?_⟩
  · exact readText_eq_some.mpr ⟨_, hat, h, hsome⟩
  · rw [← hread text h, ← hsame, Utf16.decode_encode]

lemma readText_null {items : List Item} {i : Nat} (hitem : items[i]? = some .null) :
    readText (items.map jsonItem) i = none := by
  rw [Option.eq_none_iff_forall_ne_some]
  intro text h
  obtain ⟨s, hs, -⟩ := readText_eq_some.mp h
  rw [List.getElem?_map, hitem] at hs
  cases hs

lemma wire_texts (hnormal : normal t = t) : (wire t)[2]? = some (.str t.title) ∧
    (wire t)[8]? = some (jsonText t.image) ∧ (wire t)[9]? = some (jsonText t.description) ∧
    trim t.title = t.title ∧ (∀ s ∈ t.image, trim s = s) ∧ ∀ s ∈ t.description, trim s = s ∧ s ≠ [] := by
  have htitle : trim t.title = t.title := congrArg Terms.title hnormal
  have himage : t.image.map trim = t.image := congrArg Terms.image hnormal
  have hdescription : descriptionText t.description = t.description := congrArg Terms.description hnormal
  refine ⟨?_, ?_, ?_, htitle, ?_, ?_⟩
  · show some (Item.str (trim t.title)) = _
    rw [htitle]
  · show some (jsonText (t.image.map trim)) = _
    rw [himage]
  · show some (jsonText (descriptionText t.description)) = _
    rw [hdescription]
  · intro s hs
    rw [Option.mem_def.mp hs] at himage
    exact Option.some.inj himage
  · intro s hs
    rw [Option.mem_def.mp hs, descriptionText, Option.map_some, Option.filter_some] at hdescription
    split_ifs at hdescription with hne
    have htrim : trim s = s := Option.some.inj hdescription
    rw [htrim, decide_eq_true_eq] at hne
    exact ⟨htrim, hne⟩

lemma readText_kept {items : List Item} {i : Nat} {o : Option JsString} (hitem : items[i]? = some (jsonText o))
    (hvalid : ∀ s, Item.str s ∈ items → Utf16.loneSurrogate s = false) (ho : ∀ s ∈ o, trim s = s ∧ s ≠ []) :
    (readText (items.map jsonItem) i).map Utf16.encode = o ↔ ∀ s ∈ o, Kept s := by
  cases o with
  | none =>
    rw [readText_null hitem]
    exact iff_of_true rfl fun s hs => by cases hs
  | some s =>
    have hs := hvalid s (List.mem_of_getElem? hitem)
    obtain ⟨hread, hlost⟩ := readText_map hitem hs (ho s rfl).1 (ho s rfl).2
    rw [Option.map_eq_some_iff]
    constructor
    · rintro ⟨text, htext, hsame⟩ s' hs'
      obtain rfl := Option.some.inj hs'
      exact hlost text htext hsame
    · intro h
      exact ⟨_, hread.mpr (h s rfl), Utf16.encode_decode hs rfl⟩

lemma readText_picture {items : List Item} {i : Nat} {o : Option JsString} (hitem : items[i]? = some (jsonText o))
    (hvalid : ∀ s, Item.str s ∈ items → Utf16.loneSurrogate s = false) (ho : ∀ s ∈ o, trim s = s) :
    ((readText (items.map jsonItem) i).filter fun s => "https://".toList.isPrefixOf s).map Utf16.encode =
      o.filter (fun s => s ≠ []) ↔ ∀ s ∈ o, s ≠ [] → Kept s ∧ "https://".toList <+: Utf16.decode s := by
  cases o with
  | none =>
    rw [readText_null hitem]
    exact iff_of_true rfl fun s hs => by cases hs
  | some s =>
    by_cases hne : s = []
    · subst hne
      have hblank : readText (items.map jsonItem) i = none := by
        rw [Option.eq_none_iff_forall_ne_some]
        intro text h
        obtain ⟨s', hs', hsame, hne⟩ := readText_eq_some.mp h
        rw [List.getElem?_map, hitem] at hs'
        obtain rfl := JsonItem.str.inj (Option.some.inj hs')
        exact hne hsame.symm
      rw [hblank]
      exact iff_of_true rfl fun s hs hsome => absurd (Option.some.inj hs).symm hsome
    · have hs := hvalid s (List.mem_of_getElem? hitem)
      obtain ⟨hread, hlost⟩ := readText_map hitem hs (ho s rfl) hne
      rw [Option.filter_some, if_pos (decide_eq_true hne), Option.map_eq_some_iff]
      constructor
      · rintro ⟨text, htext, hsame⟩ s' hs' -
        obtain rfl := Option.some.inj hs'
        obtain ⟨htext, haddress⟩ := Option.filter_eq_some_iff.mp htext
        refine ⟨hlost text htext hsame, ?_⟩
        rw [← hsame, Utf16.decode_encode]
        exact List.isPrefixOf_iff_prefix.mp haddress
      · intro h
        obtain ⟨hkept, haddress⟩ := h s rfl hne
        refine ⟨_, Option.filter_eq_some_iff.mpr ⟨hread.mpr hkept, ?_⟩, Utf16.encode_decode hs rfl⟩
        exact List.isPrefixOf_iff_prefix.mpr haddress

lemma canonical_shown (hc : Documented crates streams) (h : Canonical parseUrl t raw) :
    (∃ p, Coordinator.fromCanonical crates raw = some p ∧ Shows p t) ↔ Legible t := by
  obtain ⟨hok, hraw⟩ := canonicalTerms_eq_ok.mp h.1
  obtain ⟨htitleAt, himageAt, hdescriptionAt, htitleTrim, himageTrim, hdescriptionTrim⟩ := wire_texts h.2
  have hserde : crates.serde raw = (wire t).mapM serdeItem := by
    rw [hraw]
    exact hc.serde_tuple _ (wire_plain hok) (List.cons_ne_nil _ _)
  have htitleNe : t.title ≠ [] := htitleTrim ▸ hok.title.1
  have htitle : ∀ s ∈ some t.title, trim s = s ∧ s ≠ [] := by
    intro s hs
    obtain rfl := Option.some.inj hs
    exact ⟨htitleTrim, htitleNe⟩
  constructor
  · rintro ⟨p, hp, hshows⟩
    obtain ⟨items, hitems, -, htitleRead, hdescriptionRead, himageRead⟩ := preview_eq_some.mp hp
    rw [hserde] at hitems
    obtain ⟨hvalid, rfl⟩ := mapM_serdeItem.mp hitems
    refine ⟨hvalid, ?_, ?_, ?_⟩
    · refine (readText_kept (o := some t.title) htitleAt hvalid htitle).mp ?_ _ rfl
      rw [htitleRead, Option.map_some, hshows.title]
    · refine (readText_kept hdescriptionAt hvalid hdescriptionTrim).mp ?_
      rw [hdescriptionRead, hshows.description]
    · refine (readText_picture himageAt hvalid himageTrim).mp ?_
      rw [himageRead, hshows.image]
  · intro hlegible
    obtain ⟨title, htitleRead, hsame⟩ := Option.map_eq_some_iff.mp
      ((readText_kept (o := some t.title) htitleAt hlegible.texts htitle).mpr fun s hs => Option.some.inj hs ▸ hlegible.title)
    refine ⟨⟨title, _, _⟩, preview_eq_some.mpr ⟨_, ?_, ?_, htitleRead, rfl, rfl⟩, hsame, ?_, ?_⟩
    · rw [hserde]
      exact mapM_serdeItem.mpr ⟨hlegible.texts, rfl⟩
    · rw [List.length_map]
      exact (by decide : 10 ≤ 11)
    · exact (readText_kept hdescriptionAt hlegible.texts hdescriptionTrim).mpr hlegible.description
    · exact (readText_picture himageAt hlegible.texts himageTrim).mpr hlegible.image

end Peal.Live.Page
