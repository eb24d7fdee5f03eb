import Peal.Actions.Serialisation

namespace Peal.Actions.Serialisation
open Peal.Fallible Peal.Doubles Peal.JsRender
open Peal.JsJson (quoteUnits)

/-! # The JSON value a canonical text stands for -/

mutual

/-- With keys in order, undefined properties dropped and one zero; none where the value has no place in JSON. -/
def normal : JsValue → Option JsJson.Value
  | .null => some .null
  | .bool b => some (.bool b)
  | .num x => if JsDecimals.isFinite x then some (.num x) else none
  | .negativeZero => some (.num (.ofRat 0))
  | .str s => some (.str s)
  | .arr items => (normalItems items).map .arr
  | .obj fields => (normalFields fields).map fun fs => .obj (fs.insertionSort keyOrder)
  | .undefined => none
  | .bigint _ => none
  | .classInstance _ => none
  | .other _ => none

def normalItem : Option JsValue → Option JsJson.Value
  | none => none
  | some x => normal x

def normalItems : List (Option JsValue) → Option (List JsJson.Value)
  | [] => some []
  | x :: items => do
    let w ← normalItem x
    let ws ← normalItems items
    return w :: ws

def normalField : JsText × JsValue → Option (List (JsText × JsJson.Value))
  | (_, .undefined) => some []
  | (key, value) => (normal value).map fun w => [(key, w)]

def normalFields : List (JsText × JsValue) → Option (List (JsText × JsJson.Value))
  | [] => some []
  | f :: fields => do
    let l ← normalField f
    let rest ← normalFields fields
    return l ++ rest

end

section Shapes

variable {items : List (Option JsValue)} {ws : List JsJson.Value} {fields : List (JsText × JsValue)}
  {l : List (JsText × JsJson.Value)} {f : JsText × JsValue} {key : JsText} {w : JsJson.Value}

lemma normalItems_eq_some : normalItems items = some ws ↔ items.map normalItem = ws.map some := by
  induction items generalizing ws with
  | nil => cases ws <;> simp [normalItems]
  | cons x items ih =>
    rw [normalItems]
    simp only [Option.bind_eq_bind, Option.bind_eq_some_iff, Option.pure_def, Option.some.injEq, ih]
    constructor
    · rintro ⟨w, hw, rest, hrest, rfl⟩
      rw [List.map_cons, List.map_cons, hw, hrest]
    · intro h
      cases ws with
      | nil => cases h
      | cons w ws =>
        rw [List.map_cons, List.map_cons, List.cons.injEq] at h
        exact ⟨w, h.1, ws, h.2, rfl⟩

lemma normalField_undefined (h : f.2 = .undefined) : normalField f = some [] := by
  obtain ⟨key, value⟩ := f
  cases h
  rw [normalField]

lemma normalField_defined (h : f.2 ≠ .undefined) : normalField f = (normal f.2).map fun w => [(f.1, w)] := by
  obtain ⟨key, value⟩ := f
  exact normalField.eq_2 key value h

lemma normalFields_cons (h : normalFields (f :: fields) = some l) :
    (f.2 = .undefined ∧ normalFields fields = some l) ∨
      ∃ w rest, f.2 ≠ .undefined ∧ normal f.2 = some w ∧ normalFields fields = some rest ∧ l = (f.1, w) :: rest := by
  rw [normalFields] at h
  simp only [Option.bind_eq_bind, Option.bind_eq_some_iff, Option.pure_def, Option.some.injEq] at h
  obtain ⟨first, hfirst, rest, hrest, rfl⟩ := h
  by_cases hf : f.2 = .undefined
  · rw [normalField_undefined hf] at hfirst
    obtain rfl := Option.some.inj hfirst
    exact .inl ⟨hf, hrest⟩
  · rw [normalField_defined hf, Option.map_eq_some_iff] at hfirst
    obtain ⟨w, hw, rfl⟩ := hfirst
    exact .inr ⟨w, rest, hf, hw, hrest, rfl⟩

lemma normalFields_mem (h : normalFields fields = some l) :
    (key, w) ∈ l ↔ ∃ value, (key, value) ∈ fields ∧ value ≠ .undefined ∧ normal value = some w := by
  induction fields generalizing l with
  | nil =>
    rw [normalFields, Option.some.injEq] at h
    simp [← h]
  | cons f fields ih =>
    obtain ⟨first, value⟩ := f
    obtain ⟨hf, hrest⟩ | ⟨u, rest, hf, hu, hrest, rfl⟩ := normalFields_cons h
    · rw [ih hrest]
      simp only [List.mem_cons, Prod.mk.injEq]
      dsimp only at hf
      grind
    · simp only [List.mem_cons, Prod.mk.injEq, ih hrest]
      dsimp only at hf hu
      grind

lemma normalFields_keys (h : normalFields fields = some l) : (l.map Prod.fst).Sublist (fields.map Prod.fst) := by
  induction fields generalizing l with
  | nil =>
    rw [normalFields, Option.some.injEq] at h
    rw [← h]
    exact List.nil_sublist _
  | cons f fields ih =>
    obtain ⟨-, hrest⟩ | ⟨w, rest, -, -, hrest, rfl⟩ := normalFields_cons h
    · exact (ih hrest).cons _
    · exact (ih hrest).cons_cons _

lemma normalFields_isSome : (∃ l, normalFields fields = some l) ↔
    ∀ f ∈ fields, f.2 ≠ .undefined → ∃ w, normal f.2 = some w := by
  induction fields with
  | nil => simp [normalFields]
  | cons f fields ih =>
    rw [List.forall_mem_cons, ← ih]
    constructor
    · rintro ⟨l, hl⟩
      obtain ⟨hf, hrest⟩ | ⟨w, rest, -, hw, hrest, -⟩ := normalFields_cons hl
      · exact ⟨fun hne => absurd hf hne, l, hrest⟩
      · exact ⟨fun _ => ⟨w, hw⟩, rest, hrest⟩
    · rintro ⟨hf, rest, hrest⟩
      by_cases hu : f.2 = .undefined
      · exact ⟨_, by rw [normalFields, normalField_undefined hu, hrest]; rfl⟩
      · obtain ⟨w, hw⟩ := hf hu
        exact ⟨_, by rw [normalFields, normalField_defined hu, hw, hrest]; rfl⟩

lemma normalItems_isSome : (∃ ws, normalItems items = some ws) ↔ ∀ x ∈ items, ∃ w, normalItem x = some w := by
  induction items with
  | nil => simp [normalItems]
  | cons x items ih =>
    rw [List.forall_mem_cons, ← ih, normalItems]
    simp only [Option.bind_eq_bind, Option.bind_eq_some_iff, Option.pure_def, Option.some.injEq]
    constructor
    · rintro ⟨-, w, hw, ws, hws, -⟩
      exact ⟨⟨w, hw⟩, ws, hws⟩
    · rintro ⟨⟨w, hw⟩, ws, hws⟩
      exact ⟨_, w, hw, ws, hws, rfl⟩

/-- A value has a place in JSON when it holds nothing that is refused and its arrays have no holes. -/
theorem normal_isSome (v : JsValue) : (∃ w, normal v = some w) ↔ refused v = false ∧ sparse v = false := by
  induction v using JsValue.ind with
  | undefined => simp [normal, refused]
  | null => simp [normal, refused, sparse]
  | bool b => simp [normal, refused, sparse]
  | num x => by_cases hx : JsDecimals.isFinite x = true <;> simp [normal, refused, sparse, hx]
  | negativeZero => simp [normal, refused, sparse]
  | bigint n => simp [normal, refused]
  | str s => simp [normal, refused, sparse]
  | classInstance fields => simp [normal, refused]
  | other type => simp [normal, refused]
  | arr items ih =>
    have hsome : (∃ w, normal (.arr items) = some w) ↔ ∃ ws, normalItems items = some ws := by
      simp only [normal, Option.map_eq_some_iff]
      exact ⟨fun ⟨_, ws, hws, _⟩ => ⟨ws, hws⟩, fun ⟨ws, hws⟩ => ⟨_, ws, hws, rfl⟩⟩
    rw [hsome, normalItems_isSome, refused, sparse, Bool.eq_false_iff, Bool.eq_false_iff, Ne, Ne, refusedItems_iff,
      sparseItems_iff]
    constructor
    · intro hall
      refine ⟨?_, ?_⟩
      · rintro ⟨x, hx, hrefused⟩
        have hfalse := ((ih x hx).mp (hall _ hx)).1
        rw [hrefused] at hfalse
        cases hfalse
      · rintro (hhole | ⟨x, hx, hsparse⟩)
        · obtain ⟨w, hw⟩ := hall none hhole
          rw [normalItem] at hw
          cases hw
        · have hfalse := ((ih x hx).mp (hall _ hx)).2
          rw [hsparse] at hfalse
          cases hfalse
    · rintro ⟨hrefused, hsparse⟩ x hx
      cases x with
      | none => exact absurd (.inl hx) hsparse
      | some x =>
        refine (ih x hx).mpr ⟨?_, ?_⟩
        · exact Bool.eq_false_iff.mpr fun h => hrefused ⟨x, hx, h⟩
        · exact Bool.eq_false_iff.mpr fun h => hsparse (.inr ⟨x, hx, h⟩)
  | obj fields ih =>
    have hsome : (∃ w, normal (.obj fields) = some w) ↔ ∃ l, normalFields fields = some l := by
      simp only [normal, Option.map_eq_some_iff]
      exact ⟨fun ⟨_, l, hl, _⟩ => ⟨l, hl⟩, fun ⟨l, hl⟩ => ⟨_, l, hl, rfl⟩⟩
    rw [hsome, normalFields_isSome, refused, sparse, Bool.eq_false_iff, Bool.eq_false_iff, Ne, Ne, refusedFields_iff,
      sparseFields_iff]
    constructor
    · intro hall
      refine ⟨?_, ?_⟩
      · rintro ⟨f, hf, hne, hrefused⟩
        have hfalse := ((ih f hf).mp (hall f hf hne)).1
        rw [hrefused] at hfalse
        cases hfalse
      · rintro ⟨f, hf, hsparse⟩
        have hne : f.2 ≠ .undefined := by
          intro heq
          rw [heq, sparse] at hsparse
          cases hsparse
        have hfalse := ((ih f hf).mp (hall f hf hne)).2
        rw [hsparse] at hfalse
        cases hfalse
    · rintro ⟨hrefused, hsparse⟩ f hf hne
      refine (ih f hf).mpr ⟨?_, ?_⟩
      · exact Bool.eq_false_iff.mpr fun h => hrefused ⟨f, hf, hne, h⟩
      · exact Bool.eq_false_iff.mpr fun h => hsparse ⟨f, hf, h⟩

end Shapes

/-! ### What is written -/

section Encoding

variable {fields : List (JsText × JsValue)} {l : List (JsText × JsJson.Value)} {path : JsText} {f : JsText × JsValue}

lemma encField_undefined (h : f.2 = .undefined) : encField f path = none := by
  obtain ⟨key, value⟩ := f
  cases h
  rw [encField]

lemma encField_defined (h : f.2 ≠ .undefined) : encField f path =
    some (f.1, (enc f.2 (fieldPath path f.1)).map fun text => quoteUnits f.1 ++ ':' :: text) := by
  obtain ⟨key, value⟩ := f
  exact encField.eq_2 path key value h

lemma encItem_some {x : JsValue} (h : x ≠ .undefined) : encItem (some x) path = enc x path :=
  encItem.eq_3 path x h

lemma finiteFields_iff : finiteFields l = true ↔ ∀ f ∈ l, finite f.2 = true := by
  induction l with
  | nil => simp [finiteFields]
  | cons f l ih =>
    have hf : finiteField f = finite f.2 := by rw [finiteField]
    rw [finiteFields, Bool.and_eq_true, ih, hf, List.forall_mem_cons]

lemma renderFields_eq_map (l : List (JsText × JsJson.Value)) : renderFields l = l.map renderField := by
  induction l with
  | nil => rw [renderFields, List.map_nil]
  | cons f l ih => rw [renderFields, ih, List.map_cons]

lemma text_zero : JsDecimals.text (.ofRat 0) = ['0'] := by
  have hzero : IsDouble 0 := by exact_mod_cast isDouble_intCast (n := 0) (by decide)
  rw [Double.ofRat_of_nearest hzero hzero.exact, JsDecimals.text_finite, if_pos rfl]

lemma finite_zero : JsDecimals.isFinite (.ofRat 0) = true := by
  have hzero : IsDouble 0 := by exact_mod_cast isDouble_intCast (n := 0) (by decide)
  rw [Double.ofRat_of_nearest hzero hzero.exact]
  rfl

/-- Where a value has a place in JSON, its text is that of the JSON value. -/
theorem enc_normal (v : JsValue) {w : JsJson.Value} (h : normal v = some w) :
    finite w = true ∧ ∀ path, enc v path = .ok (render w) := by
  induction v using JsValue.ind generalizing w with
  | undefined => cases h
  | null =>
    rw [normal] at h
    obtain rfl := Option.some.inj h
    exact ⟨rfl, fun _ => rfl⟩
  | bool b =>
    rw [normal] at h
    obtain rfl := Option.some.inj h
    cases b <;> exact ⟨rfl, fun _ => rfl⟩
  | num x =>
    rw [normal] at h
    by_cases hx : JsDecimals.isFinite x = true
    · rw [if_pos hx] at h
      obtain rfl := Option.some.inj h
      exact ⟨hx, fun path => by rw [enc, if_pos hx, render]⟩
    · rw [if_neg hx] at h
      cases h
  | negativeZero =>
    rw [normal] at h
    obtain rfl := Option.some.inj h
    exact ⟨finite_zero, fun path => by rw [enc, render, text_zero]; rfl⟩
  | bigint n => cases h
  | str s =>
    rw [normal] at h
    obtain rfl := Option.some.inj h
    exact ⟨rfl, fun _ => by rw [enc, render]⟩
  | classInstance fields => cases h
  | other type => cases h
  | arr items ih =>
    rw [normal, Option.map_eq_some_iff] at h
    obtain ⟨ws, hws, rfl⟩ := h
    have hitems : finiteItems ws = true ∧ ∀ path i, encItems items path i = .ok (renderItems ws) := by
      induction items generalizing ws with
      | nil =>
        rw [normalItems] at hws
        obtain rfl := Option.some.inj hws
        exact ⟨rfl, fun _ _ => by rw [encItems, renderItems]⟩
      | cons x items ih' =>
        rw [normalItems] at hws
        simp only [Option.bind_eq_bind, Option.bind_eq_some_iff, Option.pure_def, Option.some.injEq] at hws
        obtain ⟨u, hu, rest, hrest, rfl⟩ := hws
        obtain ⟨hfinite, htexts⟩ := ih' (fun y hy => ih y (List.mem_cons_of_mem _ hy)) rest hrest
        cases x with
        | none => cases hu
        | some x =>
          rw [normalItem] at hu
          have hne : x ≠ .undefined := by
            rintro rfl
            cases hu
          obtain ⟨hx, htext⟩ := ih x List.mem_cons_self hu
          refine ⟨by rw [finiteItems, hx, hfinite]; rfl, fun path i => ?_⟩
          rw [encItems, encItem_some hne, htext, htexts, renderItems]
          rfl
    refine ⟨hitems.1, fun path => ?_⟩
    rw [enc, hitems.2, render]
    rfl
  | obj fields ih =>
    rw [normal, Option.map_eq_some_iff] at h
    obtain ⟨l, hl, rfl⟩ := h
    have hfields : (∀ g ∈ l, finite g.2 = true) ∧ ∀ path, encFields fields path =
        l.map fun g => (g.1, Except.ok (renderField g)) := by
      induction fields generalizing l with
      | nil =>
        rw [normalFields] at hl
        obtain rfl := Option.some.inj hl
        exact ⟨fun g hg => (nomatch hg), fun _ => by rw [encFields, List.map_nil]⟩
      | cons f fields ih' =>
        obtain ⟨hf, hrest⟩ | ⟨u, rest, hf, hu, hrest, rfl⟩ := normalFields_cons hl
        · obtain ⟨hfinite, htexts⟩ := ih' (fun g hg => ih g (List.mem_cons_of_mem _ hg)) l hrest
          exact ⟨hfinite, fun path => by rw [encFields, encField_undefined hf, htexts]; rfl⟩
        · obtain ⟨hfinite, htexts⟩ := ih' (fun g hg => ih g (List.mem_cons_of_mem _ hg)) rest hrest
          obtain ⟨hu', htext⟩ := ih f List.mem_cons_self hu
          refine ⟨List.forall_mem_cons.mpr ⟨hu', hfinite⟩, fun path => ?_⟩
          rw [encFields, encField_defined hf, htext, htexts, List.map_cons, renderField]
          rfl
    refine ⟨?_, fun path => ?_⟩
    · rw [finite, finiteFields_iff]
      exact fun g hg => hfields.1 g ((List.mem_insertionSort _).mp hg)
    · have hsort := List.map_insertionSort (r := keyOrder) (s := keyOrder)
        (fun g : JsText × JsJson.Value => (g.1, (Except.ok (renderField g) : Except JsText (List Char)))) l
        fun _ _ _ _ => Iff.rfl
      have hparts : ((l.insertionSort keyOrder).map fun g : JsText × JsJson.Value =>
          (g.1, (Except.ok (renderField g) : Except JsText (List Char)))).mapM Prod.snd =
          .ok (renderFields (l.insertionSort keyOrder)) := by
        rw [renderFields_eq_map]
        induction l.insertionSort keyOrder with
        | nil => rfl
        | cons g rest ih' =>
          rw [List.map_cons, List.mapM_cons, ih']
          rfl
      rw [enc, hfields.2, ← hsort, hparts, render]
      rfl

lemma mapM_snd_ok {α β ε : Type} {parts : List (α × Except ε β)} :
    (∃ texts, parts.mapM Prod.snd = .ok texts) ↔ ∀ e ∈ parts, ∃ text, e.2 = .ok text := by
  induction parts with
  | nil => exact ⟨fun _ e he => absurd he List.not_mem_nil, fun _ => ⟨[], rfl⟩⟩
  | cons e parts ih =>
    rw [List.forall_mem_cons, ← ih, List.mapM_cons]
    simp only [bind_eq_ok, pure_eq_ok]
    constructor
    · rintro ⟨-, text, ht, texts, hts, -⟩
      exact ⟨⟨text, ht⟩, texts, hts⟩
    · rintro ⟨⟨text, ht⟩, texts, hts⟩
      exact ⟨_, text, ht, texts, hts, rfl⟩

lemma encFields_mem {e : JsText × Except JsText (List Char)} :
    e ∈ encFields fields path ↔ ∃ f ∈ fields, f.2 ≠ .undefined ∧
      e = (f.1, (enc f.2 (fieldPath path f.1)).map fun text => quoteUnits f.1 ++ ':' :: text) := by
  induction fields with
  | nil => simp [encFields]
  | cons f fields ih =>
    rw [encFields, List.mem_append, ih]
    simp only [List.mem_cons, exists_eq_or_imp]
    by_cases hf : f.2 = .undefined
    · rw [encField_undefined hf]
      simp [hf]
    · rw [encField_defined hf]
      simp [hf]

lemma map_isOk {α β ε : Type} {x : Except ε α} {g : α → β} : (∃ b, x.map g = .ok b) ↔ ∃ a, x = .ok a := by
  cases x <;> simp [Except.map]

/-- What `canonicalize` throws for: whatever holds something that is refused. -/
theorem enc_isOk (v : JsValue) (path : JsText) : (∃ text, enc v path = .ok text) ↔ refused v = false := by
  induction v using JsValue.ind generalizing path with
  | undefined => simp [enc, refused, fail]
  | null => simp [enc, refused]
  | bool b => cases b <;> simp [enc, refused]
  | num x => by_cases hx : JsDecimals.isFinite x = true <;> simp [enc, refused, hx, fail]
  | negativeZero => simp [enc, refused]
  | bigint n => simp [enc, refused, fail]
  | str s => simp [enc, refused]
  | classInstance fields => simp [enc, refused, fail]
  | other type => simp [enc, refused, fail]
  | arr items ih =>
    have hitems : ∀ i, (∃ texts, encItems items path i = .ok texts) ↔ refusedItems items = false := by
      induction items with
      | nil => exact fun i => ⟨fun _ => rfl, fun _ => ⟨[], by rw [encItems]⟩⟩
      | cons x items ih' =>
        intro i
        have hx : ∀ path, (∃ text, encItem x path = .ok text) ↔ refusedItem x = false := by
          intro path
          cases x with
          | none => exact ⟨fun _ => by rw [refusedItem], fun _ => ⟨[], by rw [encItem]⟩⟩
          | some x =>
            by_cases hne : x = .undefined
            · subst hne
              simp [encItem, refusedItem, refused, fail]
            · rw [encItem_some hne, refusedItem]
              exact ih x List.mem_cons_self path
        have hrest := ih' (fun y hy => ih y (List.mem_cons_of_mem _ hy)) (i + 1)
        rw [encItems, refusedItems, Bool.or_eq_false_iff, ← hx (itemPath path i), ← hrest]
        simp only [bind_eq_ok, pure_eq_ok]
        constructor
        · rintro ⟨-, text, ht, texts, hts, -⟩
          exact ⟨⟨text, ht⟩, texts, hts⟩
        · rintro ⟨⟨text, ht⟩, texts, hts⟩
          exact ⟨_, text, ht, texts, hts, rfl⟩
    rw [enc, map_isOk, refused]
    exact hitems 0
  | obj fields ih =>
    rw [enc, map_isOk, refused, mapM_snd_ok, Bool.eq_false_iff, Ne, refusedFields_iff]
    constructor
    · rintro hall ⟨f, hf, hne, hrefused⟩
      have hok := hall _ ((List.mem_insertionSort _).mpr (encFields_mem.mpr ⟨f, hf, hne, rfl⟩))
      rw [map_isOk, ih f hf, hrefused] at hok
      cases hok
    · intro hnone e he
      obtain ⟨f, hf, hne, rfl⟩ := encFields_mem.mp ((List.mem_insertionSort _).mp he)
      rw [map_isOk, ih f hf]
      exact Bool.eq_false_iff.mpr fun h => hnone ⟨f, hf, hne, h⟩

end Encoding

end Peal.Actions.Serialisation
