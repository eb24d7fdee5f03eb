import Peal.Actions.NormalForms

namespace Peal.Actions.Serialisation
open Peal.Fallible Peal.Doubles Peal.JsRender

/-! # Texts and what they are read as -/

section Objects

variable {fields fields' : List (JsText × JsValue)} {l l' : List (JsText × JsJson.Value)} {key : JsText} {w : JsJson.Value}

lemma mem_normal (hkeys : (fields.map Prod.fst).Nodup) (h : normalFields fields = some l) :
    (key, w) ∈ l ↔ lookup fields key ≠ .undefined ∧ normal (lookup fields key) = some w := by
  rw [normalFields_mem h]
  constructor
  · rintro ⟨value, hmem, hne, hw⟩
    rw [lookup_of_mem hkeys hmem]
    exact ⟨hne, hw⟩
  · rintro ⟨hne, hw⟩
    exact ⟨_, mem_of_lookup hne, hne, hw⟩

lemma normalFields_lookup (hkeys : (fields.map Prod.fst).Nodup) : (∃ l, normalFields fields = some l) ↔
    ∀ key, lookup fields key ≠ .undefined → ∃ w, normal (lookup fields key) = some w := by
  rw [normalFields_isSome]
  constructor
  · intro h key hne
    exact h _ (mem_of_lookup hne) hne
  · rintro h ⟨key, value⟩ hmem hne
    have hvalue := lookup_of_mem hkeys hmem
    rw [← hvalue] at hne ⊢
    exact h key hne

lemma keyOrder_keys {α : Type} {f g : JsText × α} (h : keyOrder f g) (h' : keyOrder g f) : f.1 = g.1 := by
  have hsame := le_antisymm h h'
  exact List.map_injective_iff.mpr (fun _ _ heq => UInt16.toNat_inj.mp heq) hsame

instance {α : Type} : Std.Total (keyOrder (α := α)) := ⟨fun _ _ => le_total _ _⟩

instance {α : Type} : IsTrans (JsText × α) keyOrder := ⟨fun _ _ _ h h' => le_trans h h'⟩

lemma sorted_perm {α : Type} {m m' : List (JsText × α)} (hkeys : (m.map Prod.fst).Nodup) (h : m.Perm m') :
    m.insertionSort keyOrder = m'.insertionSort keyOrder := by
  refine Rows.insertionSort_perm h fun f hf g hg hfg hgf => ?_
  exact List.inj_on_of_nodup_map hkeys hf hg (keyOrder_keys hfg hgf)

end Objects

section Alike

variable {v v' : JsValue} {w : JsJson.Value}

lemma alike_undefined (h : Alike v v') : v = .undefined ↔ v' = .undefined := by
  cases h <;> simp

lemma alike_sparse (h : Alike v v') (hplain : Plain v') (hsparse : sparse v' = true) : sparse v = true := by
  induction h with
  | arr length holes same ih =>
    rw [Plain, plainItems_iff] at hplain
    rw [sparse, sparseItems_iff] at hsparse ⊢
    rcases hsparse with hhole | ⟨y, hy, hsparse⟩
    · obtain ⟨i, hi⟩ := List.mem_iff_getElem?.mp hhole
      exact .inl (List.mem_of_getElem? ((holes i).mpr hi))
    · obtain ⟨i, hi⟩ := List.mem_iff_getElem?.mp hy
      have hlt := (List.getElem?_eq_some_iff.mp hi).1
      rw [← length] at hlt
      have hget := List.getElem?_eq_getElem hlt
      cases hx : (_ : List (Option JsValue))[i] with
      | none =>
        rw [hx] at hget
        rw [(holes i).mp hget] at hi
        cases hi
      | some x =>
        rw [hx] at hget
        exact .inr ⟨x, List.mem_of_getElem? hget, ih i x y hget hi (hplain y hy) hsparse⟩
  | obj same ih =>
    rw [Plain, plainFields_iff] at hplain
    rw [sparse, sparseFields_iff] at hsparse ⊢
    obtain ⟨⟨key, value⟩, hf, hsparse⟩ := hsparse
    have hvalue := lookup_of_mem hplain.1 hf
    have hx := ih key (hvalue ▸ hplain.2 _ hf) (hvalue ▸ hsparse)
    refine ⟨_, mem_of_lookup ?_, hx⟩
    intro heq
    rw [heq, sparse] at hx
    cases hx
  | classInstance same ih => rw [sparse] at hsparse; cases hsparse
  | _ => exact hsparse

lemma normalItems_congr {items items' : List (Option JsValue)} (h : items.map normalItem = items'.map normalItem) :
    normalItems items = normalItems items' := by
  induction items generalizing items' with
  | nil =>
    cases items' with
    | nil => rfl
    | cons x items' => cases h
  | cons x items ih =>
    cases items' with
    | nil => cases h
    | cons y items' =>
      rw [List.map_cons, List.map_cons, List.cons.injEq] at h
      rw [normalItems, normalItems, h.1, ih h.2]

/-- Values that are alike stand for one JSON value. -/
theorem alike_normal (h : Alike v v') (hplain : Plain v) (hplain' : Plain v') : normal v = normal v' := by
  induction h with
  | zeros h =>
    rw [normal, normal, h, if_pos finite_zero]
  | zeros' h =>
    rw [normal, normal, h, if_pos finite_zero]
  | arr length holes same ih =>
    rename_i items items'
    rw [Plain, plainItems_iff] at hplain hplain'
    have hmap : items.map normalItem = items'.map normalItem := by
      refine List.ext_getElem (by rw [List.length_map, List.length_map, length]) fun i hi hi' => ?_
      rw [List.length_map] at hi hi'
      rw [List.getElem_map, List.getElem_map]
      have hget := List.getElem?_eq_getElem hi
      have hget' := List.getElem?_eq_getElem hi'
      cases hx : items[i] with
      | none =>
        rw [hx] at hget
        rw [(holes i).mp hget] at hget'
        rw [← Option.some.inj hget']
      | some x =>
        rw [hx] at hget
        cases hy : items'[i] with
        | none =>
          rw [hy] at hget'
          rw [(holes i).mpr hget'] at hget
          cases hget
        | some y =>
          rw [hy] at hget'
          rw [normalItem, normalItem]
          exact ih i x y hget hget' (hplain x (List.mem_of_getElem? hget)) (hplain' y (List.mem_of_getElem? hget'))
    rw [normal, normal, normalItems_congr hmap]
  | obj same ih =>
    rename_i fields fields'
    rw [Plain, plainFields_iff] at hplain hplain'
    have hvalues : ∀ key, lookup fields key ≠ .undefined →
        lookup fields' key ≠ .undefined ∧ normal (lookup fields key) = normal (lookup fields' key) := by
      intro key hne
      have hne' := (alike_undefined (same key)).not.mp hne
      exact ⟨hne', ih key (hplain.2 _ (mem_of_lookup hne)) (hplain'.2 _ (mem_of_lookup hne'))⟩
    have hvalues' : ∀ key, lookup fields' key ≠ .undefined →
        lookup fields key ≠ .undefined ∧ normal (lookup fields key) = normal (lookup fields' key) := by
      intro key hne'
      have hne := (alike_undefined (same key)).not.mpr hne'
      exact ⟨hne, (hvalues key hne).2⟩
    rw [normal, normal]
    cases hl : normalFields fields with
    | none =>
      cases hl' : normalFields fields' with
      | none => rfl
      | some l' =>
        have hsome : ∃ l, normalFields fields = some l := by
          refine (normalFields_lookup hplain.1).mpr fun key hne => ?_
          obtain ⟨hne', hsame⟩ := hvalues key hne
          rw [hsame]
          exact (normalFields_lookup hplain'.1).mp ⟨l', hl'⟩ key hne'
        obtain ⟨l, hl''⟩ := hsome
        rw [hl] at hl''
        cases hl''
    | some l =>
      have hsome : ∃ l', normalFields fields' = some l' := by
        refine (normalFields_lookup hplain'.1).mpr fun key hne' => ?_
        obtain ⟨hne, hsame⟩ := hvalues' key hne'
        rw [← hsame]
        exact (normalFields_lookup hplain.1).mp ⟨l, hl⟩ key hne
      obtain ⟨l', hl'⟩ := hsome
      have hkeys : (l.map Prod.fst).Nodup := hplain.1.sublist (normalFields_keys hl)
      have hkeys' : (l'.map Prod.fst).Nodup := hplain'.1.sublist (normalFields_keys hl')
      have hperm : l.Perm l' := by
        rw [List.perm_ext_iff_of_nodup (List.Nodup.of_map _ hkeys) (List.Nodup.of_map _ hkeys')]
        rintro ⟨key, w⟩
        rw [mem_normal hplain.1 hl, mem_normal hplain'.1 hl']
        constructor
        · rintro ⟨hne, hw⟩
          obtain ⟨hne', hsame⟩ := hvalues key hne
          exact ⟨hne', hsame ▸ hw⟩
        · rintro ⟨hne', hw⟩
          obtain ⟨hne, hsame⟩ := hvalues' key hne'
          exact ⟨hne, hsame ▸ hw⟩
      rw [hl', Option.map_some, Option.map_some, sorted_perm hkeys hperm]
  | classInstance same ih => rw [normal, normal]
  | _ => rfl

end Alike

/-! ### Back from a text -/

section Reading

variable {v : JsValue} {w : JsJson.Value}

lemma normal_null (h : normal v = some .null) : v = .null := by
  cases v <;> simp_all [normal]

lemma normal_bool {b : Bool} (h : normal v = some (.bool b)) : v = .bool b := by
  cases v <;> simp_all [normal]

lemma normal_num {x : Double} (h : normal v = some (.num x)) : v = .num x ∨ v = .negativeZero ∧ x = .ofRat 0 := by
  cases v <;> simp_all [normal]

lemma normal_str {s : JsText} (h : normal v = some (.str s)) : v = .str s := by
  cases v <;> simp_all [normal]

lemma normal_arr {ws : List JsJson.Value} (h : normal v = some (.arr ws)) :
    ∃ items, v = .arr items ∧ normalItems items = some ws := by
  cases v <;> simp_all [normal]

lemma normal_obj {fs : List (JsText × JsJson.Value)} (h : normal v = some (.obj fs)) :
    ∃ fields l, v = .obj fields ∧ normalFields fields = some l ∧ fs = l.insertionSort keyOrder := by
  cases v with
  | obj fields =>
    rw [normal, Option.map_eq_some_iff] at h
    obtain ⟨l, hl, heq⟩ := h
    injection heq with hfs
    exact ⟨fields, l, rfl, hl, hfs.symm⟩
  | _ => simp [normal] at h

/-- Values that stand for one JSON value are alike. -/
theorem normal_alike (v : JsValue) {v' : JsValue} (h : normal v = some w) (h' : normal v' = some w) (hplain : Plain v)
    (hplain' : Plain v') : Alike v v' := by
  induction v using JsValue.ind generalizing v' w with
  | undefined => cases h
  | null =>
    rw [normal, Option.some.injEq] at h
    rw [← h] at h'
    rw [normal_null h']
    exact .null
  | bool b =>
    rw [normal, Option.some.injEq] at h
    rw [← h] at h'
    rw [normal_bool h']
    exact .bool b
  | num x =>
    rw [normal] at h
    split_ifs at h
    rw [Option.some.injEq] at h
    rw [← h] at h'
    rcases normal_num h' with rfl | ⟨rfl, hzero⟩
    · exact .num x
    · exact .zeros hzero
  | negativeZero =>
    rw [normal, Option.some.injEq] at h
    rw [← h] at h'
    rcases normal_num h' with rfl | ⟨rfl, -⟩
    · exact .zeros' rfl
    · exact .negativeZero
  | bigint n => cases h
  | str s =>
    rw [normal, Option.some.injEq] at h
    rw [← h] at h'
    rw [normal_str h']
    exact .str s
  | classInstance fields => cases h
  | other type => cases h
  | arr items ih =>
    rw [normal, Option.map_eq_some_iff] at h
    obtain ⟨ws, hws, rfl⟩ := h
    obtain ⟨items', rfl, hws'⟩ := normal_arr h'
    rw [normalItems_eq_some] at hws hws'
    rw [Plain, plainItems_iff] at hplain hplain'
    have hsame : items.map normalItem = items'.map normalItem := hws.trans hws'.symm
    have hholes : ∀ {l : List (Option JsValue)}, l.map normalItem = ws.map some → ∀ i : Nat, l[i]? ≠ some none := by
      intro l hl i hi
      have hget := congrArg (fun m => m[i]?) hl
      simp only [List.getElem?_map, hi, Option.map_some, normalItem] at hget
      cases hw : ws[i]? <;> simp [hw] at hget
    refine .arr (by simpa using congrArg List.length hsame) ?_ ?_
    · exact fun i => iff_of_false (hholes hws i) (hholes hws' i)
    · intro i x y hx hy
      have hget := congrArg (fun m => m[i]?) hws
      have hget' := congrArg (fun m => m[i]?) hws'
      simp only [List.getElem?_map, hx, hy, Option.map_some, normalItem] at hget hget'
      cases hw : ws[i]? with
      | none =>
        rw [hw] at hget
        cases hget
      | some u =>
        rw [hw, Option.map_some, Option.some.injEq] at hget hget'
        have hx' := List.mem_of_getElem? hx
        exact ih x hx' hget hget' (hplain x hx') (hplain' y (List.mem_of_getElem? hy))
  | obj fields ih =>
    rw [normal, Option.map_eq_some_iff] at h
    obtain ⟨l, hl, rfl⟩ := h
    obtain ⟨fields', l', rfl, hl', hsorted⟩ := normal_obj h'
    rw [Plain, plainFields_iff] at hplain hplain'
    have hmem : ∀ e, e ∈ l ↔ e ∈ l' := fun e => by
      rw [← List.mem_insertionSort keyOrder (l := l), hsorted, List.mem_insertionSort]
    refine .obj fun key => ?_
    by_cases hne : lookup fields key = .undefined
    · have hne' : lookup fields' key = .undefined := by
        by_contra hdefined
        obtain ⟨u, hu⟩ := (normalFields_lookup hplain'.1).mp ⟨l', hl'⟩ key hdefined
        have hlisted := (hmem _).mpr ((mem_normal hplain'.1 hl').mpr ⟨hdefined, hu⟩)
        exact ((mem_normal hplain.1 hl).mp hlisted).1 hne
      rw [hne, hne']
      exact .undefined
    · obtain ⟨u, hu⟩ := (normalFields_lookup hplain.1).mp ⟨l, hl⟩ key hne
      have hlisted := (hmem _).mp ((mem_normal hplain.1 hl).mpr ⟨hne, hu⟩)
      obtain ⟨hne', hu'⟩ := (mem_normal hplain'.1 hl').mp hlisted
      exact ih _ (mem_of_lookup hne) hu hu' (hplain.2 _ (mem_of_lookup hne)) (hplain'.2 _ (mem_of_lookup hne'))

mutual

lemma sparse_ofJson : (w : JsJson.Value) → sparse (ofJson w) = false
  | .null => by rw [ofJson, sparse]
  | .bool _ => by rw [ofJson, sparse]
  | .num _ => by rw [ofJson, sparse]
  | .str _ => by rw [ofJson, sparse]
  | .arr items => by rw [ofJson, sparse, sparse_ofItems items]
  | .obj fields => by rw [ofJson, sparse, sparse_ofFields fields]

lemma sparse_ofItems : (ws : List JsJson.Value) → sparseItems (ofItems ws) = false
  | [] => by rw [ofItems, sparseItems]
  | w :: ws => by rw [ofItems, sparseItems, sparseItem, sparse_ofJson w, sparse_ofItems ws]; rfl

lemma sparse_ofField : (f : JsText × JsJson.Value) → sparseField (ofField f) = false
  | (_, w) => by rw [ofField, sparseField, sparse_ofJson w]

lemma sparse_ofFields : (l : List (JsText × JsJson.Value)) → sparseFields (ofFields l) = false
  | [] => by rw [ofFields, sparseFields]
  | f :: l => by
    rw [ofFields]
    split_ifs
    · exact sparse_ofFields l
    · rw [sparseFields, sparse_ofField f, sparse_ofFields l]
      rfl

end

lemma ofField_fst (f : JsText × JsJson.Value) : (ofField f).1 = f.1 := by rw [ofField]

lemma ofFields_keys (l : List (JsText × JsJson.Value)) :
    ((ofFields l).map Prod.fst).Nodup ∧ ∀ key, key ∈ (ofFields l).map Prod.fst → key ∈ l.map Prod.fst := by
  induction l with
  | nil => exact ⟨by rw [ofFields]; exact List.nodup_nil, fun key h => by rw [ofFields] at h; exact h⟩
  | cons f l ih =>
    rw [ofFields]
    split_ifs with hf
    · exact ⟨ih.1, fun key h => List.mem_cons_of_mem _ (ih.2 key h)⟩
    · rw [List.map_cons, ofField_fst, List.nodup_cons]
      refine ⟨⟨fun h => hf (ih.2 _ h), ih.1⟩, fun key h => ?_⟩
      rcases List.mem_cons.mp h with rfl | hrest
      · exact List.mem_cons_self
      · exact List.mem_cons_of_mem _ (ih.2 key hrest)

mutual

lemma plain_ofJson : (w : JsJson.Value) → Plain (ofJson w)
  | .null => by rw [ofJson, Plain]; trivial
  | .bool _ => by rw [ofJson, Plain]; trivial
  | .num _ => by rw [ofJson, Plain]; trivial
  | .str _ => by rw [ofJson, Plain]; trivial
  | .arr items => by rw [ofJson, Plain]; exact plain_ofItems items
  | .obj fields => by rw [ofJson, Plain]; exact ⟨(ofFields_keys fields).1, plain_ofFields fields⟩

lemma plain_ofItems : (ws : List JsJson.Value) → PlainItems (ofItems ws)
  | [] => by rw [ofItems, PlainItems]; trivial
  | w :: ws => by rw [ofItems, PlainItems, PlainItem]; exact ⟨plain_ofJson w, plain_ofItems ws⟩

lemma plain_ofField : (f : JsText × JsJson.Value) → PlainField (ofField f)
  | (_, w) => by rw [ofField, PlainField]; exact plain_ofJson w

lemma plain_ofFields : (l : List (JsText × JsJson.Value)) → PlainFields (ofFields l)
  | [] => by rw [ofFields, PlainFields]; trivial
  | f :: l => by
    rw [ofFields]
    split_ifs
    · exact plain_ofFields l
    · rw [PlainFields]
      exact ⟨plain_ofField f, plain_ofFields l⟩

end

lemma ofJson_defined (w : JsJson.Value) : ofJson w ≠ .undefined := by
  cases w <;> simp [ofJson]

lemma normal_ofItems {ws : List JsJson.Value} (h : ∀ w ∈ ws, normal (ofJson w) = some w) :
    normalItems (ofItems ws) = some ws := by
  induction ws with
  | nil => rw [ofItems, normalItems]
  | cons w ws ih =>
    rw [List.forall_mem_cons] at h
    rw [ofItems, normalItems, normalItem, h.1, ih h.2]
    rfl

lemma normal_ofFields {l : List (JsText × JsJson.Value)} (hkeys : (l.map Prod.fst).Nodup)
    (h : ∀ f ∈ l, normal (ofJson f.2) = some f.2) : normalFields (ofFields l) = some l := by
  induction l with
  | nil => rw [ofFields, normalFields]
  | cons f l ih =>
    rw [List.map_cons, List.nodup_cons] at hkeys
    rw [List.forall_mem_cons] at h
    have hsnd : (ofField f).2 = ofJson f.2 := by rw [ofField]
    rw [ofFields, if_neg hkeys.1, normalFields, normalField_defined (hsnd ▸ ofJson_defined f.2), hsnd, h.1,
      ih hkeys.2 h.2, ofField_fst]
    rfl

/-- The JSON value of a value is its own. -/
theorem normal_ofJson (v : JsValue) (h : normal v = some w) (hplain : Plain v) : normal (ofJson w) = some w := by
  induction v using JsValue.ind generalizing w with
  | undefined => cases h
  | null =>
    rw [normal, Option.some.injEq] at h
    rw [← h, ofJson, normal]
  | bool b =>
    rw [normal, Option.some.injEq] at h
    rw [← h, ofJson, normal]
  | num x =>
    rw [normal] at h
    split_ifs at h with hx
    rw [Option.some.injEq] at h
    rw [← h, ofJson, normal, if_pos hx]
  | negativeZero =>
    rw [normal, Option.some.injEq] at h
    rw [← h, ofJson, normal, if_pos finite_zero]
  | bigint n => cases h
  | str s =>
    rw [normal, Option.some.injEq] at h
    rw [← h, ofJson, normal]
  | classInstance fields => cases h
  | other type => cases h
  | arr items ih =>
    rw [normal, Option.map_eq_some_iff] at h
    obtain ⟨ws, hws, rfl⟩ := h
    rw [Plain, plainItems_iff] at hplain
    rw [normalItems_eq_some] at hws
    have hitems : ∀ w ∈ ws, normal (ofJson w) = some w := by
      intro w hw
      have hlisted : some w ∈ items.map normalItem := hws ▸ List.mem_map_of_mem hw
      obtain ⟨item, hitem, hnormal⟩ := List.mem_map.mp hlisted
      cases item with
      | none => cases hnormal
      | some x => exact ih x hitem hnormal (hplain x hitem)
    rw [ofJson, normal, normal_ofItems hitems, Option.map_some]
  | obj fields ih =>
    rw [normal, Option.map_eq_some_iff] at h
    obtain ⟨l, hl, rfl⟩ := h
    rw [Plain, plainFields_iff] at hplain
    have hkeys : (l.map Prod.fst).Nodup := hplain.1.sublist (normalFields_keys hl)
    have hperm := List.perm_insertionSort keyOrder l
    have hsorted : ((l.insertionSort keyOrder).map Prod.fst).Nodup := (hperm.map Prod.fst).nodup_iff.mpr hkeys
    have hvalues : ∀ f ∈ l.insertionSort keyOrder, normal (ofJson f.2) = some f.2 := by
      rintro ⟨key, w⟩ hf
      obtain ⟨value, hmem, -, hw⟩ := (normalFields_mem hl).mp ((List.mem_insertionSort _).mp hf)
      exact ih _ hmem hw (hplain.2 _ hmem)
    rw [ofJson, normal, normal_ofFields hsorted hvalues, Option.map_some, sorted_perm hsorted hperm]

end Reading

/-! ### What a text says of its value -/

section Texts

variable {v v' : JsValue} {text text' : List Char}

/-- `canonicalize` throws, or writes a text that is read as the value. -/
def Faithful (v : JsValue) : Prop :=
  ∀ text, canonicalize v = .ok text → ∃ w, JsJson.parse text = some w ∧ Alike (ofJson w) v

/-- No array in it has a hole, or it is refused. -/
def Fits (v : JsValue) : Prop := refused v = true ∨ sparse v = false

lemma canonicalize_normal (h : sparse v = false) (htext : canonicalize v = .ok text) :
    ∃ w, normal v = some w ∧ finite w = true ∧ text = render w := by
  have hok := (enc_isOk v (units "$")).mp ⟨text, htext⟩
  obtain ⟨w, hw⟩ := (normal_isSome v).mpr ⟨hok, h⟩
  obtain ⟨hfinite, henc⟩ := enc_normal v hw
  rw [canonicalize, henc, Except.ok.injEq] at htext
  exact ⟨w, hw, hfinite, htext.symm⟩

lemma faithful_iff (hplain : Plain v) : Faithful v ↔ Fits v := by
  constructor
  · intro h
    by_contra hfits
    rw [Fits, not_or, Bool.not_eq_true, Bool.not_eq_false] at hfits
    obtain ⟨text, htext⟩ := (enc_isOk v (units "$")).mpr hfits.1
    obtain ⟨w, -, halike⟩ := h text htext
    have hsparse := alike_sparse halike hplain hfits.2
    rw [sparse_ofJson] at hsparse
    cases hsparse
  · intro hfits text htext
    have hok := (enc_isOk v (units "$")).mp ⟨text, htext⟩
    have hsparse : sparse v = false := hfits.resolve_left (by rw [hok]; decide)
    obtain ⟨w, hw, hfinite, rfl⟩ := canonicalize_normal hsparse htext
    exact ⟨w, parse_render hfinite, normal_alike (ofJson w) (normal_ofJson v hw hplain) hw (plain_ofJson w) hplain⟩

lemma texts_eq_iff (hplain : Plain v) (hplain' : Plain v') (hsparse : sparse v = false) (hsparse' : sparse v' = false)
    (htext : canonicalize v = .ok text) (htext' : canonicalize v' = .ok text') : text = text' ↔ Alike v v' := by
  obtain ⟨w, hw, hfinite, rfl⟩ := canonicalize_normal hsparse htext
  obtain ⟨w', hw', hfinite', rfl⟩ := canonicalize_normal hsparse' htext'
  constructor
  · intro h
    obtain rfl := render_injective hfinite hfinite' h
    exact normal_alike v hw hw' hplain hplain'
  · intro h
    rw [alike_normal h hplain hplain', hw', Option.some.injEq] at hw
    rw [hw]

end Texts

end Peal.Actions.Serialisation
