import Mathlib.Data.List.Sort
import Mathlib.Tactic

namespace Peal.Rows

/-! # Lists of rows and the update of one of them -/

variable {α β : Type}

lemma set_split {rows : List α} {i : Nat} {row : α} (h : rows[i]? = some row) :
    ∃ front back, rows = front ++ row :: back ∧ front.length = i ∧
      ∀ row', rows.set i row' = front ++ row' :: back := by
  obtain ⟨hi, hrow⟩ := List.getElem?_eq_some_iff.mp h
  refine ⟨rows.take i, rows.drop (i + 1), ?_, by simp; omega, ?_⟩
  · rw [← hrow, List.getElem_cons_drop, List.take_append_drop]
  · intro row'
    rw [List.set_eq_take_append_cons_drop, if_pos hi]

lemma filterMap_set_eq {f : α → Option β} {rows : List α} {i : Nat} {row row' : α}
    (h : rows[i]? = some row) (hf : f row' = f row) : (rows.set i row').filterMap f = rows.filterMap f := by
  obtain ⟨front, back, hrows, -, hset⟩ := set_split h
  rw [hset, hrows, List.filterMap_append, List.filterMap_append, List.filterMap_cons,
    List.filterMap_cons, hf]

lemma map_set_eq {f : α → β} {rows : List α} {i : Nat} {row row' : α} (h : rows[i]? = some row)
    (hf : f row' = f row) : (rows.set i row').map f = rows.map f := by
  obtain ⟨front, back, hrows, -, hset⟩ := set_split h
  rw [hset, hrows, List.map_append, List.map_append, List.map_cons, List.map_cons, hf]

lemma countP_set_eq {p : α → Bool} {rows : List α} {i : Nat} {row row' : α}
    (h : rows[i]? = some row) (hp : p row' = p row) : (rows.set i row').countP p = rows.countP p := by
  obtain ⟨front, back, hrows, -, hset⟩ := set_split h
  rw [hset, hrows, List.countP_append, List.countP_append, List.countP_cons, List.countP_cons, hp]

lemma countP_set_add {p : α → Bool} {rows : List α} {i : Nat} {row row' : α}
    (h : rows[i]? = some row) (hp : p row = false) (hp' : p row' = true) :
    (rows.set i row').countP p = rows.countP p + 1 := by
  obtain ⟨front, back, hrows, -, hset⟩ := set_split h
  rw [hset, hrows, List.countP_append, List.countP_append, List.countP_cons, List.countP_cons, hp, hp']
  simp
  omega

lemma forall_mem_set {P : α → Prop} {rows : List α} {i : Nat} {row' : α}
    (h : ∀ row ∈ rows, P row) (h' : P row') : ∀ row ∈ rows.set i row', P row := by
  intro row hrow
  rcases List.mem_or_eq_of_mem_set hrow with hmem | heq
  · exact h row hmem
  · exact heq ▸ h'

lemma insertionSort_perm {r : α → α → Prop} [DecidableRel r] [Std.Total r] [IsTrans α r] {rows rows' : List α}
    (h : rows.Perm rows') (hr : ∀ a ∈ rows, ∀ b ∈ rows, r a b → r b a → a = b) :
    rows.insertionSort r = rows'.insertionSort r := by
  have hsorted := ((List.perm_insertionSort r rows).trans h).trans (List.perm_insertionSort r rows').symm
  have hanti : ∀ a b, a ∈ rows.insertionSort r → b ∈ rows'.insertionSort r → r a b → r b a → a = b := by
    intro a b ha hb hab hba
    have ha' : a ∈ rows := (List.mem_insertionSort _).mp ha
    have hb' : b ∈ rows := h.mem_iff.mpr ((List.mem_insertionSort _).mp hb)
    exact hr a ha' b hb' hab hba
  exact List.Perm.eq_of_pairwise hanti (List.pairwise_insertionSort _ rows) (List.pairwise_insertionSort _ rows')
    hsorted

lemma map_eq_of_map_eq {γ : Type} {f : α → β} {g : α → γ} (h : ∀ a b, f a = f b → g a = g b) {rows rows' : List α}
    (hmap : rows.map f = rows'.map f) : rows.map g = rows'.map g := by
  induction rows generalizing rows' with
  | nil =>
    have hnil : rows' = [] := by simpa using hmap.symm
    rw [hnil]
  | cons a rows ih =>
    cases rows' with
    | nil => simp at hmap
    | cons b rows' =>
      simp only [List.map_cons, List.cons.injEq] at hmap ⊢
      exact ⟨h a b hmap.1, ih hmap.2⟩

lemma find?_same {rows rows' : List α} {p : α → Bool}
    (hunique : ∀ x ∈ rows, ∀ y ∈ rows, p x = true → p y = true → x = y)
    (hsame : ∀ x, p x = true → (x ∈ rows ↔ x ∈ rows')) : rows'.find? p = rows.find? p := by
  cases h : rows.find? p with
  | none =>
    rw [List.find?_eq_none] at h ⊢
    exact fun x hx hp => h x ((hsame x hp).mpr hx) hp
  | some x =>
    have hp := List.find?_some h
    have hx := List.mem_of_find?_eq_some h
    cases h' : rows'.find? p with
    | none => exact absurd hp (List.find?_eq_none.mp h' x ((hsame x hp).mp hx))
    | some y =>
      have hpy := List.find?_some h'
      rw [hunique x hx y ((hsame y hpy).mpr (List.mem_of_find?_eq_some h')) hp hpy]

lemma filter_same {rows rows' : List α} {p q : α → Bool}
    (h : (rows'.filter fun row => !q row) = rows.filter fun row => !q row)
    (hp : ∀ row, p row = true → q row = false) : rows'.filter p = rows.filter p := by
  have hp' : ∀ l : List α, l.filter p = (l.filter fun row => !q row).filter p := by
    intro l
    rw [List.filter_filter]
    refine List.filter_congr fun row _ => ?_
    cases hrow : p row with
    | false => rfl
    | true => rw [hp row hrow]; rfl
  rw [hp', h, ← hp']

lemma countP_same_iff {rows rows' : List α} {q : α → Bool}
    (h : (rows'.filter fun row => !q row) = rows.filter fun row => !q row) (p : α → Bool) :
    rows.countP p = rows'.countP p ↔
      (rows.countP fun row => q row && p row) = rows'.countP fun row => q row && p row := by
  have hsplit : ∀ l : List α, l.countP p =
      (l.countP fun row => q row && p row) + (l.filter fun row => !q row).countP p := by
    intro l
    rw [List.countP_eq_countP_filter_add l p q, List.countP_filter]
    simp only [Bool.and_comm]
  rw [hsplit rows, hsplit rows', h]
  exact Nat.add_right_cancel_iff

section Sums

/-- The sum of `f` over the rows that `p` selects. -/
def sumWhere (p : α → Bool) (f : α → Nat) (rows : List α) : Nat := ((rows.filter p).map f).sum

@[simp] lemma sumWhere_nil (p : α → Bool) (f : α → Nat) : sumWhere p f [] = 0 := rfl

lemma sumWhere_cons (p : α → Bool) (f : α → Nat) (row : α) (rows : List α) :
    sumWhere p f (row :: rows) = (if p row then f row else 0) + sumWhere p f rows := by
  unfold sumWhere
  by_cases h : p row <;> simp [h]

lemma sumWhere_append (p : α → Bool) (f : α → Nat) (rows rows' : List α) :
    sumWhere p f (rows ++ rows') = sumWhere p f rows + sumWhere p f rows' := by
  simp [sumWhere]

lemma sumWhere_set {p : α → Bool} {f : α → Nat} {rows : List α} {i : Nat} {row : α}
    (h : rows[i]? = some row) (row' : α) :
    sumWhere p f (rows.set i row') + (if p row then f row else 0) =
      sumWhere p f rows + (if p row' then f row' else 0) := by
  obtain ⟨front, back, hrows, -, hset⟩ := set_split h
  rw [hset, hrows, sumWhere_append, sumWhere_append, sumWhere_cons, sumWhere_cons]
  omega

lemma sumWhere_map (p : β → Bool) (f : β → Nat) (g : α → β) (rows : List α) :
    sumWhere p f (rows.map g) = sumWhere (fun row => p (g row)) (fun row => f (g row)) rows := by
  induction rows with
  | nil => rfl
  | cons row rows ih => rw [List.map_cons, sumWhere_cons, sumWhere_cons, ih]

lemma sumWhere_all {p : α → Bool} (f : α → Nat) {rows : List α} (h : ∀ row ∈ rows, p row = true) :
    sumWhere p f rows = (rows.map f).sum := by
  unfold sumWhere
  rw [List.filter_eq_self.mpr h]

lemma le_sumWhere {p : α → Bool} {f : α → Nat} {rows : List α} {row : α} (hrow : row ∈ rows)
    (hp : p row = true) : f row ≤ sumWhere p f rows := by
  apply List.single_le_sum (fun _ _ => Nat.zero_le _)
  exact List.mem_map_of_mem (List.mem_filter.mpr ⟨hrow, hp⟩)

lemma sumWhere_le_and {p q : α → Bool} {f g : α → Nat} {rows : List α}
    (h : ∀ b ∈ rows, f b ≤ if q b then g b else 0) :
    sumWhere p f rows ≤ sumWhere (fun b => p b && q b) g rows := by
  induction rows with
  | nil => exact Nat.le_refl 0
  | cons b rows ih =>
    have hhead := h b List.mem_cons_self
    have htail := ih fun x hx => h x (List.mem_cons_of_mem b hx)
    rw [sumWhere_cons, sumWhere_cons]
    cases p b with
    | true =>
      rw [Bool.true_and, if_pos rfl]
      omega
    | false =>
      rw [Bool.false_and, if_neg Bool.false_ne_true]
      omega

lemma sumWhere_and_le {p q : α → Bool} {f : α → Nat} {rows : List α} :
    sumWhere (fun b => p b && q b) f rows ≤ sumWhere p f rows := by
  induction rows with
  | nil => exact Nat.le_refl 0
  | cons b rows ih =>
    rw [sumWhere_cons, sumWhere_cons]
    cases p b with
    | true =>
      rw [Bool.true_and, if_pos rfl]
      split_ifs
      · omega
      · omega
    | false =>
      rw [Bool.false_and, if_neg Bool.false_ne_true]
      omega

lemma sum_map_le_of_nodup {f : α → β} {g : β → Nat} {rows : List α} {pool : List β}
    (hnodup : (rows.map f).Nodup) (hpool : ∀ row ∈ rows, f row ∈ pool) :
    (rows.map fun row => g (f row)).sum ≤ (pool.map g).sum := by
  have hsub : (rows.map f).Subperm pool := by
    apply List.subperm_of_subset hnodup
    intro b hb
    obtain ⟨row, hrow, rfl⟩ := List.mem_map.mp hb
    exact hpool row hrow
  obtain ⟨mid, hperm, hmid⟩ := hsub
  calc (rows.map fun row => g (f row)).sum = ((rows.map f).map g).sum := by
        rw [List.map_map]
        rfl
    _ = (mid.map g).sum := (hperm.map g).sum_eq.symm
    _ ≤ (pool.map g).sum := (hmid.map g).sum_le_sum (fun _ _ => Nat.zero_le _)

end Sums

end Peal.Rows
