import Mathlib.Tactic

namespace Peal.Fallible

variable {ε α β : Type}

instance lawfulBEq_listChar : LawfulBEq (List Char) := inferInstance

/-- Go on only under `c`; otherwise the whole computation fails with `e`. -/
def require (c : Prop) [Decidable c] (e : ε) : Except ε Unit :=
  if c then .ok () else .error e

/-- The value of an optional, or the failure `e`. -/
def expect (o : Option α) (e : ε) : Except ε α :=
  match o with
  | some a => .ok a
  | none => .error e

/-- A `width`-bit machine result: `n` itself when it fits, the error otherwise. -/
def checked (e : ε) (width n : Nat) : Except ε Nat :=
  if n < 2 ^ width then .ok n else .error e

/-- Subtraction of unsigned integers that fails instead of wrapping. -/
def checkedSub (e : ε) (a b : Nat) : Except ε Nat :=
  if b ≤ a then .ok (a - b) else .error e

@[simp] lemma bind_eq_ok {x : Except ε α} {f : α → Except ε β} {b : β} :
    (x >>= f) = .ok b ↔ ∃ a, x = .ok a ∧ f a = .ok b := by
  cases x <;> simp [bind, Except.bind]

@[simp] lemma pure_eq_ok {a b : α} : (pure a : Except ε α) = .ok b ↔ a = b := by
  simp [pure, Except.pure]

@[simp] lemma map_eq_ok {x : Except ε α} {f : α → β} {b : β} :
    f <$> x = .ok b ↔ ∃ a, x = .ok a ∧ f a = b := by
  cases x <;> simp [Functor.map, Except.map]

lemma exceptMap_eq_ok {x : Except ε α} {f : α → β} {b : β} : x.map f = .ok b ↔ ∃ a, x = .ok a ∧ f a = b := by
  cases x <;> simp [Except.map]

lemma mapError_eq_ok {ε' : Type} {x : Except ε α} {f : ε → ε'} {a : α} : x.mapError f = .ok a ↔ x = .ok a := by
  cases x <;> simp [Except.mapError]

lemma toOption_eq_some {x : Except ε α} {a : α} : x.toOption = some a ↔ x = .ok a := by
  cases x <;> simp [Except.toOption]

@[simp] lemma throw_eq_ok {e : ε} {a : α} : (throw e : Except ε α) = .ok a ↔ False := by
  simp [throw, throwThe, MonadExceptOf.throw]

@[simp] lemma require_eq_ok {c : Prop} [Decidable c] {e : ε} {u : Unit} :
    require c e = .ok u ↔ c := by
  by_cases h : c <;> simp [require, h]

@[simp] lemma expect_eq_ok {o : Option α} {e : ε} {a : α} : expect o e = .ok a ↔ o = some a := by
  cases o <;> simp [expect]

@[simp] lemma checked_eq_ok {e : ε} {width n m : Nat} :
    checked e width n = .ok m ↔ n < 2 ^ width ∧ n = m := by
  by_cases h : n < 2 ^ width <;> simp [checked, h]

@[simp] lemma checkedSub_eq_ok {e : ε} {a b m : Nat} :
    checkedSub e a b = .ok m ↔ b ≤ a ∧ a - b = m := by
  by_cases h : b ≤ a <;> simp [checkedSub, h]

lemma bind_eq_error {x : Except ε α} {f : α → Except ε β} {e : ε} :
    (x >>= f) = .error e ↔ x = .error e ∨ ∃ a, x = .ok a ∧ f a = .error e := by
  cases x <;> simp [bind, Except.bind]

lemma pure_eq_error {a : α} {e : ε} : (pure a : Except ε α) = .error e ↔ False := by
  simp [pure, Except.pure]

lemma require_eq_error {c : Prop} [Decidable c] {e e' : ε} :
    require c e = .error e' ↔ ¬c ∧ e = e' := by
  by_cases h : c <;> simp [require, h]

lemma expect_eq_error {o : Option α} {e e' : ε} :
    expect o e = .error e' ↔ o = none ∧ e = e' := by
  cases o <;> simp [expect]

/-- Whether a computation succeeds at all. -/
def Succeeds (x : Except ε α) : Prop := ∃ a, x = .ok a

lemma succeeds_bind {x : Except ε α} {f : α → Except ε β} :
    Succeeds (x >>= f) ↔ ∃ a, x = .ok a ∧ Succeeds (f a) := by
  constructor
  · rintro ⟨b, hb⟩
    obtain ⟨a, ha, hf⟩ := bind_eq_ok.mp hb
    exact ⟨a, ha, b, hf⟩
  · rintro ⟨a, ha, b, hf⟩
    exact ⟨b, bind_eq_ok.mpr ⟨a, ha, hf⟩⟩

/-- Every failure of the computation is in `F`. -/
def FailsIn (x : Except ε α) (F : ε → Prop) : Prop := ∀ e, x = .error e → F e

section Failures

variable {F : ε → Prop}

lemma failsIn_bind {x : Except ε α} {f : α → Except ε β} (hx : FailsIn x F)
    (hf : ∀ a, x = .ok a → FailsIn (f a) F) : FailsIn (x >>= f) F := by
  intro e he
  rcases bind_eq_error.mp he with herror | ⟨a, ha, hfa⟩
  · exact hx e herror
  · exact hf a ha e hfa

lemma failsIn_pure (a : α) : FailsIn (pure a : Except ε α) F := fun _ he => (pure_eq_error.mp he).elim

lemma failsIn_require {c : Prop} [Decidable c] {e : ε} (h : ¬c → F e) : FailsIn (require c e) F := by
  intro e' he
  obtain ⟨hc, rfl⟩ := require_eq_error.mp he
  exact h hc

lemma failsIn_expect {o : Option α} {e : ε} (h : F e) : FailsIn (expect o e) F := by
  intro e' he
  obtain ⟨-, rfl⟩ := expect_eq_error.mp he
  exact h

end Failures

section Folds

variable {σ : Type} (f : σ → α → Except ε σ)

/-- A mapped loop succeeds when every element does, and collects the results in order. -/
theorem mapM_eq_ok {f : α → Except ε β} {as : List α} {bs : List β} :
    as.mapM f = .ok bs ↔ List.Forall₂ (fun a b => f a = .ok b) as bs := by
  induction as generalizing bs with
  | nil =>
    rw [List.mapM_nil, pure_eq_ok, List.forall₂_nil_left_iff]
    exact eq_comm
  | cons a as ih =>
    simp only [List.mapM_cons, bind_eq_ok, pure_eq_ok]
    constructor
    · rintro ⟨b, hb, bs', hbs, rfl⟩
      exact List.Forall₂.cons hb (ih.mp hbs)
    · intro h
      cases h with
      | cons hb hbs => exact ⟨_, hb, _, ih.mpr hbs, rfl⟩

theorem mapM_eq_some {f : α → Option β} {as : List α} {bs : List β} :
    as.mapM f = some bs ↔ List.Forall₂ (fun a b => f a = some b) as bs := by
  induction as generalizing bs with
  | nil =>
    rw [List.mapM_nil, Option.pure_def, Option.some.injEq, List.forall₂_nil_left_iff]
    exact eq_comm
  | cons a as ih =>
    simp only [List.mapM_cons, Option.bind_eq_bind, Option.bind_eq_some_iff, Option.pure_def, Option.some.injEq]
    constructor
    · rintro ⟨b, hb, bs, hbs, rfl⟩
      exact .cons hb (ih.mp hbs)
    · rintro (_ | ⟨hb, hbs⟩)
      exact ⟨_, hb, _, ih.mpr hbs, rfl⟩

lemma foldlM_cons_eq_ok {s t : σ} {a : α} {as : List α} :
    (a :: as).foldlM f s = .ok t ↔ ∃ s', f s a = .ok s' ∧ as.foldlM f s' = .ok t := by
  rw [List.foldlM_cons, bind_eq_ok]

/-- What every successful step of a loop keeps, the whole successful loop keeps. -/
theorem foldlM_invariant {P : σ → Prop} {as : List α}
    (hstep : ∀ s a s', a ∈ as → P s → f s a = .ok s' → P s') {s t : σ} (hs : P s)
    (h : as.foldlM f s = .ok t) : P t := by
  induction as generalizing s with
  | nil =>
    rw [List.foldlM_nil, pure_eq_ok] at h
    exact h ▸ hs
  | cons a as ih =>
    obtain ⟨s', ha, has⟩ := (foldlM_cons_eq_ok f).mp h
    refine ih (fun s b s' hb => hstep s b s' (List.mem_cons_of_mem a hb)) ?_ has
    exact hstep s a s' List.mem_cons_self hs ha

lemma foldlM_related {R : σ → σ → Prop} {S : α → α → Prop}
    (hcongr : ∀ s s' a a' t, R s s' → S a a' → f s a = .ok t → ∃ t', f s' a' = .ok t' ∧ R t t')
    {as bs : List α} (hab : List.Forall₂ S as bs) {s s' t : σ} (hs : R s s') (h : as.foldlM f s = .ok t) :
    ∃ t', bs.foldlM f s' = .ok t' ∧ R t t' := by
  induction hab generalizing s s' with
  | nil =>
    rw [List.foldlM_nil, pure_eq_ok] at h
    subst h
    exact ⟨s', rfl, hs⟩
  | cons ha _ ih =>
    obtain ⟨mid, hmid, hrest⟩ := (foldlM_cons_eq_ok f).mp h
    obtain ⟨mid', hmid', hR⟩ := hcongr _ _ _ _ _ hs ha hmid
    obtain ⟨t', ht', hRt⟩ := ih hR hrest
    exact ⟨t', (foldlM_cons_eq_ok f).mpr ⟨mid', hmid', ht'⟩, hRt⟩

/-- Where two successful steps can be swapped, up to an equivalence the steps respect, a successful loop
can be run in any order. -/
theorem foldlM_perm {R : σ → σ → Prop} (hR : Equivalence R)
    (hcongr : ∀ s s' a t, R s s' → f s a = .ok t → ∃ t', f s' a = .ok t' ∧ R t t')
    (hswap : ∀ s a b t u, f s a = .ok t → f t b = .ok u → ∃ t' u', f s b = .ok t' ∧ f t' a = .ok u' ∧ R u u')
    {as bs : List α} (hperm : as.Perm bs) {s t : σ} (h : as.foldlM f s = .ok t) :
    ∃ t', bs.foldlM f s = .ok t' ∧ R t t' := by
  have hsame {as : List α} {s s' t : σ} (hs : R s s') (h : as.foldlM f s = .ok t) :
      ∃ t', as.foldlM f s' = .ok t' ∧ R t t' := by
    refine foldlM_related f (S := Eq) (fun s s' a a' t hR heq ha => ?_) (List.forall₂_eq_eq_eq ▸ rfl) hs h
    subst heq
    exact hcongr s s' a t hR ha
  induction hperm generalizing s t with
  | nil => exact ⟨t, h, hR.refl t⟩
  | cons a _ ih =>
    obtain ⟨mid, hmid, hrest⟩ := (foldlM_cons_eq_ok f).mp h
    obtain ⟨t', ht', hRt⟩ := ih hrest
    exact ⟨t', (foldlM_cons_eq_ok f).mpr ⟨mid, hmid, ht'⟩, hRt⟩
  | swap a b as =>
    obtain ⟨mid, hb, hrest⟩ := (foldlM_cons_eq_ok f).mp h
    obtain ⟨u, ha, hrest⟩ := (foldlM_cons_eq_ok f).mp hrest
    obtain ⟨mid', u', ha', hb', hRu⟩ := hswap s b a mid u hb ha
    obtain ⟨t', ht', hRt⟩ := hsame hRu hrest
    exact ⟨t', (foldlM_cons_eq_ok f).mpr ⟨mid', ha', (foldlM_cons_eq_ok f).mpr ⟨u', hb', ht'⟩⟩, hRt⟩
  | trans _ _ ih₁ ih₂ =>
    obtain ⟨t₁, ht₁, hR₁⟩ := ih₁ h
    obtain ⟨t₂, ht₂, hR₂⟩ := ih₂ ht₁
    exact ⟨t₂, ht₂, hR.trans hR₁ hR₂⟩

end Folds

end Peal.Fallible
