import Mathlib.Tactic

namespace Peal.Runs

/-! # Runs of a partial step function -/

variable {ε σ α : Type}

/-- One attempted step. A refused step changes nothing. -/
def advance (step : σ → α → Except ε σ) (s : σ) (a : α) : σ :=
  match step s a with
  | .ok s' => s'
  | .error _ => s

def exec (step : σ → α → Except ε σ) (s : σ) (as : List α) : σ :=
  as.foldl (advance step) s

/-- `ok` holds of every step of the run, each taken with the state it starts from. -/
def Along (step : σ → α → Except ε σ) (ok : σ → α → Prop) : σ → List α → Prop
  | _, [] => True
  | s, a :: as => ok s a ∧ Along step ok (advance step s a) as

/-- `P` holds of every state the run passes through, its first and last included. -/
def Throughout (step : σ → α → Except ε σ) (P : σ → Prop) (s : σ) (as : List α) : Prop :=
  ∀ n, P (exec step s (as.take n))

variable (step : σ → α → Except ε σ) {I P : σ → Prop} {ok : σ → α → Prop}

instance decidableAlong [∀ s a, Decidable (ok s a)] : ∀ (s : σ) (as : List α), Decidable (Along step ok s as)
  | _, [] => isTrue trivial
  | s, a :: as =>
    have := decidableAlong (advance step s a) as
    inferInstanceAs (Decidable (ok s a ∧ Along step ok (advance step s a) as))

lemma advance_of_ok {s s' : σ} {a : α} (h : step s a = .ok s') : advance step s a = s' := by
  simp [advance, h]

lemma advance_of_error {s : σ} {a : α} {e : ε} (h : step s a = .error e) : advance step s a = s := by
  simp [advance, h]

lemma advance_induct {s : σ} {a : α} (hs : P s) (h : ∀ s', step s a = .ok s' → P s') :
    P (advance step s a) := by
  unfold advance
  cases hst : step s a with
  | ok s' => exact h s' hst
  | error e => exact hs

@[simp] lemma exec_nil (s : σ) : exec step s [] = s := rfl

@[simp] lemma exec_cons (s : σ) (a : α) (as : List α) :
    exec step s (a :: as) = exec step (advance step s a) as := rfl

lemma exec_append (s : σ) (as bs : List α) :
    exec step s (as ++ bs) = exec step (exec step s as) bs :=
  List.foldl_append

lemma exec_concat (s : σ) (as : List α) (a : α) :
    exec step s (as ++ [a]) = advance step (exec step s as) a := by
  rw [exec_append, exec_cons, exec_nil]

lemma exec_of_refused {s : σ} {as : List α} (h : ∀ a ∈ as, ∃ e, step s a = .error e) :
    exec step s as = s := by
  induction as with
  | nil => rfl
  | cons a as ih =>
    obtain ⟨e, he⟩ := h a List.mem_cons_self
    rw [exec_cons, advance_of_error step he]
    exact ih (fun b hb => h b (List.mem_cons_of_mem a hb))

/-- A run started over after its first `m` steps goes on where it stopped, when the state it stopped
in refuses those steps. -/
theorem exec_resume {s : σ} {as : List α} {m : Nat}
    (h : ∀ a ∈ as.take m, ∃ e, step (exec step s (as.take m)) a = .error e) (k : Nat) :
    exec step (exec step s (as.take m)) (as.take k) = exec step s (as.take (max m k)) := by
  rcases Nat.le_total k m with hkm | hmk
  · rw [max_eq_left hkm]
    apply exec_of_refused
    intro a ha
    rw [← min_eq_left hkm, ← List.take_take] at ha
    exact h a (List.mem_of_mem_take ha)
  · have hsplit : as.take k = as.take m ++ (as.take k).drop m := by
      conv_lhs => rw [← List.take_append_drop m (as.take k), List.take_take, min_eq_left hmk]
    rw [max_eq_right hmk, hsplit, exec_append, exec_append, exec_of_refused step h]

theorem exec_invariant (hstep : ∀ s a s', I s → step s a = .ok s' → I s') {s : σ} (hs : I s)
    (as : List α) : I (exec step s as) := by
  induction as generalizing s with
  | nil => exact hs
  | cons a as ih => exact ih (advance_induct step hs (fun s' => hstep s a s' hs))

theorem exec_invariant_along (hstep : ∀ s a s', I s → ok s a → step s a = .ok s' → I s') {s : σ}
    (hs : I s) {as : List α} (h : Along step ok s as) : I (exec step s as) := by
  induction as generalizing s with
  | nil => exact hs
  | cons a as ih => exact ih (advance_induct step hs (fun s' => hstep s a s' hs h.1)) h.2

lemma along_of_forall {as : List α} (h : ∀ a ∈ as, ∀ s, ok s a) (s : σ) : Along step ok s as := by
  induction as generalizing s with
  | nil => trivial
  | cons a as ih =>
    exact ⟨h a List.mem_cons_self s, ih (fun b hb => h b (List.mem_cons_of_mem a hb)) _⟩

lemma along_and {ok' : σ → α → Prop} {s : σ} {as : List α} (h : Along step ok s as)
    (h' : Along step ok' s as) : Along step (fun s a => ok s a ∧ ok' s a) s as := by
  induction as generalizing s with
  | nil => trivial
  | cons a as ih => exact ⟨⟨h.1, h'.1⟩, ih h.2 h'.2⟩

lemma along_of_invariant {pre : σ → α → Prop} (hinv : ∀ s a s', I s → step s a = .ok s' → I s')
    (h : ∀ s a, I s → pre s a → ok s a) {s : σ} (hs : I s) {as : List α} (hpre : Along step pre s as) :
    Along step ok s as := by
  induction as generalizing s with
  | nil => trivial
  | cons a as ih => exact ⟨h s a hs hpre.1, ih (advance_induct step hs fun s' => hinv s a s' hs) hpre.2⟩

lemma along_take {s : σ} {as : List α} (h : Along step ok s as) (n : Nat) :
    Along step ok s (as.take n) := by
  induction as generalizing s n with
  | nil => simpa using h
  | cons a as ih =>
    cases n with
    | zero => trivial
    | succ n => exact ⟨h.1, ih h.2 n⟩

lemma along_last {s : σ} {as : List α} {a : α} (h : Along step ok s (as ++ [a])) : ok (exec step s as) a := by
  induction as generalizing s with
  | nil => exact h.1
  | cons b as ih => exact ih h.2

lemma along_iff {s : σ} {as : List α} :
    Along step ok s as ↔ ∀ before a rest, as = before ++ a :: rest → ok (exec step s before) a := by
  induction as generalizing s with
  | nil =>
    refine ⟨fun _ before a rest heq => ?_, fun _ => trivial⟩
    exact absurd heq.symm (List.append_ne_nil_of_right_ne_nil before (List.cons_ne_nil a rest))
  | cons a as ih =>
    constructor
    · rintro ⟨ha, h⟩ before b rest heq
      cases before with
      | nil =>
        obtain ⟨rfl, -⟩ := List.cons.inj heq
        exact ha
      | cons a' before =>
        obtain ⟨rfl, htail⟩ := List.cons.inj heq
        exact ih.mp h before b rest htail
    · intro h
      exact ⟨h [] a as rfl, ih.mpr fun before b rest heq => h (a :: before) b rest (by rw [heq]; rfl)⟩

theorem throughout_along (hstep : ∀ s a s', I s → ok s a → step s a = .ok s' → I s') {s : σ}
    (hs : I s) {as : List α} (h : Along step ok s as) : Throughout step I s as :=
  fun n => exec_invariant_along step hstep hs (along_take step h n)

lemma throughout_cons {s : σ} {a : α} {as : List α} :
    Throughout step P s (a :: as) ↔ P s ∧ Throughout step P (advance step s a) as := by
  constructor
  · intro h
    exact ⟨h 0, fun n => h (n + 1)⟩
  · rintro ⟨hs, h⟩ n
    cases n with
    | zero => exact hs
    | succ n => exact h n

/-- Where every attempted step keeps `P` exactly under `ok`, whole runs do too, be it under an assumption `pre` on
each step. -/
theorem throughout_iff_along_under {pre : σ → α → Prop}
    (hinv : ∀ s a s', I s → pre s a → step s a = .ok s' → I s')
    (hok : ∀ s a, I s → pre s a → P s → (P (advance step s a) ↔ ok s a)) {s : σ} (hs : I s) (hp : P s)
    {as : List α} (hpre : Along step pre s as) : Throughout step P s as ↔ Along step ok s as := by
  induction as generalizing s with
  | nil => exact ⟨fun _ => trivial, fun _ n => by simpa using hp⟩
  | cons a as ih =>
    obtain ⟨hnow, hlater⟩ := hpre
    have hnext : I (advance step s a) := advance_induct step hs (fun s' => hinv s a s' hs hnow)
    rw [throughout_cons]
    constructor
    · rintro ⟨-, h⟩
      have hpa : P (advance step s a) := h 0
      exact ⟨(hok s a hs hnow hp).mp hpa, (ih hnext hpa hlater).mp h⟩
    · rintro ⟨ha, h⟩
      exact ⟨hp, (ih hnext ((hok s a hs hnow hp).mpr ha) hlater).mpr h⟩

theorem throughout_iff_along (hinv : ∀ s a s', I s → step s a = .ok s' → I s')
    (hok : ∀ s a, I s → P s → (P (advance step s a) ↔ ok s a)) {s : σ} (hs : I s) (hp : P s)
    (as : List α) : Throughout step P s as ↔ Along step ok s as :=
  throughout_iff_along_under step (fun s a s' hI _ => hinv s a s' hI) (fun s a hI _ => hok s a hI) hs hp
    (along_of_forall step (fun _ _ _ => trivial) s)

/-! ### The moments of a run -/

lemma exec_take_succ {s : σ} {as : List α} {n : Nat} {a : α} (h : as[n]? = some a) :
    exec step s (as.take (n + 1)) = advance step (exec step s (as.take n)) a := by
  rw [List.take_add_one, h]
  exact exec_concat step s (as.take n) a

lemma exec_take_end {s : σ} {as : List α} {n : Nat} (h : as[n]? = none) :
    exec step s (as.take (n + 1)) = exec step s (as.take n) := by
  rw [List.take_add_one, h, Option.toList_none, List.append_nil]

lemma along_getElem {s : σ} {as : List α} :
    Along step ok s as ↔ ∀ n a, as[n]? = some a → ok (exec step s (as.take n)) a := by
  induction as generalizing s with
  | nil =>
    refine ⟨fun _ n a h => ?_, fun _ => trivial⟩
    cases h
  | cons b as ih =>
    constructor
    · rintro ⟨hb, h⟩ n a hn
      cases n with
      | zero =>
        obtain rfl := Option.some.inj hn
        exact hb
      | succ n => exact ih.mp h n a hn
    · intro h
      exact ⟨h 0 b rfl, ih.mpr fun n a hn => h (n + 1) a hn⟩

/-- What holds of the state before and the one after each step, and carries over, holds between any two moments. -/
theorem moments_related {R : σ → σ → Prop} (hrefl : ∀ s, R s s) (htrans : ∀ s t u, R s t → R t u → R s u) {s : σ}
    {as : List α} (hstep : ∀ n a, as[n]? = some a →
      R (exec step s (as.take n)) (advance step (exec step s (as.take n)) a)) {m n : Nat} (h : m ≤ n) :
    R (exec step s (as.take m)) (exec step s (as.take n)) := by
  induction n, h using Nat.le_induction with
  | base => exact hrefl _
  | succ n _ ih =>
    refine htrans _ _ _ ih ?_
    cases hn : as[n]? with
    | none =>
      rw [exec_take_end step hn]
      exact hrefl _
    | some a =>
      rw [exec_take_succ step hn]
      exact hstep n a hn

lemma along_of_growing {β : Type} (f : σ → List β) (hgrow : ∀ s a s', step s a = .ok s' → f s <+: f s') {s : σ}
    {as : List α} (h : (f (exec step s as)).Nodup) : Along step (fun s a => (f (advance step s a)).Nodup) s as := by
  induction as generalizing s with
  | nil => trivial
  | cons a as ih =>
    rw [exec_cons] at h
    have hprefix : f (advance step s a) <+: f (exec step (advance step s a) as) :=
      exec_invariant step (I := fun s' => f (advance step s a) <+: f s')
        (fun _ _ _ hbefore hstep => hbefore.trans (hgrow _ _ _ hstep)) List.prefix_rfl as
    exact ⟨h.sublist hprefix.sublist, ih h⟩

end Peal.Runs
