import Peal.Library.Fallible

namespace Peal.Methods

/-! # Methods of a mutable object

A method that fails leaves behind whatever it had changed by then. -/

variable {ε σ α β : Type}

abbrev Method (ε σ α : Type) := EStateM ε σ α

/-- The method's side of a computation that touches no state. -/
def lift (x : Except ε α) : Method ε σ α := fun s =>
  match x with
  | .ok a => .ok a s
  | .error e => .error e s

/-- Run `close` when `body` is left, whichever way it is left. -/
def closing (close : σ → σ) (body : Method ε σ α) : Method ε σ α := fun s =>
  match body s with
  | .ok a s' => .ok a (close s')
  | .error e s' => .error e (close s')

/-- Run `body`, and where it fails run `undo` before passing the failure on. -/
def onFailure (undo : Method ε σ Unit) (body : Method ε σ α) : Method ε σ α := fun s =>
  match body s with
  | .ok a s' => .ok a s'
  | .error e s' =>
    match undo s' with
    | .ok _ s'' => .error e s''
    | .error e' s'' => .error e' s''

/-- Started in `s`, the method returns into `post` or fails into `failed`. -/
def Meets (m : Method ε σ α) (s : σ) (post : α → σ → Prop) (failed : ε → σ → Prop) : Prop :=
  match m.run s with
  | .ok a s' => post a s'
  | .error e s' => failed e s'

/-- The result of a method, and the object after it. -/
def outcome (m : Method ε σ α) (s : σ) : Except ε α × σ :=
  match m.run s with
  | .ok a s' => (.ok a, s')
  | .error e s' => (.error e, s')

/-- Call methods in turn, each on the object as the last one left it, and collect their results. -/
def inTurn : List (Method ε σ α) → σ → List (Except ε α) × σ
  | [], s => ([], s)
  | m :: ms, s =>
    let first := outcome m s
    let rest := inTurn ms first.2
    (first.1 :: rest.1, rest.2)

variable {s : σ} {post post' : α → σ → Prop} {failed failed' : ε → σ → Prop}

@[simp] lemma meets_pure {a : α} : Meets (pure a : Method ε σ α) s post failed ↔ post a s := Iff.rfl

@[simp] lemma meets_throw {e : ε} : Meets (throw e : Method ε σ α) s post failed ↔ failed e s := Iff.rfl

@[simp] lemma meets_bind {x : Method ε σ α} {f : α → Method ε σ β} {post : β → σ → Prop} :
    Meets (x >>= f) s post failed ↔ Meets x s (fun a s' => Meets (f a) s' post failed) failed := by
  unfold Meets
  rw [EStateM.run_bind]
  cases x.run s <;> rfl

@[simp] lemma meets_get {post : σ → σ → Prop} :
    Meets (get : Method ε σ σ) s post failed ↔ post s s := Iff.rfl

@[simp] lemma meets_set {s' : σ} {post : PUnit → σ → Prop} :
    Meets (set s' : Method ε σ PUnit) s post failed ↔ post ⟨⟩ s' := Iff.rfl

@[simp] lemma meets_modify {f : σ → σ} {post : PUnit → σ → Prop} :
    Meets (modify f : Method ε σ PUnit) s post failed ↔ post ⟨⟩ (f s) := Iff.rfl

@[simp] lemma meets_lift {x : Except ε α} :
    Meets (lift x : Method ε σ α) s post failed ↔
      (∀ a, x = .ok a → post a s) ∧ ∀ e, x = .error e → failed e s := by
  cases x with
  | ok a => simp [Meets, lift, EStateM.run]
  | error e => simp [Meets, lift, EStateM.run]

@[simp] lemma meets_closing {close : σ → σ} {body : Method ε σ α} :
    Meets (closing close body) s post failed ↔
      Meets body s (fun a s' => post a (close s')) (fun e s' => failed e (close s')) := by
  unfold Meets closing EStateM.run
  dsimp only
  cases body s <;> rfl

@[simp] lemma meets_onFailure {undo : Method ε σ Unit} {body : Method ε σ α} :
    Meets (onFailure undo body) s post failed ↔
      Meets body s post (fun e s' => Meets undo s' (fun _ => failed e) failed) := by
  unfold Meets onFailure EStateM.run
  dsimp only
  cases body s with
  | ok a s' => rfl
  | error e s' =>
    dsimp only
    cases undo s' <;> rfl

lemma Meets.mono {m : Method ε σ α} (h : Meets m s post failed) (hpost : ∀ a s', post a s' → post' a s')
    (hfailed : ∀ e s', failed e s' → failed' e s') : Meets m s post' failed' := by
  unfold Meets at h ⊢
  cases hm : m.run s with
  | ok a s' =>
    rw [hm] at h
    exact hpost a s' h
  | error e s' =>
    rw [hm] at h
    exact hfailed e s' h

lemma meets_iff_outcome {m : Method ε σ α} :
    Meets m s post failed ↔ (∀ a s', outcome m s = (.ok a, s') → post a s') ∧
      ∀ e s', outcome m s = (.error e, s') → failed e s' := by
  unfold Meets outcome
  cases m.run s with
  | ok a s' => simp
  | error e s' => simp

@[simp] lemma outcome_lift {x : Except ε α} : outcome (lift x : Method ε σ α) s = (x, s) := by
  cases x <;> rfl

@[simp] lemma outcome_get : outcome (get : Method ε σ σ) s = (.ok s, s) := rfl

lemma outcome_bind_ok {x : Method ε σ α} {f : α → Method ε σ β} {a : α} {u : σ}
    (h : outcome x s = (.ok a, u)) : outcome (x >>= f) s = outcome (f a) u := by
  unfold outcome at h ⊢
  rw [EStateM.run_bind]
  cases hx : x.run s with
  | ok b t =>
    rw [hx] at h
    cases h
    rfl
  | error e t =>
    rw [hx] at h
    cases h

lemma outcome_bind_error {x : Method ε σ α} {f : α → Method ε σ β} {e : ε} {u : σ}
    (h : outcome x s = (.error e, u)) : outcome (x >>= f) s = (.error e, u) := by
  unfold outcome at h ⊢
  rw [EStateM.run_bind]
  cases hx : x.run s with
  | ok b t =>
    rw [hx] at h
    cases h
  | error e' t =>
    rw [hx] at h
    cases h
    rfl

/-- The two methods do the same to `s`, be it that they refuse for different reasons. -/
def Same (s : σ) (m m' : Method ε σ α) : Prop :=
  (outcome m s).2 = (outcome m' s).2 ∧ (outcome m s).1.toOption = (outcome m' s).1.toOption

lemma same_of_ok_iff {m m' : Method ε σ α} (hm : ∀ e s', outcome m s = (.error e, s') → s' = s)
    (hm' : ∀ e s', outcome m' s = (.error e, s') → s' = s)
    (h : ∀ a s', outcome m s = (.ok a, s') ↔ outcome m' s = (.ok a, s')) : Same s m m' := by
  cases hres : outcome m s with
  | mk result t =>
    cases result with
    | ok a =>
      rw [Same, hres, (h a t).mp hres]
      exact ⟨rfl, rfl⟩
    | error e =>
      cases hres' : outcome m' s with
      | mk result' t' =>
        cases result' with
        | ok a => exact absurd (hres.symm.trans ((h a t').mpr hres')) (by simp)
        | error e' =>
          rw [Same, hres, hres', hm e t hres, hm' e' t' hres']
          exact ⟨rfl, rfl⟩

/-- The members of a sequence that succeeded, each with what it returned. -/
def accepted (bs : List β) (results : List (Except ε α)) : List (β × α) :=
  (bs.zip results).filterMap fun b => b.2.toOption.map fun a => (b.1, a)

section Sequences

variable {I : σ → Prop} {f g : β → Method ε σ α}

@[simp] lemma inTurn_nil : inTurn ([] : List (Method ε σ α)) s = ([], s) := rfl

lemma inTurn_cons {m : Method ε σ α} {ms : List (Method ε σ α)} :
    inTurn (m :: ms) s =
      ((outcome m s).1 :: (inTurn ms (outcome m s).2).1, (inTurn ms (outcome m s).2).2) := rfl

lemma length_inTurn (ms : List (Method ε σ α)) (s : σ) : (inTurn ms s).1.length = ms.length := by
  induction ms generalizing s with
  | nil => rfl
  | cons m ms ih => rw [inTurn_cons, List.length_cons, List.length_cons, ih]

lemma inTurn_append (ms ms' : List (Method ε σ α)) (s : σ) :
    inTurn (ms ++ ms') s = ((inTurn ms s).1 ++ (inTurn ms' (inTurn ms s).2).1,
      (inTurn ms' (inTurn ms s).2).2) := by
  induction ms generalizing s with
  | nil => rfl
  | cons m ms ih => rw [List.cons_append, inTurn_cons, inTurn_cons, ih, List.cons_append]

lemma inTurn_keeps {bs : List β} (hkeep : ∀ b ∈ bs, ∀ s, I s → I (outcome (f b) s).2) {s : σ} (hs : I s) :
    I (inTurn (bs.map f) s).2 := by
  induction bs generalizing s with
  | nil => exact hs
  | cons b bs ih =>
    exact ih (fun b' hb' => hkeep b' (List.mem_cons_of_mem b hb')) (hkeep b List.mem_cons_self s hs)

/-- Calling the methods that succeeded, and those alone, ends in the same state with the same results. -/
theorem inTurn_accepted (hkeep : ∀ b s, I s → I (outcome (f b) s).2)
    (hrefused : ∀ b s e s', I s → outcome (f b) s = (.error e, s') → s' = s)
    (hok : ∀ b s a s', I s → outcome (f b) s = (.ok a, s') → outcome (g b) s = (.ok a, s')) {s : σ} (hs : I s)
    (bs : List β) :
    inTurn ((accepted bs (inTurn (bs.map f) s).1).map fun b => g b.1) s =
      ((accepted bs (inTurn (bs.map f) s).1).map fun b => .ok b.2, (inTurn (bs.map f) s).2) := by
  induction bs generalizing s with
  | nil => rfl
  | cons b bs ih =>
    have hnext := hkeep b s hs
    rw [List.map_cons, inTurn_cons]
    cases hb : outcome (f b) s with
    | mk result s' =>
      rw [hb] at hnext
      cases result with
      | ok a =>
        have hcons : accepted (b :: bs) (.ok a :: (inTurn (bs.map f) s').1) =
            (b, a) :: accepted bs (inTurn (bs.map f) s').1 := rfl
        rw [hcons, List.map_cons, inTurn_cons, hok b s a s' hs hb, ih hnext, List.map_cons]
      | error e =>
        obtain rfl := hrefused b s e s' hs hb
        have hcons : accepted (b :: bs) (.error e :: (inTurn (bs.map f) s').1) =
            accepted bs (inTurn (bs.map f) s').1 := rfl
        rw [hcons, ih hnext]

/-- Leaving out members that are refused wherever they are called changes nothing for the others, and neither
does calling `g` where it does the same as `f`. -/
theorem inTurn_filter (p : β → Bool) (hkeep : ∀ b s, I s → I (outcome (f b) s).2)
    (hout : ∀ b s, I s → p b = false → (outcome (f b) s).2 = s)
    (hsame : ∀ b s, I s → p b = true → Same s (f b) (g b)) {s : σ} (hs : I s) (bs : List β) :
    (inTurn ((bs.filter p).map g) s).2 = (inTurn (bs.map f) s).2 ∧
      (inTurn ((bs.filter p).map g) s).1.map Except.toOption =
        ((bs.zip (inTurn (bs.map f) s).1).filter fun b => p b.1).map fun b => b.2.toOption := by
  induction bs generalizing s with
  | nil => exact ⟨rfl, rfl⟩
  | cons b bs ih =>
    have hnext := hkeep b s hs
    rw [List.map_cons, inTurn_cons, List.zip_cons_cons]
    by_cases hp : p b = true
    · obtain ⟨hstate, hresult⟩ := hsame b s hs hp
      obtain ⟨hlast, hrest⟩ := ih hnext
      rw [List.filter_cons_of_pos hp, List.map_cons, inTurn_cons, ← hstate,
        List.filter_cons_of_pos (by exact hp)]
      exact ⟨hlast, by rw [List.map_cons, List.map_cons, hrest, ← hresult]⟩
    · have hskip := hout b s hs (Bool.eq_false_iff.mpr hp)
      rw [hskip]
      rw [List.filter_cons_of_neg hp, List.filter_cons_of_neg (by exact hp)]
      exact ih hs

end Sequences

end Peal.Methods
