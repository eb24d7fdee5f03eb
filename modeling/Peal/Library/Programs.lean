import Mathlib.Tactic

namespace Peal.Programs

/-! # Programs over a stored state that may fail or be cut off, and their pre- and postconditions -/

variable {σ ε ε' α β : Type}

/-- A program ends with a value, with a failure it reports, or where a crash cut it off. -/
inductive Outcome (ε α : Type) where
  | done (a : α)
  | failed (e : ε)
  | crashed
  deriving DecidableEq, Repr

/-- What was written stays written, however the program ends. -/
def Prog (σ ε α : Type) : Type := σ → Outcome ε α × σ

namespace Prog

instance : Monad (Prog σ ε) where
  pure a := fun s => (.done a, s)
  bind x f := fun s =>
    match x s with
    | (.done a, s') => f a s'
    | (.failed e, s') => (.failed e, s')
    | (.crashed, s') => (.crashed, s')

/-- The outcome of a call that leaves the state alone. -/
def answer (o : Outcome ε α) : Prog σ ε α := fun s => (o, s)

def fail (e : ε) : Prog σ ε α := answer (.failed e)

def get : Prog σ ε σ := fun s => (.done s, s)

def modify (f : σ → σ) : Prog σ ε Unit := fun s => (.done (), f s)

/-- Go on after a failure. A crash cannot be handled. -/
def rescue (x : Prog σ ε α) (handler : ε → Prog σ ε' α) : Prog σ ε' α := fun s =>
  match x s with
  | (.done a, s') => (.done a, s')
  | (.failed e, s') => handler e s'
  | (.crashed, s') => (.crashed, s')

end Prog

open Prog

/-- Started under `P`, the program ends with an outcome and a state of which `Q` holds. -/
structure Triple (P : σ → Prop) (x : Prog σ ε α) (Q : Outcome ε α → σ → Prop) : Prop where
  ends : ∀ s, P s → Q (x s).1 (x s).2

/-- `D` of the value a program ends with, `F` of the failure it reports. -/
def Reports (D : α → Prop) (F : ε → Prop) : Outcome ε α → Prop
  | .done a => D a
  | .failed e => F e
  | .crashed => True

/-- The program keeps `I`, ends with values in `D` and reports failures in `F`. -/
abbrev Yields (I : σ → Prop) (x : Prog σ ε α) (D : α → Prop) (F : ε → Prop) : Prop :=
  Triple I x fun o s => I s ∧ Reports D F o

/-- The program keeps `I`, however it ends. -/
abbrev Keeps (I : σ → Prop) (x : Prog σ ε α) : Prop := Triple I x fun _ => I

variable {P P' I J : σ → Prop} {Q Q' : Outcome ε α → σ → Prop} {x : Prog σ ε α} {f : α → Prog σ ε β}

lemma triple_weaken (h : Triple P x Q) (hP : ∀ s, P' s → P s) (hQ : ∀ o s, Q o s → Q' o s) :
    Triple P' x Q' :=
  ⟨fun s hs => hQ _ _ (h.ends s (hP s hs))⟩

theorem triple_bind {R : Outcome ε α → σ → Prop} {Q : Outcome ε β → σ → Prop} (hx : Triple P x R)
    (hf : ∀ a, Triple (R (.done a)) (f a) Q) (hfailed : ∀ e s, R (.failed e) s → Q (.failed e) s)
    (hcrashed : ∀ s, R .crashed s → Q .crashed s) : Triple P (x >>= f) Q := by
  constructor
  intro s hs
  have hend := hx.ends s hs
  simp only [Bind.bind]
  cases h : x s with
  | mk o s' =>
    rw [h] at hend
    cases o with
    | done a => exact (hf a).ends s' hend
    | failed e => exact hfailed e s' hend
    | crashed => exact hcrashed s' hend

lemma triple_answer {o : Outcome ε α} {Q : Outcome ε β → σ → Prop}
    (hdone : ∀ a, o = .done a → Triple P (f a) Q) (hfailed : ∀ e s, P s → Q (.failed e) s)
    (hcrashed : ∀ s, P s → Q .crashed s) : Triple P (answer o >>= f) Q := by
  cases o with
  | done a => exact hdone a rfl
  | failed e => exact ⟨hfailed e⟩
  | crashed => exact ⟨hcrashed⟩

lemma triple_get {f : σ → Prog σ ε β} {Q : Outcome ε β → σ → Prop}
    (hf : ∀ s, P s → Triple (fun t => t = s) (f s) Q) : Triple P (get >>= f) Q :=
  ⟨fun s hs => (hf s hs).ends s rfl⟩

theorem triple_rescue {R : Outcome ε' α → σ → Prop} {handler : ε → Prog σ ε' α} (hx : Triple P x Q)
    (hdone : ∀ a s, Q (.done a) s → R (.done a) s) (hhandler : ∀ e, Triple (Q (.failed e)) (handler e) R)
    (hcrashed : ∀ s, Q .crashed s → R .crashed s) : Triple P (rescue x handler) R := by
  constructor
  intro s hs
  have hend := hx.ends s hs
  unfold rescue
  cases h : x s with
  | mk o s' =>
    rw [h] at hend
    cases o with
    | done a => exact hdone a s' hend
    | failed e => exact (hhandler e).ends s' hend
    | crashed => exact hcrashed s' hend

section Mirroring

variable {τ α' β' : Type} {view : σ → τ} {v : α' → α} {w : β' → β} {y : Prog τ ε α'} {g : α' → Prog τ ε β'}

/-- The outcome with another reading of the value. -/
def Outcome.map (v : α' → α) : Outcome ε α' → Outcome ε α
  | .done a => .done (v a)
  | .failed e => .failed e
  | .crashed => .crashed

/-- Started under `P`, the program ends as the other does on what can be seen of its state, and under `P'`. -/
structure Mirrors (view : σ → τ) (v : α' → α) (P : σ → Prop) (x : Prog σ ε α) (y : Prog τ ε α') (P' : σ → Prop) :
    Prop where
  outcome : ∀ s, P s → (x s).1 = (y (view s)).1.map v
  state : ∀ s, P s → view (x s).2 = (y (view s)).2
  ends : ∀ s, P s → P' (x s).2

lemma mirrors_answer (o : Outcome ε α) : Mirrors view id P (answer o) (answer o) P := by
  refine ⟨fun _ _ => ?_, fun _ _ => rfl, fun _ hs => hs⟩
  cases o <;> rfl

lemma mirrors_pure (a : α') : Mirrors view v P (pure (v a) : Prog σ ε α) (pure a) P :=
  ⟨fun _ _ => rfl, fun _ _ => rfl, fun _ hs => hs⟩

lemma mirrors_fail (e : ε) : Mirrors view v P (fail e) (fail e) P :=
  ⟨fun _ _ => rfl, fun _ _ => rfl, fun _ hs => hs⟩

lemma mirrors_modify {f : σ → σ} {g : τ → τ} (h : ∀ s, P s → view (f s) = g (view s) ∧ P' (f s)) :
    Mirrors view id P (modify f : Prog σ ε Unit) (modify g) P' :=
  ⟨fun _ _ => rfl, fun s hs => (h s hs).1, fun s hs => (h s hs).2⟩

lemma mirrors_get {f : σ → Prog σ ε β} {g : τ → Prog τ ε β'}
    (hf : ∀ s, P s → Mirrors view w P (f s) (g (view s)) P') : Mirrors view w P (get >>= f) (get >>= g) P' :=
  ⟨fun s hs => (hf s hs).outcome s hs, fun s hs => (hf s hs).state s hs, fun s hs => (hf s hs).ends s hs⟩

lemma Mirrors.weaken (h : Mirrors view v P x y P') {R R' : σ → Prop} (hR : ∀ s, R s → P s)
    (hR' : ∀ s, P' s → R' s) : Mirrors view v R x y R' :=
  ⟨fun s hs => h.outcome s (hR s hs), fun s hs => h.state s (hR s hs), fun s hs => hR' _ (h.ends s (hR s hs))⟩

theorem mirrors_bind {R : σ → Prop} (hx : Mirrors view v P x y R) (hf : ∀ a, Mirrors view w R (f (v a)) (g a) P')
    (hends : ∀ s, R s → P' s) : Mirrors view w P (x >>= f) (y >>= g) P' := by
  have hboth : ∀ s, P s → ((x >>= f) s).1 = ((y >>= g) (view s)).1.map w ∧
      view ((x >>= f) s).2 = ((y >>= g) (view s)).2 ∧ P' ((x >>= f) s).2 := by
    intro s hs
    have houtcome := hx.outcome s hs
    have hstate := hx.state s hs
    have hend := hx.ends s hs
    simp only [Bind.bind]
    cases hxs : x s with
    | mk o s' =>
      cases hys : y (view s) with
      | mk o' t' =>
        rw [hxs, hys] at houtcome hstate
        rw [hxs] at hend
        obtain rfl : o = o'.map v := houtcome
        obtain rfl : view s' = t' := hstate
        cases o' with
        | done a => exact ⟨(hf a).outcome s' hend, (hf a).state s' hend, (hf a).ends s' hend⟩
        | failed e => exact ⟨rfl, rfl, hends s' hend⟩
        | crashed => exact ⟨rfl, rfl, hends s' hend⟩
  exact ⟨fun s hs => (hboth s hs).1, fun s hs => (hboth s hs).2.1, fun s hs => (hboth s hs).2.2⟩

theorem mirrors_rescue {handler : ε → Prog σ ε' α} {handler' : ε → Prog τ ε' α'} (hx : Mirrors view v P x y P')
    (hhandler : ∀ e, Mirrors view v P' (handler e) (handler' e) P') :
    Mirrors view v P (rescue x handler) (rescue y handler') P' := by
  have hboth : ∀ s, P s → (rescue x handler s).1 = (rescue y handler' (view s)).1.map v ∧
      view (rescue x handler s).2 = (rescue y handler' (view s)).2 ∧ P' (rescue x handler s).2 := by
    intro s hs
    have houtcome := hx.outcome s hs
    have hstate := hx.state s hs
    have hend := hx.ends s hs
    unfold rescue
    cases hxs : x s with
    | mk o s' =>
      cases hys : y (view s) with
      | mk o' t' =>
        rw [hxs, hys] at houtcome hstate
        rw [hxs] at hend
        obtain rfl : o = o'.map v := houtcome
        obtain rfl : view s' = t' := hstate
        cases o' with
        | done a => exact ⟨rfl, rfl, hend⟩
        | failed e => exact ⟨(hhandler e).outcome s' hend, (hhandler e).state s' hend, (hhandler e).ends s' hend⟩
        | crashed => exact ⟨rfl, rfl, hend⟩
  exact ⟨fun s hs => (hboth s hs).1, fun s hs => (hboth s hs).2.1, fun s hs => (hboth s hs).2.2⟩

end Mirroring

section Keeping

lemma Yields.keeps {D : α → Prop} {F : ε → Prop} (h : Yields I x D F) : Keeps I x :=
  triple_weaken h (fun _ hs => hs) (fun _ _ h => h.1)

lemma keeps_pure (a : α) : Keeps I (pure a : Prog σ ε α) := ⟨fun _ hs => hs⟩

lemma keeps_answer (o : Outcome ε α) : Keeps I (answer o : Prog σ ε α) := ⟨fun _ hs => hs⟩

lemma keeps_modify {g : σ → σ} (h : ∀ s, I s → I (g s)) : Keeps I (modify g : Prog σ ε Unit) := ⟨h⟩

lemma keeps_bind (hx : Keeps I x) (hf : ∀ a, Keeps I (f a)) : Keeps I (x >>= f) :=
  triple_bind hx hf (fun _ _ hs => hs) (fun _ hs => hs)

lemma keeps_get {f : σ → Prog σ ε β} (hf : ∀ s, Keeps I (f s)) : Keeps I (get >>= f) :=
  ⟨fun s hs => (hf s).ends s hs⟩

lemma keeps_rescue {handler : ε → Prog σ ε' α} (hx : Keeps I x) (hhandler : ∀ e, Keeps I (handler e)) :
    Keeps I (rescue x handler) :=
  triple_rescue hx (fun _ _ hs => hs) hhandler (fun _ hs => hs)

end Keeping

section Yielding

variable {D : α → Prop} {D' : β → Prop} {F : ε → Prop} {F' : ε' → Prop}

lemma yields_pure {a : α} (h : D a) : Yields I (pure a : Prog σ ε α) D F := ⟨fun _ hs => ⟨hs, h⟩⟩

lemma yields_fail {e : ε} (h : F e) : Yields I (fail e : Prog σ ε α) D F := ⟨fun _ hs => ⟨hs, h⟩⟩

lemma yields_answer {o : Outcome ε α} (hD : ∀ a, o = .done a → D a) (hF : ∀ e, o = .failed e → F e) :
    Yields I (answer o : Prog σ ε α) D F := by
  constructor
  intro s hs
  cases o with
  | done a => exact ⟨hs, hD a rfl⟩
  | failed e => exact ⟨hs, hF e rfl⟩
  | crashed => exact ⟨hs, trivial⟩

lemma yields_modify {g : σ → σ} (h : ∀ s, I s → I (g s)) {D : Unit → Prop} (hD : D ()) :
    Yields I (modify g : Prog σ ε Unit) D F :=
  ⟨fun s hs => ⟨h s hs, hD⟩⟩

lemma yields_bind (hx : Yields I x D F) (hf : ∀ a, D a → Yields I (f a) D' F) :
    Yields I (x >>= f) D' F := by
  apply triple_bind hx
  · exact fun a => ⟨fun s hs => (hf a hs.2).ends s hs.1⟩
  · exact fun e s hs => hs
  · exact fun s hs => hs

lemma yields_get {f : σ → Prog σ ε β} (hf : ∀ s, I s → Yields I (f s) D' F) : Yields I (get >>= f) D' F :=
  ⟨fun s hs => (hf s hs).ends s hs⟩

lemma yields_rescue {handler : ε → Prog σ ε' α} (hx : Yields I x D F)
    (hhandler : ∀ e, F e → Yields I (handler e) D F') : Yields I (rescue x handler) D F' := by
  apply triple_rescue hx
  · exact fun a s hs => hs
  · exact fun e => ⟨fun s hs => (hhandler e hs.2).ends s hs.1⟩
  · exact fun s hs => hs

lemma yields_reworded {o : Outcome ε α} {reword : ε → ε'} (hD : ∀ a, o = .done a → D a)
    (hF : ∀ e, o = .failed e → F' (reword e)) :
    Yields I (rescue (answer o) fun e => fail (reword e)) D F' := by
  apply yields_rescue (F := fun e => o = .failed e)
  · exact yields_answer hD (fun _ h => h)
  · exact fun e he => yields_fail (hF e he)

end Yielding

section Loops

variable {f : β → α → Prog σ ε β} {as : List α}

/-- What every round of a loop keeps, the loop keeps. -/
theorem keeps_foldlM (hround : ∀ b, ∀ a ∈ as, Keeps I (f b a)) (b : β) : Keeps I (as.foldlM f b) := by
  induction as generalizing b with
  | nil => exact keeps_pure b
  | cons a as ih =>
    rw [List.foldlM_cons]
    apply keeps_bind (hround b a List.mem_cons_self)
    exact ih fun b a' ha' => hround b a' (List.mem_cons_of_mem a ha')

/-- What one element's round establishes and every later round keeps holds when the loop has run through. -/
theorem triple_foldlM_mem {a : α} (ha : a ∈ as) (hround : ∀ b, ∀ a ∈ as, Keeps I (f b a))
    (hlater : ∀ b, ∀ a ∈ as, Keeps (fun s => I s ∧ J s) (f b a))
    (hself : ∀ b, Triple I (f b a) fun o s => I s ∧ ∀ b', o = .done b' → J s) (b : β) :
    Triple I (as.foldlM f b) fun o s => I s ∧ ∀ b', o = .done b' → J s := by
  induction as generalizing b with
  | nil => exact absurd ha List.not_mem_nil
  | cons a' as ih =>
    rw [List.foldlM_cons]
    rcases List.mem_cons.mp ha with rfl | hrest
    · apply triple_bind (hself b)
      · intro b'
        have hkeeps : Keeps (fun s => I s ∧ J s) (as.foldlM f b') :=
          keeps_foldlM (fun b x hx => hlater b x (List.mem_cons_of_mem a hx)) b'
        apply triple_weaken hkeeps
        · exact fun s hs => ⟨hs.1, hs.2 b' rfl⟩
        · exact fun o s hs => ⟨hs.1, fun _ _ => hs.2⟩
      · exact fun e s hs => ⟨hs.1, fun _ h => nomatch h⟩
      · exact fun s hs => ⟨hs.1, fun _ h => nomatch h⟩
    · apply triple_bind (hround b a' List.mem_cons_self)
      · exact ih hrest (fun b x hx => hround b x (List.mem_cons_of_mem a' hx))
          (fun b x hx => hlater b x (List.mem_cons_of_mem a' hx))
      · exact fun e s hs => ⟨hs, fun _ h => nomatch h⟩
      · exact fun s hs => ⟨hs, fun _ h => nomatch h⟩

end Loops

end Peal.Programs
