import Peal.Library.Runs

namespace Peal.Interleaving

/-! # Interleaved processes, by what each of their steps relies on and guarantees -/

/-- What is left of a running request. It goes on by atomic steps, each with an answer from outside and on the
state it then finds. -/
inductive Proc (ω σ α : Type) where
  | ret (a : α)
  | act (update : ω → σ → σ) (next : ω → σ → Proc ω σ α)

variable {ι ω χ σ ρ υ ε ε' α β γ : Type}

namespace Proc

protected def bind : Proc ω σ α → (α → Proc ω σ β) → Proc ω σ β
  | ret a, f => f a
  | act update next, f => act update fun w s => (next w s).bind f

instance : Monad (Proc ω σ) where
  pure := ret
  bind := Proc.bind

lemma bind_ret (p : Proc ω σ α) : p.bind ret = p := by
  induction p with
  | ret a => rfl
  | act update next ih => exact congrArg (act update) (funext fun w => funext fun s => ih w s)

lemma bind_assoc (p : Proc ω σ α) (f : α → Proc ω σ β) (g : β → Proc ω σ γ) :
    (p.bind f).bind g = p.bind fun a => (f a).bind g := by
  induction p with
  | ret a => rfl
  | act update next ih => exact congrArg (act update) (funext fun w => funext fun s => ih w s)

instance : LawfulMonad (Proc ω σ) :=
  LawfulMonad.mk' (Proc ω σ) bind_ret (fun _ _ => rfl) bind_assoc

/-- One atomic step. -/
def atomically (f : ω → σ → α × σ) : Proc ω σ α := act (fun w s => (f w s).2) fun w s => ret (f w s).1

end Proc

/-- A process whose failure ends it. -/
abbrev Request (ω σ ε α : Type) : Type := ExceptT ε (Proc ω σ) α

namespace Request

/-- One atomic step that may fail. -/
def step (f : ω → σ → Except ε α × σ) : Request ω σ ε α := ExceptT.mk (Proc.atomically f)

/-- A check that takes no step. -/
def check (x : Except ε α) : Request ω σ ε α := ExceptT.mk (.ret x)

/-- The request, whose answer nobody waits for. -/
def served (x : Request ω σ ε α) : Proc ω σ Unit := Proc.bind x.run fun _ => .ret ()

end Request

/-- Parties that serve requests, lose their processes when they crash, and share a state that others change too. -/
structure Machine (ι ω χ σ ρ υ : Type) where
  serve : σ → ι → ρ → Proc ω σ Unit
  halt : ι → χ → σ → σ
  outside : σ → υ → Except Unit σ

structure System (ι ω σ : Type) where
  state : σ
  running : List (ι × Proc ω σ Unit)

inductive Event (ι ω χ ρ υ : Type) where
  | request (i : ι) (r : ρ)
  | resume (k : Nat) (w : ω)
  | crash (i : ι) (x : χ)
  | outside (u : υ)

namespace Machine

variable (m : Machine ι ω χ σ ρ υ) [DecidableEq ι]

def step (s : System ι ω σ) : Event ι ω χ ρ υ → Except Unit (System ι ω σ)
  | .request i r => .ok { s with running := s.running ++ [(i, m.serve s.state i r)] }
  | .resume k w =>
    match s.running[k]? with
    | some (i, .act update next) => .ok ⟨update w s.state, s.running.set k (i, next w s.state)⟩
    | _ => .error ()
  | .crash i x => .ok ⟨m.halt i x s.state, s.running.filter fun p => p.1 ≠ i⟩
  | .outside u => (m.outside s.state u).map fun next => { s with state := next }

variable {m} {s s' : System ι ω σ}

lemma step_resume {k : Nat} {w : ω} (h : m.step s (.resume k w) = .ok s') :
    ∃ i update next, s.running[k]? = some (i, .act update next) ∧
      s' = ⟨update w s.state, s.running.set k (i, next w s.state)⟩ := by
  simp only [step] at h
  cases hk : s.running[k]? with
  | none =>
    rw [hk] at h
    cases h
  | some entry =>
    obtain ⟨i, p⟩ := entry
    rw [hk] at h
    cases p with
    | ret a => cases h
    | act update next => exact ⟨i, update, next, rfl, (Except.ok.inj h).symm⟩

lemma step_act {k : Nat} {w : ω} {i : ι} {update : ω → σ → σ} {next : ω → σ → Proc ω σ Unit}
    (h : s.running[k]? = some (i, .act update next)) :
    m.step s (.resume k w) = .ok ⟨update w s.state, s.running.set k (i, next w s.state)⟩ := by
  simp only [step, h]

lemma step_outside {u : υ} (h : m.step s (.outside u) = .ok s') :
    ∃ next, m.outside s.state u = .ok next ∧ s' = { s with state := next } := by
  simp only [step] at h
  cases hu : m.outside s.state u with
  | error e =>
    rw [hu] at h
    cases h
  | ok next =>
    rw [hu] at h
    exact ⟨next, rfl, (Except.ok.inj h).symm⟩

end Machine

section Safe

variable [Preorder σ] {I : σ → Prop} {Q Q' : α → σ → Prop}

/-- Wherever the others, who keep `I` and only take the state further, have left it, so does each step of the
process, and it ends as `Q` says. -/
def Safe (I : σ → Prop) (Q : α → σ → Prop) : Proc ω σ α → σ → Prop
  | .ret a, s => Q a s
  | .act update next, s => ∀ s' w, s ≤ s' → I s' →
      s' ≤ update w s' ∧ I (update w s') ∧ Safe I Q (next w s') (update w s')

lemma safe_weaken {p : Proc ω σ α} {s : σ} (h : Safe I Q p s) (hQ : ∀ a s', s ≤ s' → Q a s' → Q' a s') :
    Safe I Q' p s := by
  induction p generalizing s with
  | ret a => exact hQ a s (le_refl s) h
  | act update next ih =>
    intro s' w hle hI
    obtain ⟨hmoved, hkept, hnext⟩ := h s' w hle hI
    exact ⟨hmoved, hkept, ih w s' hnext fun a t ht => hQ a t (hle.trans (hmoved.trans ht))⟩

lemma safe_bind {p : Proc ω σ α} {f : α → Proc ω σ β} {Q : β → σ → Prop} {s : σ}
    (h : Safe I (fun a s => Safe I Q (f a) s) p s) : Safe I Q (p.bind f) s := by
  induction p generalizing s with
  | ret a => exact h
  | act update next ih =>
    intro s' w hle hI
    obtain ⟨hmoved, hkept, hnext⟩ := h s' w hle hI
    exact ⟨hmoved, hkept, ih w s' hnext⟩

lemma safe_later {p : Proc ω σ Unit} {s s' : σ} (h : Safe I (fun _ _ => True) p s) (hle : s ≤ s') :
    Safe I (fun _ _ => True) p s' := by
  cases p with
  | ret a => trivial
  | act update next => exact fun t w ht hI => h t w (hle.trans ht) hI

section Requests

variable {x : Request ω σ ε α} {f : α → Request ω σ ε β} {S : Except ε α → σ → Prop} {T : Except ε β → σ → Prop}
  {s : σ}

lemma safe_step {g : ω → σ → Except ε α × σ}
    (h : ∀ s' w, s ≤ s' → I s' → s' ≤ (g w s').2 ∧ I (g w s').2 ∧ S (g w s').1 (g w s').2) :
    Safe I S (Request.step g).run s := h

lemma safe_check {r : Except ε α} (h : S r s) : Safe I S (Request.check r : Request ω σ ε α).run s := h

lemma safe_pure {a : α} (h : S (.ok a) s) : Safe I S (pure a : Request ω σ ε α).run s := h

theorem safe_request_bind (hx : Safe I S x.run s)
    (hok : ∀ a s', s ≤ s' → S (.ok a) s' → Safe I T (f a).run s')
    (herror : ∀ e s', S (.error e) s' → T (.error e) s') : Safe I T (x >>= f).run s := by
  refine safe_bind (safe_weaken hx fun r s' hle hr => ?_)
  cases r with
  | ok a => exact hok a s' hle hr
  | error e => exact herror e s' hr

lemma safe_served (h : Safe I S x.run s) : Safe I (fun _ _ => True) x.served s :=
  safe_bind (safe_weaken h fun _ _ _ _ => trivial)

lemma safe_outcome {g : Except ε α → Except ε' β} {U : Except ε' β → σ → Prop} (h : Safe I S x.run s)
    (hg : ∀ r s', S r s' → U (g r) s') :
    Safe I U (Proc.bind x.run fun r => .ret (g r)) s :=
  safe_bind (safe_weaken h fun r s' _ hr => hg r s' hr)

/-- What holds where a request ends with an answer. -/
def Ends (P : α → σ → Prop) (r : Except ε α) (s : σ) : Prop := ∀ a, r = .ok a → P a s

variable {P : α → σ → Prop} {R : β → σ → Prop}

lemma safe_then (hx : Safe I (Ends P) x.run s)
    (hf : ∀ a s', s ≤ s' → P a s' → Safe I (Ends R) (f a).run s') : Safe I (Ends R) (x >>= f).run s :=
  safe_request_bind hx (fun a s' hle hP => hf a s' hle (hP a rfl)) fun _ _ _ _ h => by cases h

lemma safe_checked {r : Except ε α} (hf : ∀ a, r = .ok a → Safe I (Ends R) (f a).run s) :
    Safe I (Ends R) (Request.check r >>= f).run s := by
  cases r with
  | ok a => exact hf a rfl
  | error e => exact fun _ h => by cases h

lemma safe_fail {e : ε} : Safe I (Ends P) (throw e : Request ω σ ε α).run s := fun _ h => by cases h

lemma safe_done {a : α} (h : P a s) : Safe I (Ends P) (pure a : Request ω σ ε α).run s :=
  safe_pure fun _ hb => Except.ok.inj hb ▸ h

lemma safe_read {g : ω → σ → Except ε α × σ} (hsame : ∀ w s', (g w s').2 = s')
    (h : ∀ s' w a, s ≤ s' → (g w s').1 = .ok a → P a s') : Safe I (Ends P) (Request.step g).run s := by
  refine safe_step fun s' w hle hI => ?_
  rw [hsame w s']
  exact ⟨le_refl s', hI, fun a ha => h s' w a hle ha⟩

theorem safe_mapM {as : List α} (h : ∀ a ∈ as, ∀ s', s ≤ s' → Safe I (Ends fun _ _ => True) (f a).run s') :
    Safe I (Ends fun _ _ => True) (as.mapM f).run s := by
  induction as generalizing s with
  | nil =>
    rw [List.mapM_nil]
    exact safe_done trivial
  | cons a as ih =>
    rw [List.mapM_cons]
    refine safe_then (h a List.mem_cons_self s (le_refl s)) fun b t ht _ => ?_
    have hrest := ih fun a' ha' t' ht' => h a' (List.mem_cons_of_mem a ha') t' (ht.trans ht')
    exact safe_then hrest fun bs _ _ _ => safe_done trivial

end Requests

end Safe

section Every

variable {P : (ω → σ → σ) → Prop}

/-- Every atomic step the process can come to is one of those `P` allows. -/
def Every (P : (ω → σ → σ) → Prop) : Proc ω σ α → Prop
  | .ret _ => True
  | .act update next => P update ∧ ∀ w s, Every P (next w s)

lemma every_bind {p : Proc ω σ α} {f : α → Proc ω σ β} (h : Every P p) (hf : ∀ a, Every P (f a)) :
    Every P (p.bind f) := by
  induction p with
  | ret a => exact hf a
  | act update next ih => exact ⟨h.1, fun w s => ih w s (h.2 w s)⟩

section Requests

variable {x : Request ω σ ε α} {f : α → Request ω σ ε β}

lemma every_step {g : ω → σ → Except ε α × σ} (h : P fun w s => (g w s).2) : Every P (Request.step g).run :=
  ⟨h, fun _ _ => trivial⟩

lemma every_request_bind (hx : Every P x.run) (hf : ∀ a, Every P (f a).run) : Every P (x >>= f).run := by
  refine every_bind hx fun r => ?_
  cases r with
  | ok a => exact hf a
  | error e => trivial

lemma every_checked {r : Except ε α} (hf : ∀ a, Every P (f a).run) : Every P (Request.check r >>= f).run :=
  every_request_bind trivial hf

lemma every_passed {r : Except ε α} (hf : ∀ a, r = .ok a → Every P (f a).run) : Every P (Request.check r >>= f).run := by
  cases r with
  | ok a => exact hf a rfl
  | error e => trivial

lemma every_served (h : Every P x.run) : Every P x.served := every_bind h fun _ => trivial

lemma every_outcome {g : Except ε α → Except ε' β} (h : Every P x.run) :
    Every P (Proc.bind x.run fun r => .ret (g r)) :=
  every_bind h fun _ => trivial

lemma every_mapM {as : List α} (h : ∀ a ∈ as, Every P (f a).run) : Every P (as.mapM f).run := by
  induction as with
  | nil =>
    rw [List.mapM_nil]
    trivial
  | cons a as ih =>
    rw [List.mapM_cons]
    have hrest := ih fun a' ha' => h a' (List.mem_cons_of_mem a ha')
    exact every_request_bind (h a List.mem_cons_self) fun b => every_request_bind hrest fun bs => trivial

end Requests

lemma every_running [DecidableEq ι] {m : Machine ι ω χ σ ρ υ} {P : ι → (ω → σ → σ) → Prop}
    (hserve : ∀ s i r, Every (P i) (m.serve s i r)) {s s' : System ι ω σ} {e : Event ι ω χ ρ υ}
    (h : ∀ p ∈ s.running, Every (P p.1) p.2) (hstep : m.step s e = .ok s') :
    ∀ p ∈ s'.running, Every (P p.1) p.2 := by
  cases e with
  | request i r =>
    obtain rfl := Except.ok.inj hstep
    intro p hp
    rcases List.mem_append.mp hp with hold | hnew
    · exact h p hold
    · obtain rfl := List.mem_singleton.mp hnew
      exact hserve s.state i r
  | resume k w =>
    obtain ⟨i, update, next, hrunning, rfl⟩ := Machine.step_resume hstep
    intro p hp
    rcases List.mem_or_eq_of_mem_set hp with hold | rfl
    · exact h p hold
    · exact (h _ (List.mem_of_getElem? hrunning)).2 w s.state
  | crash i x =>
    obtain rfl := Except.ok.inj hstep
    exact fun p hp => h p (List.mem_filter.mp hp).1
  | outside u =>
    obtain ⟨next, -, rfl⟩ := Machine.step_outside hstep
    exact h

end Every

section Runs
open Peal.Runs

variable [DecidableEq ι] [Preorder σ] (m : Machine ι ω χ σ ρ υ) {I : σ → Prop} {ok : σ → υ → Prop}

/-- The condition on what the others do, as one on every event. -/
def Heeds (ok : σ → υ → Prop) (s : System ι ω σ) : Event ι ω χ ρ υ → Prop
  | .outside u => ok s.state u
  | _ => True

instance [∀ s u, Decidable (ok s u)] (s : System ι ω σ) : (e : Event ι ω χ ρ υ) → Decidable (Heeds ok s e)
  | .outside u => inferInstanceAs (Decidable (ok s.state u))
  | .request _ _ => isTrue trivial
  | .resume _ _ => isTrue trivial
  | .crash _ _ => isTrue trivial

/-- The invariant, with every process in flight safe. -/
structure Steady (I : σ → Prop) (s : System ι ω σ) : Prop where
  kept : I s.state
  safe : ∀ p ∈ s.running, Safe I (fun _ _ => True) p.2 s.state

/-- What every process keeps by itself, interleaved and crashing processes keep together. -/
theorem steady_step (hserve : ∀ s i r, I s → Safe I (fun _ _ => True) (m.serve s i r) s)
    (hhalt : ∀ i x s, I s → s ≤ m.halt i x s ∧ I (m.halt i x s))
    (houtside : ∀ s u s', I s → ok s u → m.outside s u = .ok s' → s ≤ s' ∧ I s')
    {s s' : System ι ω σ} {e : Event ι ω χ ρ υ} (h : Steady I s) (hok : Heeds ok s e) (hstep : m.step s e = .ok s') :
    Steady I s' := by
  cases e with
  | request i r =>
    obtain rfl := Except.ok.inj hstep
    refine ⟨h.kept, fun p hp => ?_⟩
    rcases List.mem_append.mp hp with hold | hnew
    · exact h.safe p hold
    · obtain rfl := List.mem_singleton.mp hnew
      exact hserve s.state i r h.kept
  | resume k w =>
    obtain ⟨i, update, next, hrunning, rfl⟩ := Machine.step_resume hstep
    have hprocess := h.safe _ (List.mem_of_getElem? hrunning)
    obtain ⟨hmoved, hkept, hnext⟩ := hprocess s.state w (le_refl _) h.kept
    refine ⟨hkept, fun p hp => ?_⟩
    rcases List.mem_or_eq_of_mem_set hp with hold | rfl
    · exact safe_later (h.safe p hold) hmoved
    · exact hnext
  | crash i x =>
    obtain rfl := Except.ok.inj hstep
    obtain ⟨hmoved, hkept⟩ := hhalt i x s.state h.kept
    exact ⟨hkept, fun p hp => safe_later (h.safe p (List.mem_filter.mp hp).1) hmoved⟩
  | outside u =>
    obtain ⟨next, hout, rfl⟩ := Machine.step_outside hstep
    obtain ⟨hmoved, hkept⟩ := houtside s.state u next h.kept hok hout
    exact ⟨hkept, fun p hp => safe_later (h.safe p hp) hmoved⟩

end Runs

end Peal.Interleaving
