import Mathlib.Tactic

namespace Peal.Sealing

/-! # Authenticated encryption, and what opens in a run -/

variable {Key Nonce Data Message Sealed : Type}

structure Cipher (Key Nonce Data Message Sealed : Type) where
  encrypt : Key → Nonce → Data → Message → Option Sealed
  decrypt : Key → Nonce → Data → Sealed → Option Message

/-- One encryption. -/
structure Use (Key Nonce Data Message : Type) where
  key : Key
  nonce : Nonce
  data : Data
  message : Message
  deriving DecidableEq

namespace Cipher

variable (c : Cipher Key Nonce Data Message Sealed)

def Correct : Prop := ∀ k n a m x, c.encrypt k n a m = some x → c.decrypt k n a x = some m

/-- Under the keys, nothing opens but what was sealed in one of the uses. -/
def Unforged (uses : List (Use Key Nonce Data Message)) (keys : Key → Prop) : Prop :=
  ∀ k n a x m, keys k → c.decrypt k n a x = some m → ⟨k, n, a, m⟩ ∈ uses ∧ c.encrypt k n a m = some x

variable {c} {uses uses' : List (Use Key Nonce Data Message)} {keys keys' : Key → Prop}

lemma Unforged.mono (h : c.Unforged uses keys) (huses : ∀ u ∈ uses, u ∈ uses') (hkeys : ∀ k, keys' k → keys k) :
    c.Unforged uses' keys' := by
  intro k n a x m hk hopens
  obtain ⟨hmem, hseals⟩ := h k n a x m (hkeys k hk) hopens
  exact ⟨huses _ hmem, hseals⟩

/-! ## The cipher that knows a log -/

section Log

variable [DecidableEq Key] [DecidableEq Nonce] [DecidableEq Data] [DecidableEq Message] [DecidableEq Sealed]

/-- The cipher that seals as the log says and opens nothing else. -/
def logged (log : List (Use Key Nonce Data Message × Sealed)) : Cipher Key Nonce Data Message Sealed where
  encrypt k n a m := (log.find? fun e => e.1 = ⟨k, n, a, m⟩).map Prod.snd
  decrypt k n a x :=
    (log.find? fun e => e.1.key = k ∧ e.1.nonce = n ∧ e.1.data = a ∧ e.2 = x).map fun e => e.1.message

variable {log : List (Use Key Nonce Data Message × Sealed)}

lemma logged_decrypt {k : Key} {n : Nonce} {a : Data} {x : Sealed} {m : Message}
    (h : (logged log).decrypt k n a x = some m) : (⟨k, n, a, m⟩, x) ∈ log := by
  obtain ⟨⟨u, y⟩, hfound, rfl⟩ := Option.map_eq_some_iff.mp h
  have hmatch := List.find?_some hfound
  simp only [decide_eq_true_eq] at hmatch
  obtain ⟨rfl, rfl, rfl, rfl⟩ := hmatch
  exact List.mem_of_find?_eq_some hfound

lemma logged_correct (h : ∀ e ∈ log, ∀ f ∈ log,
    (e.1.key, e.1.nonce, e.1.data, e.2) = (f.1.key, f.1.nonce, f.1.data, f.2) → e = f) : (logged log).Correct := by
  intro k n a m x hseals
  obtain ⟨⟨u, y⟩, hfound, rfl⟩ := Option.map_eq_some_iff.mp hseals
  have hu : u = ⟨k, n, a, m⟩ := by simpa using List.find?_some hfound
  have hmem := List.mem_of_find?_eq_some hfound
  subst hu
  obtain ⟨e, he⟩ : ∃ e, log.find? (fun e => e.1.key = k ∧ e.1.nonce = n ∧ e.1.data = a ∧ e.2 = y) = some e := by
    refine Option.isSome_iff_exists.mp (List.find?_isSome.mpr ⟨_, hmem, ?_⟩)
    simp
  have hmatch := List.find?_some he
  simp only [decide_eq_true_eq] at hmatch
  obtain ⟨hk, hn, ha, hy⟩ := hmatch
  have hsame := h e (List.mem_of_find?_eq_some he) _ hmem (by rw [hk, hn, ha, hy])
  show (log.find? _).map _ = some m
  rw [he, hsame]
  rfl

lemma logged_unforged (h : ∀ e ∈ log, ∀ f ∈ log, e.1 = f.1 → e = f) (keys : Key → Prop) :
    (logged log).Unforged (log.map Prod.fst) keys := by
  intro k n a x m _ hopens
  have hmem := logged_decrypt hopens
  refine ⟨List.mem_map.mpr ⟨_, hmem, rfl⟩, ?_⟩
  obtain ⟨e, he⟩ : ∃ e, log.find? (fun e => e.1 = ⟨k, n, a, m⟩) = some e := by
    refine Option.isSome_iff_exists.mp (List.find?_isSome.mpr ⟨_, hmem, ?_⟩)
    simp
  have hsame := h e (List.mem_of_find?_eq_some he) _ hmem (by simpa using List.find?_some he)
  show (log.find? _).map _ = some x
  rw [he, hsame]
  rfl

end Log

end Cipher

end Peal.Sealing
