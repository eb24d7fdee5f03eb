import Peal.Library.Fallible
import Mathlib.Data.List.Basic

namespace Peal.Encoding
open Peal.Fallible

/-! # Encodings that show where they end -/

variable {α β : Type} {ok : α → Prop} {write : α → List β}

lemma cut_at {b : List β} {k : Nat} (h : k ≤ b.length) : ∃ front rest, front.length = k ∧ b = front ++ rest :=
  ⟨b.take k, b.drop k, by rw [List.length_take, Nat.min_eq_left h], (List.take_append_drop k b).symm⟩

/-- Whatever follows it, an encoding shows its value and where it ends. -/
def PrefixFree (ok : α → Prop) (write : α → List β) : Prop :=
  ∀ ⦃x y : α⦄, ok x → ok y → ∀ ⦃u v : List β⦄, write x ++ u = write y ++ v → x = y ∧ u = v

lemma PrefixFree.injective (h : PrefixFree ok write) {x y : α} (hx : ok x) (hy : ok y) (heq : write x = write y) :
    x = y := by
  have happ : write x ++ [] = write y ++ [] := by rw [heq]
  exact (h hx hy happ).1

lemma PrefixFree.mono {ok' : α → Prop} (h : PrefixFree ok write) (himp : ∀ x, ok' x → ok x) : PrefixFree ok' write :=
  fun x y hx hy _ _ heq => h (himp x hx) (himp y hy) heq

lemma prefixFree_of_length {n : Nat} (hlength : ∀ x, ok x → (write x).length = n)
    (hinj : ∀ x y, ok x → ok y → write x = write y → x = y) : PrefixFree ok write := by
  intro x y hx hy u v heq
  have hsame : (write x).length = (write y).length := (hlength x hx).trans (hlength y hy).symm
  obtain ⟨hwrite, hrest⟩ := List.append_inj heq hsame
  exact ⟨hinj x y hx hy hwrite, hrest⟩

lemma PrefixFree.lengthPrefixed {okLength : Nat → Prop} {count : Nat → List β} (hcount : PrefixFree okLength count)
    (hinj : ∀ x y, ok x → ok y → write x = write y → x = y) :
    PrefixFree (fun x => ok x ∧ okLength (write x).length) fun x => count (write x).length ++ write x := by
  rintro x y ⟨hx, hxl⟩ ⟨hy, hyl⟩ u v heq
  rw [List.append_assoc, List.append_assoc] at heq
  obtain ⟨hlength, hrest⟩ := hcount hxl hyl heq
  obtain ⟨hwrite, htail⟩ := List.append_inj hrest hlength
  exact ⟨hinj x y hx hy hwrite, htail⟩

/-- A value that may be left out, after a flag. -/
def writeOption (absent present : β) (write : α → List β) : Option α → List β
  | none => [absent]
  | some x => present :: write x

lemma PrefixFree.option (h : PrefixFree ok write) {absent present : β} (hflag : absent ≠ present) :
    PrefixFree (fun o => ∀ x ∈ o, ok x) (writeOption absent present write) := by
  intro o p ho hp u v heq
  cases o with
  | none =>
    cases p with
    | none => exact ⟨rfl, List.append_cancel_left heq⟩
    | some y => exact absurd (List.cons.inj heq).1 hflag
  | some x =>
    cases p with
    | none => exact absurd (List.cons.inj heq).1.symm hflag
    | some y =>
      obtain ⟨hxy, huv⟩ := h (ho x rfl) (hp y rfl) (List.cons.inj heq).2
      exact ⟨congrArg some hxy, huv⟩

lemma PrefixFree.flatMap (h : PrefixFree ok write) :
    ∀ {xs ys : List α}, xs.length = ys.length → (∀ x ∈ xs, ok x) → (∀ y ∈ ys, ok y) → ∀ {u v : List β},
      xs.flatMap write ++ u = ys.flatMap write ++ v → xs = ys ∧ u = v
  | [], [], _, _, _, _, _, heq => ⟨rfl, heq⟩
  | x :: xs, y :: ys, hlength, hx, hy, u, v, heq => by
    rw [List.flatMap_cons, List.flatMap_cons, List.append_assoc, List.append_assoc] at heq
    obtain ⟨rfl, hrest⟩ := h (hx x List.mem_cons_self) (hy y List.mem_cons_self) heq
    obtain ⟨rfl, huv⟩ := h.flatMap (Nat.succ.inj hlength) (fun z hz => hx z (List.mem_cons_of_mem _ hz))
      (fun z hz => hy z (List.mem_cons_of_mem _ hz)) hrest
    exact ⟨rfl, huv⟩

/-! ### Readers that fail or move on -/

section Readers

variable {σ ε γ : Type} {rest : σ → List β} {read : StateT σ (Except ε) α} {s s' : σ}

lemma run_bind_eq_ok {next : α → StateT σ (Except ε) γ} {y : γ} :
    (read >>= next).run s = .ok (y, s') ↔ ∃ x mid, read.run s = .ok (x, mid) ∧ (next x).run mid = .ok (y, s') := by
  rw [StateT.run_bind, bind_eq_ok]
  constructor
  · rintro ⟨⟨x, mid⟩, hread, hnext⟩
    exact ⟨x, mid, hread, hnext⟩
  · rintro ⟨x, mid, hread, hnext⟩
    exact ⟨⟨x, mid⟩, hread, hnext⟩

lemma run_pure_eq_ok {x y : α} :
    (pure x : StateT σ (Except ε) α).run s = .ok (y, s') ↔ x = y ∧ s = s' := by
  rw [StateT.run_pure, pure_eq_ok, Prod.mk.injEq]

lemma run_lift_eq_ok {x : Except ε α} {y : α} :
    (liftM x : StateT σ (Except ε) α).run s = .ok (y, s') ↔ x = .ok y ∧ s = s' := by
  cases x with
  | ok a => exact run_pure_eq_ok.trans (by simp)
  | error e => exact ⟨nofun, nofun⟩

/-- A reader that reads back what is written, whatever follows it, and nothing else; `rest` is what is still unread. -/
structure Exact (rest : σ → List β) (ok : α → Prop) (write : α → List β) (read : StateT σ (Except ε) α) : Prop where
  complete : ∀ s x tail, ok x → rest s = write x ++ tail → ∃ s', read.run s = .ok (x, s') ∧ rest s' = tail
  sound : ∀ s x s', read.run s = .ok (x, s') → ok x ∧ rest s = write x ++ rest s'

lemma Exact.prefixFree (h : Exact rest ok write read) (hrest : ∀ input, ∃ s, rest s = input) : PrefixFree ok write := by
  intro x y hx hy u v heq
  obtain ⟨s, hs⟩ := hrest (write x ++ u)
  obtain ⟨s₁, hread₁, hu⟩ := h.complete s x u hx hs
  obtain ⟨s₂, hread₂, hv⟩ := h.complete s y v hy (hs.trans heq)
  rw [hread₁] at hread₂
  obtain ⟨rfl, rfl⟩ := Prod.mk.inj (Except.ok.inj hread₂)
  exact ⟨rfl, hu.symm.trans hv⟩

lemma Exact.congr {ok' : α → Prop} {write' : α → List β} (h : Exact rest ok write read) (hok : ∀ x, ok' x ↔ ok x)
    (hwrite : ∀ x, write' x = write x) : Exact rest ok' write' read := by
  obtain rfl := funext hwrite
  obtain rfl := funext fun x => propext (hok x)
  exact h

lemma Exact.map (h : Exact rest ok write read) {f : α → γ} {g : γ → α} (hfg : ∀ y, f (g y) = y)
    (hgf : ∀ x, ok x → g (f x) = x) :
    Exact rest (fun y => ok (g y)) (fun y => write (g y)) (do let x ← read; return f x) := by
  refine ⟨fun s y tail hy hrest => ?_, fun s y s' hrun => ?_⟩
  · obtain ⟨s', hread, htail⟩ := h.complete s (g y) tail hy hrest
    exact ⟨s', run_bind_eq_ok.mpr ⟨g y, s', hread, run_pure_eq_ok.mpr ⟨hfg y, rfl⟩⟩, htail⟩
  · obtain ⟨x, mid, hread, hpure⟩ := run_bind_eq_ok.mp hrun
    obtain ⟨rfl, rfl⟩ := run_pure_eq_ok.mp hpure
    obtain ⟨hx, hrest⟩ := h.sound s x mid hread
    rw [hgf x hx]
    exact ⟨hx, hrest⟩

/-- So many values, one after the other. -/
def many (read : StateT σ (Except ε) α) : Nat → StateT σ (Except ε) (List α)
  | 0 => pure []
  | n + 1 => do
    let x ← read
    let xs ← many read n
    return x :: xs

lemma Exact.many (h : Exact rest ok write read) (n : Nat) :
    Exact rest (fun xs => xs.length = n ∧ ∀ x ∈ xs, ok x) (fun xs => xs.flatMap write) (many read n) := by
  induction n with
  | zero =>
    refine ⟨fun s xs tail hxs hrest => ?_, fun s xs s' hrun => ?_⟩
    · obtain rfl := List.length_eq_zero_iff.mp hxs.1
      exact ⟨s, rfl, hrest⟩
    · obtain ⟨rfl, rfl⟩ := run_pure_eq_ok.mp hrun
      exact ⟨⟨rfl, fun x hx => absurd hx List.not_mem_nil⟩, rfl⟩
  | succ n ih =>
    refine ⟨fun s xs tail hxs hrest => ?_, fun s xs s' hrun => ?_⟩
    · obtain ⟨hlength, hok⟩ := hxs
      obtain ⟨x, xs, rfl⟩ := List.exists_cons_of_length_eq_add_one hlength
      rw [List.flatMap_cons, List.append_assoc] at hrest
      obtain ⟨s₁, hread, hrest⟩ := h.complete s x _ (hok x List.mem_cons_self) hrest
      obtain ⟨s₂, hreads, hrest⟩ :=
        ih.complete s₁ xs tail ⟨Nat.succ.inj hlength, fun y hy => hok y (List.mem_cons_of_mem x hy)⟩ hrest
      refine ⟨s₂, ?_, hrest⟩
      exact run_bind_eq_ok.mpr ⟨x, s₁, hread, run_bind_eq_ok.mpr ⟨xs, s₂, hreads, rfl⟩⟩
    · obtain ⟨x, s₁, hread, hrun⟩ := run_bind_eq_ok.mp hrun
      obtain ⟨ys, s₂, hreads, hrun⟩ := run_bind_eq_ok.mp hrun
      obtain ⟨rfl, rfl⟩ := run_pure_eq_ok.mp hrun
      obtain ⟨hx, hrest⟩ := h.sound s x s₁ hread
      obtain ⟨⟨hlength, hys⟩, hrests⟩ := ih.sound s₁ ys s₂ hreads
      refine ⟨⟨congrArg Nat.succ hlength, fun y hy => ?_⟩, ?_⟩
      · rcases List.mem_cons.mp hy with rfl | hin
        · exact hx
        · exact hys y hin
      · rw [hrest, hrests, List.flatMap_cons, List.append_assoc]

end Readers

end Peal.Encoding
