import Mathlib.Tactic

namespace Peal.Balances

/-! # Balances under a bound on what any set of accounts holds together -/

variable {α : Type} [DecidableEq α]

def debited (b : α → Nat) (sender : α) (amount : Nat) : α → Nat := Function.update b sender (b sender - amount)

def credited (b : α → Nat) (recipient : α) (amount : Nat) : α → Nat :=
  Function.update b recipient (b recipient + amount)

def moved (b : α → Nat) (sender recipient : α) (amount : Nat) : α → Nat :=
  credited (debited b sender amount) recipient amount

/-- No set of accounts holds more than `n`. -/
def Bounded (b : α → Nat) (n : Nat) : Prop := ∀ s : Finset α, ∑ a ∈ s, b a ≤ n

variable {b : α → Nat} {n amount : Nat} {sender recipient who : α}

lemma sum_update_add {s : Finset α} (h : who ∈ s) (v : Nat) :
    ∑ a ∈ s, Function.update b who v a + b who = ∑ a ∈ s, b a + v := by
  rw [Finset.sum_update_of_mem h, Finset.sdiff_singleton_eq_erase, ← Finset.add_sum_erase s b h]
  omega

lemma sum_moved {s : Finset α} (henough : amount ≤ b sender) (hs : sender ∈ s) (hr : recipient ∈ s) :
    ∑ a ∈ s, moved b sender recipient amount a = ∑ a ∈ s, b a := by
  have hout : ∑ a ∈ s, debited b sender amount a + b sender = ∑ a ∈ s, b a + (b sender - amount) :=
    sum_update_add hs _
  have hin : ∑ a ∈ s, moved b sender recipient amount a + debited b sender amount recipient =
      ∑ a ∈ s, debited b sender amount a + (debited b sender amount recipient + amount) :=
    sum_update_add hr _
  omega

@[simp] lemma debited_self : debited b sender amount sender = b sender - amount := by
  simp [debited]

lemma debited_of_ne (h : who ≠ sender) : debited b sender amount who = b who := by
  simp [debited, h]

lemma moved_recipient (h : recipient ≠ sender) : moved b sender recipient amount recipient = b recipient + amount := by
  simp [moved, credited, debited_of_ne h]

lemma moved_sender (h : recipient ≠ sender) : moved b sender recipient amount sender = b sender - amount := by
  simp [moved, credited, h.symm]

lemma moved_self (henough : amount ≤ b sender) : moved b sender sender amount = b := by
  funext who
  by_cases hwho : who = sender
  · subst hwho
    simp [moved, credited, henough]
  · simp [moved, credited, hwho, debited_of_ne hwho]

lemma moved_of_ne (hs : who ≠ sender) (hr : who ≠ recipient) : moved b sender recipient amount who = b who := by
  simp [moved, credited, hr, debited_of_ne hs]

lemma le_moved (h : who ≠ sender) : b who ≤ moved b sender recipient amount who := by
  by_cases hr : who = recipient
  · subst hr
    rw [moved_recipient h]
    exact Nat.le_add_right _ _
  · rw [moved_of_ne h hr]

namespace Bounded

omit [DecidableEq α] in
lemma le (h : Bounded b n) (who : α) : b who ≤ n := by
  simpa using h {who}

lemma debited_add_le (h : Bounded b n) (henough : amount ≤ b sender) (recipient : α) :
    debited b sender amount recipient + amount ≤ n := by
  by_cases hr : recipient = sender
  · subst hr
    rw [debited_self, Nat.sub_add_cancel henough]
    exact h.le recipient
  · have hpair := h {recipient, sender}
    rw [Finset.sum_pair hr] at hpair
    rw [debited_of_ne hr]
    omega

/-- A transfer creates nothing. -/
theorem moved (h : Bounded b n) (henough : amount ≤ b sender) (recipient : α) :
    Bounded (moved b sender recipient amount) n := by
  intro s
  let t := insert sender (insert recipient s)
  have hsub : s ⊆ t := fun who hwho => Finset.mem_insert_of_mem (Finset.mem_insert_of_mem hwho)
  calc ∑ a ∈ s, Balances.moved b sender recipient amount a
      ≤ ∑ a ∈ t, Balances.moved b sender recipient amount a := Finset.sum_le_sum_of_subset hsub
    _ = ∑ a ∈ t, b a :=
      sum_moved henough (Finset.mem_insert_self _ _) (Finset.mem_insert_of_mem (Finset.mem_insert_self _ _))
    _ ≤ n := h t

theorem credited (h : Bounded b n) (recipient : α) (amount : Nat) :
    Bounded (credited b recipient amount) (n + amount) := by
  intro s
  have hsub : s ⊆ insert recipient s := Finset.subset_insert _ _
  have hsum : ∑ a ∈ insert recipient s, Balances.credited b recipient amount a + b recipient =
      ∑ a ∈ insert recipient s, b a + (b recipient + amount) :=
    sum_update_add (Finset.mem_insert_self _ _) _
  have hle := h (insert recipient s)
  calc ∑ a ∈ s, Balances.credited b recipient amount a
      ≤ ∑ a ∈ insert recipient s, Balances.credited b recipient amount a := Finset.sum_le_sum_of_subset hsub
    _ ≤ n + amount := by omega

end Bounded

end Peal.Balances
