import Mathlib.Tactic

namespace Peal.Linearizable

/-! # Linearizable histories of an object with numbered commands -/

variable {σ κ ρ : Type}

/-- What the clients of an object see: a command sent, or a reply. -/
inductive Observed (κ ρ : Type) where
  | sent (id : Nat) (cmd : κ)
  | answered (id : Nat) (reply : ρ)

/-- A command with its reply. -/
structure Entry (κ ρ : Type) where
  id : Nat
  cmd : κ
  reply : ρ

variable (perform : Nat → σ → κ → ρ × σ)

/-- Performed one after another, the commands give their replies and take the object from one state to another. -/
inductive Sequential : σ → List (Entry κ ρ) → σ → Prop
  | nil (s : σ) : Sequential s [] s
  | cons {s s' s'' : σ} {e : Entry κ ρ} {es : List (Entry κ ρ)} (first : perform e.id s e.cmd = (e.reply, s'))
      (rest : Sequential s' es s'') : Sequential s (e :: es) s''

/-- Where the first observation is a reply and the second a command of the order, the replied command precedes. -/
def Respects (order : List Nat) : Observed κ ρ → Observed κ ρ → Prop
  | .answered i _, .sent j _ => j ∈ order → [i, j].Sublist order
  | _, _ => True

/-- The order explains the history: it is a sequential execution of commands that were sent, with the replies that
were given, and a command answered before another was sent comes first. -/
structure Linearizes (first : σ) (history : List (Observed κ ρ)) (order : List (Entry κ ρ)) (last : σ) : Prop where
  sequential : Sequential perform first order last
  sent : ∀ e ∈ order, Observed.sent e.id e.cmd ∈ history
  answered : ∀ i r, Observed.answered i r ∈ history → ∃ e ∈ order, e.id = i ∧ e.reply = r
  once : (order.map Entry.id).Nodup
  realTime : history.Pairwise (Respects (order.map Entry.id))

variable {perform} {first last last' : σ} {history : List (Observed κ ρ)} {order es : List (Entry κ ρ)}

lemma Sequential.append (h : Sequential perform first order last) (h' : Sequential perform last es last') :
    Sequential perform first (order ++ es) last' := by
  induction h with
  | nil s => exact h'
  | cons hfirst _ ih => exact .cons hfirst (ih h')

namespace Linearizes

lemma start (s : σ) : Linearizes perform s [] [] s :=
  ⟨.nil s, fun _ he => absurd he List.not_mem_nil, fun _ _ hr => absurd hr List.not_mem_nil, List.nodup_nil,
    List.Pairwise.nil⟩

lemma send (h : Linearizes perform first history order last) {i : Nat} (cmd : κ)
    (hnew : i ∉ order.map Entry.id) : Linearizes perform first (history ++ [.sent i cmd]) order last := by
  refine ⟨h.sequential, fun e he => List.mem_append_left _ (h.sent e he), ?_, h.once, ?_⟩
  · intro j r hr
    rcases List.mem_append.mp hr with hbefore | hlast
    · exact h.answered j r hbefore
    · cases List.mem_singleton.mp hlast
  · refine List.pairwise_append.mpr ⟨h.realTime, List.pairwise_singleton _ _, ?_⟩
    rintro o ho _ hlast
    rw [List.mem_singleton.mp hlast]
    cases o with
    | sent j cmd' => trivial
    | answered j r => exact fun hin => absurd hin hnew

lemma execute (h : Linearizes perform first history order last) (hseq : Sequential perform last es last')
    (hsent : ∀ e ∈ es, Observed.sent e.id e.cmd ∈ history) (honce : (es.map Entry.id).Nodup)
    (hnew : ∀ e ∈ es, e.id ∉ order.map Entry.id) : Linearizes perform first history (order ++ es) last' := by
  refine ⟨h.sequential.append hseq, ?_, ?_, ?_, ?_⟩
  · intro e he
    rcases List.mem_append.mp he with hin | hin
    · exact h.sent e hin
    · exact hsent e hin
  · intro i r hr
    obtain ⟨e, he, hsame⟩ := h.answered i r hr
    exact ⟨e, List.mem_append_left _ he, hsame⟩
  · rw [List.map_append]
    refine List.nodup_append.mpr ⟨h.once, honce, ?_⟩
    rintro i hi _ hj rfl
    obtain ⟨e, he, heq⟩ := List.mem_map.mp hj
    exact hnew e he (heq ▸ hi)
  · refine h.realTime.imp_of_mem ?_
    intro o o' ho _ hrespects
    cases o with
    | sent i cmd => trivial
    | answered i r =>
      cases o' with
      | answered j r' => trivial
      | sent j cmd =>
        intro hj
        rw [List.map_append] at hj ⊢
        rcases List.mem_append.mp hj with hbefore | hafter
        · exact (hrespects hbefore).trans (List.sublist_append_left _ _)
        · obtain ⟨e, he, rfl, -⟩ := h.answered i r ho
          have hfront : [e.id].Sublist (order.map Entry.id) :=
            List.singleton_sublist.mpr (List.mem_map_of_mem he)
          exact hfront.append (List.singleton_sublist.mpr hafter)

lemma answer (h : Linearizes perform first history order last) {e : Entry κ ρ} (he : e ∈ order) :
    Linearizes perform first (history ++ [.answered e.id e.reply]) order last := by
  refine ⟨h.sequential, fun e he => List.mem_append_left _ (h.sent e he), ?_, h.once, ?_⟩
  · intro j r hr
    rcases List.mem_append.mp hr with hbefore | hlast
    · exact h.answered j r hbefore
    · cases List.mem_singleton.mp hlast
      exact ⟨e, he, rfl, rfl⟩
  · refine List.pairwise_append.mpr ⟨h.realTime, List.pairwise_singleton _ _, ?_⟩
    rintro o - _ hlast
    rw [List.mem_singleton.mp hlast]
    cases o <;> trivial

end Linearizes

end Peal.Linearizable
