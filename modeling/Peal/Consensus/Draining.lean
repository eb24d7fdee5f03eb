import Peal.Consensus.Application
import Peal.Library.Loops

namespace Peal.Consensus.Actor
open Peal.Loops Peal.Runs
open Peal.Links (Id Block)

/-! # When the finalized blocks are drained -/

/-- Where `drain_finalized` stands: at the head of its loop, or at a block of the loop that walks to the parents. -/
inductive Cursor where
  | outer
  | inner (cur : Id) (progressed : Bool)
  deriving DecidableEq, Repr

/-- The walk is over. -/
def leave (progressed : Bool) (a : Actor) : (Cursor × Actor) ⊕ Actor :=
  if progressed then .inl (.outer, a) else .inr a

/-- One turn of either loop. -/
def turn (now : Nat) : Cursor × Actor → (Cursor × Actor) ⊕ Actor
  | (.outer, a) =>
    match a.finalizedKnown.head? with
    | none => .inr a
    | some (height, id) =>
      if height ≤ a.head.height then .inl (.outer, a.forgetKnown height)
      else if height = a.head.height + 1 then
        match Assoc.get a.blocks id with
        | none => .inr (a.request id now)
        | some cached =>
          if cached.block.parent ≠ a.head.digest then .inl (.outer, a.forgetKnown height)
          else if a.applying then .inr a
          else .inr { a with applying := true, tasks := a.tasks ++ [(id, cached)] }
      else .inl (.inner id false, a)
  | (.inner cur progressed, a) =>
    match Assoc.get a.blocks cur with
    | none => leave progressed (a.request cur now)
    | some b =>
      if b.block.height ≤ a.head.height + 1 then
        if b.block.height = a.head.height + 1 then
          leave (progressed || (Assoc.get a.finalizedKnown b.block.height).isNone) (a.markKnown b.block.height cur)
        else leave progressed a
      else
        .inl (.inner b.block.parent (progressed || (Assoc.get a.finalizedKnown (b.block.height - 1)).isNone),
          a.markKnown (b.block.height - 1) b.block.parent)

def Drains (now : Nat) (a a' : Actor) : Prop := Ends (turn now) (.outer, a) a'

/-- What is left to be found afterwards: a block is being applied, or the body of the next finalized block is missing and
asked for, or there is no finalized block left. -/
def Drained (now : Nat) (a : Actor) : Prop :=
  a.applying = true ∨
  (∃ height id, a.finalizedKnown.head? = some (height, id) ∧ a.head.height < height ∧ Assoc.get a.blocks id = none ∧
    ∃ t, a.requested id = some t ∧ now - t < REQUEST_RETRY) ∨
  a.finalizedKnown = []

/-- From a block under a height to its ancestors in the cache, the parent of each under the height before its own. -/
inductive Descends (blocks : List (Id × Cached)) : Nat × Id → Nat × Id → Prop where
  | refl (e : Nat × Id) : Descends blocks e e
  | parent {height : Nat} {id : Id} {b : Cached} {e : Nat × Id} (hb : Assoc.get blocks id = some b)
      (h : Descends blocks (b.block.height - 1, b.block.parent) e) : Descends blocks (height, id) e

/-- Finalized blocks are kept by their heights, and have the height of their parent and one. -/
structure Filed (a : Actor) : Prop where
  ordered : a.finalizedKnown.Pairwise fun e e' => e.1 < e'.1
  height : ∀ e ∈ a.finalizedKnown, ∀ height id b, Descends a.blocks e (height, id) →
    Assoc.get a.blocks id = some b → b.block.height = height

/-- A block that is here and does not extend the applied head. -/
def Unfit (a : Actor) (id : Id) : Prop := ∃ b, Assoc.get a.blocks id = some b ∧ b.block.parent ≠ a.head.digest

/-- No finalized block at hand extends the head, and the first one beyond has an ancestor at hand that does not. -/
def Conflicted (a : Actor) : Prop :=
  (∀ id, Assoc.get a.finalizedKnown (a.head.height + 1) = some id → a.Unfit id) ∧
  ∃ e, (a.finalizedKnown.find? fun e => a.head.height + 1 < e.1) = some e ∧
    ∃ id, Descends a.blocks e (a.head.height + 1, id) ∧ a.Unfit id

variable {cfg : Config} {now : Nat} {a a' : Actor}

section Turns

variable {height : Nat} {id cur : Id} {progressed : Bool} {b : Cached}

lemma turn_empty (h : a.finalizedKnown.head? = none) : turn now (.outer, a) = .inr a := by
  simp only [turn, h]

lemma turn_applied (h : a.finalizedKnown.head? = some (height, id)) (hle : height ≤ a.head.height) :
    turn now (.outer, a) = .inl (.outer, a.forgetKnown height) := by
  simp only [turn, h, hle, if_true]

lemma turn_gap (h : a.finalizedKnown.head? = some (height, id)) (hgap : a.head.height + 1 < height) :
    turn now (.outer, a) = .inl (.inner id false, a) := by
  simp only [turn, h, show ¬height ≤ a.head.height by omega, show ¬height = a.head.height + 1 by omega, if_false]

lemma turn_next (h : a.finalizedKnown.head? = some (a.head.height + 1, id)) : turn now (.outer, a) =
    match Assoc.get a.blocks id with
    | none => .inr (a.request id now)
    | some cached =>
      if cached.block.parent ≠ a.head.digest then .inl (.outer, a.forgetKnown (a.head.height + 1))
      else if a.applying then .inr a
      else .inr { a with applying := true, tasks := a.tasks ++ [(id, cached)] } := by
  simp only [turn, h, show ¬a.head.height + 1 ≤ a.head.height by omega, if_false, if_true]

lemma turn_missing (h : Assoc.get a.blocks cur = none) :
    turn now (.inner cur progressed, a) = leave progressed (a.request cur now) := by
  simp only [turn, h]

lemma turn_bottom (h : Assoc.get a.blocks cur = some b) (hbottom : b.block.height = a.head.height + 1) :
    turn now (.inner cur progressed, a) =
      leave (progressed || (Assoc.get a.finalizedKnown b.block.height).isNone) (a.markKnown b.block.height cur) := by
  simp only [turn, h, hbottom, le_refl, if_true]

lemma turn_below (h : Assoc.get a.blocks cur = some b) (hbelow : b.block.height ≤ a.head.height) :
    turn now (.inner cur progressed, a) = leave progressed a := by
  simp only [turn, h, show b.block.height ≤ a.head.height + 1 by omega,
    show ¬b.block.height = a.head.height + 1 by omega, if_true, if_false]

lemma turn_up (h : Assoc.get a.blocks cur = some b) (hhigh : a.head.height + 1 < b.block.height) :
    turn now (.inner cur progressed, a) =
      .inl (.inner b.block.parent (progressed || (Assoc.get a.finalizedKnown (b.block.height - 1)).isNone),
        a.markKnown (b.block.height - 1) b.block.parent) := by
  simp only [turn, h, show ¬b.block.height ≤ a.head.height + 1 by omega, if_false]

end Turns

section Rounds

lemma walk_of_loop {n rounds : Nat} {cur : Id} {progressed : Bool} (h : loop (turn now) n (.inner cur progressed, a) = some a')
    (hle : n ≤ rounds) : walk now rounds cur progressed a = (false, a') ∨
      ∃ m b, m < n ∧ walk now rounds cur progressed a = (true, b) ∧ loop (turn now) m (.outer, b) = some a' := by
  induction n generalizing cur progressed a rounds with
  | zero => cases h
  | succ n ih =>
    obtain ⟨rounds, rfl⟩ : ∃ k, rounds = k + 1 := Nat.exists_eq_succ_of_ne_zero (by omega)
    have hleave : ∀ p b, turn now (.inner cur progressed, a) = leave p b → walk now (rounds + 1) cur progressed a = (p, b) →
        walk now (rounds + 1) cur progressed a = (false, a') ∨ ∃ m b, m < n + 1 ∧
          walk now (rounds + 1) cur progressed a = (true, b) ∧ loop (turn now) m (.outer, b) = some a' := by
      intro p b hturn hwalk
      cases p with
      | false =>
        rw [loop_done hturn] at h
        rw [← Option.some.inj h]
        exact .inl hwalk
      | true =>
        rw [loop_again hturn] at h
        exact .inr ⟨n, b, Nat.lt_succ_self n, hwalk, h⟩
    cases hcached : Assoc.get a.blocks cur with
    | none => exact hleave _ _ (turn_missing hcached) (by simp only [walk, hcached])
    | some b =>
      rcases Nat.lt_trichotomy b.block.height (a.head.height + 1) with hbelow | hbottom | hhigh
      · exact hleave _ _ (turn_below hcached (by omega)) (by
          simp only [walk, hcached]
          rw [if_pos (by omega), if_neg (by omega)])
      · exact hleave _ _ (turn_bottom hcached hbottom) (by
          simp only [walk, hcached]
          rw [if_pos (by omega), if_pos hbottom])
      · rw [loop_again (turn_up hcached hhigh)] at h
        rw [walk, hcached]
        dsimp only
        rw [if_neg (by omega)]
        obtain hdone | ⟨m, c, hm, hrest⟩ := ih h (Nat.le_of_succ_le_succ hle)
        · exact .inl hdone
        · exact .inr ⟨m, c, Nat.lt_succ_of_lt hm, hrest⟩

lemma drain_of_loop {n rounds : Nat} (h : loop (turn now) n (.outer, a) = some a') (hcfg : n ≤ cfg.rounds)
    (hle : n ≤ rounds) : drain cfg now rounds a = a' := by
  induction n using Nat.strong_induction_on generalizing a rounds with
  | _ n ih =>
    obtain ⟨n, rfl⟩ : ∃ k, n = k + 1 := by
      cases n with
      | zero => cases h
      | succ n => exact ⟨n, rfl⟩
    obtain ⟨rounds, rfl⟩ : ∃ k, rounds = k + 1 := Nat.exists_eq_succ_of_ne_zero (by omega)
    have hagain : ∀ b, turn now (.outer, a) = .inl (.outer, b) → drain cfg now rounds b = a' := by
      intro b hturn
      rw [loop_again hturn] at h
      exact ih n (Nat.lt_succ_self n) h (by omega) (by omega)
    have hdone : ∀ b, turn now (.outer, a) = .inr b → b = a' := by
      intro b hturn
      rw [loop_done hturn] at h
      exact Option.some.inj h
    rw [drain]
    cases hfirst : a.finalizedKnown.head? with
    | none => exact hdone _ (turn_empty hfirst)
    | some first =>
      obtain ⟨height, id⟩ := first
      dsimp only
      rcases Nat.lt_trichotomy height (a.head.height + 1) with hold | rfl | hgap
      · rw [if_pos (by omega)]
        exact hagain _ (turn_applied hfirst (by omega))
      · have hturn : turn now _ = _ := turn_next hfirst
        rw [if_neg (by omega), if_pos rfl]
        cases hcached : Assoc.get a.blocks id with
        | none =>
          rw [hcached] at hturn
          exact hdone _ hturn
        | some cached =>
          rw [hcached] at hturn
          dsimp only at hturn ⊢
          by_cases hparent : cached.block.parent ≠ a.head.digest
          · rw [if_pos hparent] at hturn ⊢
            exact hagain _ hturn
          · rw [if_neg hparent] at hturn ⊢
            by_cases hbusy : a.applying = true
            · rw [if_pos hbusy] at hturn ⊢
              exact hdone _ hturn
            · rw [if_neg hbusy] at hturn ⊢
              exact hdone _ hturn
      · rw [if_neg (by omega), if_neg (by omega)]
        rw [loop_again (turn_gap hfirst hgap)] at h
        obtain hend | ⟨m, b, hm, hwalk, hrest⟩ := walk_of_loop h (show n ≤ cfg.rounds by omega)
        · rw [hend]
        · rw [hwalk]
          exact ih m (by omega) hrest (by omega) (by omega)

/-- With rounds enough, what the loops end in is what `drain_finalized` leaves. -/
theorem drainFinalized_of_drains (h : Drains now a a') :
    ∃ n, ∀ cfg : Config, n ≤ cfg.rounds → a.drainFinalized cfg now = a' := by
  obtain ⟨n, hn⟩ := h
  exact ⟨n, fun cfg hcfg => drain_of_loop hn hcfg hcfg⟩

end Rounds

section Completeness

def Succeeds (now : Nat) (s : Cursor × Actor) : Prop := ∃ a', Ends (turn now) s a' ∧ Drained now a'

lemma succeeds_again {s s' : Cursor × Actor} (h : turn now s = .inl s') : Succeeds now s ↔ Succeeds now s' := by
  unfold Succeeds
  simp only [ends_again h]

lemma succeeds_done {s : Cursor × Actor} (h : turn now s = .inr a') : Succeeds now s ↔ Drained now a' := by
  unfold Succeeds
  simp only [ends_done h, exists_eq_left]

lemma request_recent (a : Actor) (id : Id) (now : Nat) :
    ∃ t, (a.request id now).requested id = some t ∧ now - t < REQUEST_RETRY := by
  unfold request
  split_ifs with hrecent
  · obtain ⟨t, ht, hlt⟩ := (Option.any_eq_true _ _).mp hrecent
    exact ⟨t, ht, of_decide_eq_true hlt⟩
  · exact ⟨now, Function.update_self .., by rw [Nat.sub_self]; decide⟩

variable {g : Nat} {cur : Id} {rest : List (Nat × Id)} {progressed : Bool} {e : Nat × Id} {b : Cached}

lemma drained_request (hknown : a.finalizedKnown = (g, cur) :: rest) (hg : a.head.height < g)
    (hmissing : Assoc.get a.blocks cur = none) : Drained now (a.request cur now) := by
  refine .inr (.inl ⟨g, cur, ?_, ?_, ?_, request_recent a cur now⟩)
  · rw [request_toChain, hknown]
    rfl
  · rw [request_toChain]
    exact hg
  · rw [request_toChain]
    exact hmissing

lemma descends_missing (h : Assoc.get a.blocks cur = none) (hd : Descends a.blocks (g, cur) e) : e = (g, cur) := by
  cases hd with
  | refl => rfl
  | parent hb => rw [h] at hb; cases hb

lemma descends_cached (h : Assoc.get a.blocks cur = some b) :
    Descends a.blocks (g, cur) e ↔ e = (g, cur) ∨ Descends a.blocks (b.block.height - 1, b.block.parent) e := by
  constructor
  · intro hd
    cases hd with
    | refl => exact .inl rfl
    | parent hb hrest =>
      rw [h] at hb
      cases hb
      exact .inr hrest
  · rintro (rfl | hrest)
    · exact .refl _
    · exact .parent h hrest

lemma descends_le (hheights : ∀ height id b, Descends a.blocks e (height, id) → Assoc.get a.blocks id = some b →
    b.block.height = height) {e' : Nat × Id} (hd : Descends a.blocks e e') : e'.1 ≤ e.1 := by
  induction hd with
  | refl => exact le_rfl
  | parent hb hrest ih =>
    have hheight := hheights _ _ _ (.refl _) hb
    have hle := ih fun height id c hc => hheights height id c (.parent hb hc)
    dsimp only at hle ⊢
    omega

lemma never_drains {x y : Id} {c : Cached} (hknown : a.finalizedKnown = (a.head.height + 1, x) :: (a.head.height + 2, y) :: rest)
    (hordered : a.finalizedKnown.Pairwise fun e e' => e.1 < e'.1) (hx : Assoc.get a.blocks x = some b)
    (hbottom : b.block.height = a.head.height + 1) (hunfit : b.block.parent ≠ a.head.digest)
    (hy : Assoc.get a.blocks y = some c) (hheight : c.block.height = a.head.height + 2) (hparent : c.block.parent = x) :
    ¬∃ a', Drains now a a' := by
  have hlater : ∀ e ∈ (a.head.height + 2, y) :: rest, a.head.height + 1 < e.1 := by
    rw [hknown] at hordered
    exact (List.pairwise_cons.mp hordered).1
  -- The four places the loop comes by.
  let dropped := a.forgetKnown (a.head.height + 1)
  have hdropped : dropped.finalizedKnown = (a.head.height + 2, y) :: rest := by
    show Assoc.erase a.finalizedKnown (a.head.height + 1) = _
    rw [hknown, Assoc.erase_first hlater]
  have hmarked : dropped.markKnown (a.head.height + 1) x = a := by
    show { a with finalizedKnown := Assoc.insertSorted dropped.finalizedKnown (a.head.height + 1) x } = a
    rw [hdropped, Assoc.insertSorted_below hlater, ← hknown]
  have hagain : a.markKnown (a.head.height + 1) x = a := by
    show { a with finalizedKnown := Assoc.insertSorted a.finalizedKnown (a.head.height + 1) x } = a
    rw [hknown, Assoc.insertSorted_first, ← hknown]
  have hdrop : turn now (.outer, a) = .inl (.outer, dropped) := by
    rw [turn_next (by rw [hknown]; rfl), hx]
    exact if_pos hunfit
  have hhead : dropped.finalizedKnown.head? = some (a.head.height + 2, y) := by
    rw [hdropped]
    rfl
  have hgap : turn now (.outer, dropped) = .inl (.inner y false, dropped) := turn_gap hhead (Nat.lt_succ_self _)
  have hup : turn now (.inner y false, dropped) = .inl (.inner x true, a) := by
    rw [turn_up (a := dropped) hy (by rw [hheight]; exact Nat.lt_succ_self _), hheight, hparent]
    have hnew : Assoc.get dropped.finalizedKnown (a.head.height + 1) = none := by
      rw [hdropped, Assoc.get_eq_none_of_lt hlater]
    show Sum.inl (Cursor.inner x (false || (Assoc.get dropped.finalizedKnown (a.head.height + 1)).isNone),
      dropped.markKnown (a.head.height + 1) x) = _
    rw [hnew, hmarked]
    rfl
  have hback : turn now (.inner x true, a) = .inl (.outer, a) := by
    rw [turn_bottom hx hbottom, hbottom, hagain]
    rfl
  let places : Cursor × Actor → Prop := fun s => s = (.outer, a) ∨ s = (.outer, dropped) ∨
    s = (.inner y false, dropped) ∨ s = (.inner x true, a)
  have hstart : places (.outer, a) := .inl rfl
  refine never_ends ?_ hstart
  rintro s (rfl | rfl | rfl | rfl)
  · exact ⟨_, hdrop, .inr (.inl rfl)⟩
  · exact ⟨_, hgap, .inr (.inr (.inl rfl))⟩
  · exact ⟨_, hup, .inr (.inr (.inr rfl))⟩
  · exact ⟨_, hback, .inl rfl⟩

lemma succeeds_next (hknown : a.finalizedKnown = (a.head.height + 1, cur) :: rest) (hfits : ¬a.Unfit cur) :
    Succeeds now (.outer, a) := by
  have hhead : a.finalizedKnown.head? = some (a.head.height + 1, cur) := by
    rw [hknown]
    rfl
  have hturn : turn now _ = _ := turn_next hhead
  cases hcached : Assoc.get a.blocks cur with
  | none =>
    rw [hcached] at hturn
    exact (succeeds_done hturn).mpr (drained_request hknown (Nat.lt_succ_self _) hcached)
  | some b =>
    have hparent : ¬b.block.parent ≠ a.head.digest := fun hne => hfits ⟨b, hcached, hne⟩
    rw [hcached] at hturn
    dsimp only at hturn
    rw [if_neg hparent] at hturn
    by_cases hbusy : a.applying = true
    · rw [if_pos hbusy] at hturn
      exact (succeeds_done hturn).mpr (.inl hbusy)
    · rw [if_neg hbusy] at hturn
      exact (succeeds_done hturn).mpr (.inl rfl)

lemma succeeds_missing (hknown : a.finalizedKnown = (g, cur) :: rest) (hg : a.head.height < g)
    (hmissing : Assoc.get a.blocks cur = none) : Succeeds now (.inner cur progressed, a) := by
  have hturn : turn now (.inner cur progressed, a) = _ := turn_missing hmissing
  cases progressed with
  | false => exact (succeeds_done hturn).mpr (drained_request hknown hg hmissing)
  | true =>
    rw [succeeds_again hturn]
    have hasked : (a.request cur now).finalizedKnown = (g, cur) :: rest := by rw [request_toChain, hknown]
    have hmissing' : Assoc.get (a.request cur now).blocks cur = none := by rw [request_toChain, hmissing]
    have hg' : (a.request cur now).head.height < g := by rw [request_toChain]; exact hg
    rcases Nat.eq_or_lt_of_le (Nat.succ_le_of_lt hg') with hnext | hgap
    · rw [← hnext] at hasked
      refine succeeds_next hasked ?_
      rintro ⟨b, hb, -⟩
      rw [hmissing'] at hb
      cases hb
    · rw [succeeds_again (turn_gap (by rw [hasked]; rfl) hgap)]
      exact (succeeds_done (turn_missing hmissing')).mpr (drained_request hasked hg' hmissing')

lemma succeeds_walk (hknown : a.finalizedKnown = (g, cur) :: rest)
    (hordered : a.finalizedKnown.Pairwise fun e e' => e.1 < e'.1) (hg : a.head.height < g)
    (hheights : ∀ height id b, Descends a.blocks (g, cur) (height, id) → Assoc.get a.blocks id = some b →
      b.block.height = height)
    (hfrom : progressed = true → ∃ y c tail, rest = (g + 1, y) :: tail ∧ Assoc.get a.blocks y = some c ∧
      c.block.height = g + 1 ∧ c.block.parent = cur)
    (hfirst : progressed = false → a.head.height + 1 < g) :
    Succeeds now (.inner cur progressed, a) ↔
      ¬∃ id, Descends a.blocks (g, cur) (a.head.height + 1, id) ∧ a.Unfit id := by
  induction g generalizing cur rest progressed a with
  | zero => exact absurd hg (Nat.not_lt_zero _)
  | succ g ih =>
    cases hcached : Assoc.get a.blocks cur with
    | none =>
      refine iff_of_true (succeeds_missing hknown hg hcached) ?_
      rintro ⟨id, hd, b, hb, -⟩
      cases descends_missing hcached hd
      rw [hcached] at hb
      cases hb
    | some b =>
      have hheight : b.block.height = g + 1 := hheights _ _ _ (.refl _) hcached
      have hparents : ∀ height id b', Descends a.blocks (g, b.block.parent) (height, id) →
          Assoc.get a.blocks id = some b' → b'.block.height = height := by
        intro height id b' hd
        refine hheights height id b' (.parent hcached ?_)
        rwa [hheight, Nat.add_sub_cancel]
      rcases Nat.eq_or_lt_of_le (Nat.succ_le_of_lt hg) with hbottom | hhigh
      · -- The block after the head, marked already.
        have hgood : g = a.head.height := by omega
        subst hgood
        have hprogressed : progressed = true := by
          by_contra hnot
          have := hfirst (by simpa using hnot)
          omega
        subst hprogressed
        have hagain : a.markKnown (a.head.height + 1) cur = a := by
          show { a with finalizedKnown := Assoc.insertSorted a.finalizedKnown (a.head.height + 1) cur } = a
          rw [hknown, Assoc.insertSorted_first, ← hknown]
        have hturn : turn now (.inner cur true, a) = .inl (.outer, a) := by
          rw [turn_bottom hcached hheight, hheight, hagain]
          rfl
        rw [succeeds_again hturn]
        by_cases hunfit : a.Unfit cur
        · obtain ⟨y, c, tail, rfl, hy, hyHeight, hyParent⟩ := hfrom rfl
          obtain ⟨b', hb', hne⟩ := hunfit
          rw [hcached] at hb'
          cases hb'
          have hnever : ¬∃ a', Drains now a a' := never_drains hknown hordered hcached hheight hne hy hyHeight hyParent
          exact iff_of_false (fun ⟨a', hends, _⟩ => hnever ⟨a', hends⟩) (not_not.mpr ⟨cur, .refl _, b, hcached, hne⟩)
        · refine iff_of_true (succeeds_next hknown hunfit) ?_
          rintro ⟨id, hd, hid⟩
          rcases (descends_cached hcached).mp hd with heq | hbelow
          · cases heq
            exact hunfit hid
          · rw [hheight, Nat.add_sub_cancel] at hbelow
            have := descends_le hparents hbelow
            dsimp only at this
            omega
      · -- A parent of a lower height is marked before all others.
        have hlater : ∀ e ∈ a.finalizedKnown, g < e.1 := by
          intro e he
          rw [hknown] at he hordered
          rcases List.mem_cons.mp he with rfl | hrest
          · exact Nat.lt_succ_self g
          · have := (List.pairwise_cons.mp hordered).1 e hrest
            dsimp only at this
            omega
        have hmarked : (a.markKnown g b.block.parent).finalizedKnown = (g, b.block.parent) :: (g + 1, cur) :: rest := by
          show Assoc.insertSorted a.finalizedKnown g b.block.parent = _
          rw [Assoc.insertSorted_below hlater, hknown]
        have hturn : turn now (.inner cur progressed, a) = _ := turn_up hcached (by rw [hheight]; exact hhigh)
        rw [hheight, Nat.add_sub_cancel, Assoc.get_eq_none_of_lt hlater, Option.isNone_none, Bool.or_true] at hturn
        rw [succeeds_again hturn, ih hmarked ?_ ?_ hparents ?_ ?_]
        · refine not_congr (exists_congr fun id => and_congr_left fun _ => ?_)
          show Descends a.blocks (g, b.block.parent) (a.head.height + 1, id) ↔ _
          rw [descends_cached hcached, hheight, Nat.add_sub_cancel]
          refine ⟨.inr, fun hd => hd.resolve_left fun heq => ?_⟩
          have := congrArg Prod.fst heq
          dsimp only at this
          omega
        · rw [hmarked, ← hknown, List.pairwise_cons]
          exact ⟨hlater, hordered⟩
        · show a.head.height < g
          omega
        · exact fun _ => ⟨cur, b, rest, rfl, hcached, hheight, rfl⟩
        · exact fun h => by cases h

lemma Filed.tail (h : Filed a) (hknown : a.finalizedKnown = e :: rest) : Filed { a with finalizedKnown := rest } where
  ordered := by
    have hordered := h.ordered
    rw [hknown] at hordered
    exact (List.pairwise_cons.mp hordered).2
  height e he := h.height e (by rw [hknown]; exact List.mem_cons_of_mem _ he)

lemma Filed.later (h : Filed a) (hknown : a.finalizedKnown = e :: rest) : ∀ e' ∈ rest, e.1 < e'.1 := by
  have hordered := h.ordered
  rw [hknown] at hordered
  exact (List.pairwise_cons.mp hordered).1

lemma Filed.forget_first (h : Filed a) (hknown : a.finalizedKnown = (g, cur) :: rest) :
    a.forgetKnown g = { a with finalizedKnown := rest } := by
  unfold forgetKnown
  rw [hknown, Assoc.erase_first (h.later hknown)]

lemma succeeds_beyond (hfiled : Filed a) (hbeyond : ∀ e ∈ a.finalizedKnown, a.head.height + 1 < e.1) :
    Succeeds now (.outer, a) ↔ ¬∃ e, a.finalizedKnown.head? = some e ∧
      ∃ id, Descends a.blocks e (a.head.height + 1, id) ∧ a.Unfit id := by
  cases hknown : a.finalizedKnown with
  | nil =>
    refine iff_of_true ((succeeds_done (turn_empty (by rw [hknown]; rfl))).mpr (.inr (.inr hknown))) ?_
    rintro ⟨e, he, -⟩
    cases he
  | cons e rest =>
    obtain ⟨g, cur⟩ := e
    have hmem : (g, cur) ∈ a.finalizedKnown := by rw [hknown]; exact List.mem_cons_self
    have hg : a.head.height + 1 < g := hbeyond _ hmem
    rw [succeeds_again (turn_gap (by rw [hknown]; rfl) hg), succeeds_walk hknown hfiled.ordered (by omega)
      (hfiled.height _ hmem) (fun h => by cases h) (fun _ => hg)]
    simp only [List.head?_cons, Option.some.injEq, exists_eq_left']

lemma conflicted_beyond (hbeyond : ∀ e ∈ a.finalizedKnown, a.head.height + 1 < e.1) :
    Conflicted a ↔ ∃ e, a.finalizedKnown.head? = some e ∧
      ∃ id, Descends a.blocks e (a.head.height + 1, id) ∧ a.Unfit id := by
  have hfind : (a.finalizedKnown.find? fun e => a.head.height + 1 < e.1) = a.finalizedKnown.head? := by
    cases hknown : a.finalizedKnown with
    | nil => rfl
    | cons e rest =>
      rw [hknown] at hbeyond
      rw [List.find?_cons_of_pos (by simpa using hbeyond e List.mem_cons_self), List.head?_cons]
  unfold Conflicted
  rw [Assoc.get_eq_none_of_lt hbeyond, hfind]
  simp

lemma conflicted_dropped (hfiled : Filed a) (hknown : a.finalizedKnown = (a.head.height + 1, cur) :: rest) (hunfit : a.Unfit cur) :
    Conflicted a ↔ Conflicted { a with finalizedKnown := rest } := by
  have hlater := hfiled.later hknown
  have hget : Assoc.get a.finalizedKnown (a.head.height + 1) = some cur := by
    rw [hknown]
    simp [Assoc.get]
  have hfind : (a.finalizedKnown.find? fun e => a.head.height + 1 < e.1) =
      rest.find? fun e => a.head.height + 1 < e.1 := by
    rw [hknown, List.find?_cons_of_neg (by simp)]
  have hgone : Assoc.get rest (a.head.height + 1) = none := Assoc.get_eq_none_of_lt hlater
  unfold Conflicted
  dsimp only
  rw [hget, hfind, hgone]
  refine and_congr_left fun _ => iff_of_true ?_ ?_
  · rintro id heq
    cases heq
    exact hunfit
  · rintro id heq
    cases heq

lemma conflicted_applied (hknown : a.finalizedKnown = (g, cur) :: rest) (hg : g ≤ a.head.height) :
    Conflicted a ↔ Conflicted { a with finalizedKnown := rest } := by
  have hget : Assoc.get a.finalizedKnown (a.head.height + 1) = Assoc.get rest (a.head.height + 1) := by
    unfold Assoc.get
    rw [hknown, List.find?_cons_of_neg (by simp; omega)]
  have hfind : (a.finalizedKnown.find? fun e => a.head.height + 1 < e.1) =
      rest.find? fun e => a.head.height + 1 < e.1 := by
    rw [hknown, List.find?_cons_of_neg (by simp; omega)]
  unfold Conflicted
  dsimp only
  rw [hget, hfind]
  rfl

/-- For all that is cached and finalized over any head, with finalized blocks of the height of their parent and one:
the loops of `drain_finalized` end, with everything drained, if and only if there is no conflict. -/
theorem drains_iff (hfiled : Filed a) : (∃ a', Drains now a a' ∧ Drained now a') ↔ ¬Conflicted a := by
  show Succeeds now (.outer, a) ↔ _
  generalize hknown : a.finalizedKnown = known
  induction known generalizing a with
  | nil =>
    have hbeyond : ∀ e ∈ a.finalizedKnown, a.head.height + 1 < e.1 := by
      intro e he
      rw [hknown] at he
      cases he
    rw [succeeds_beyond hfiled hbeyond, conflicted_beyond hbeyond]
  | cons first rest ih =>
    obtain ⟨g, cur⟩ := first
    have hlater := hfiled.later hknown
    rcases Nat.lt_trichotomy g (a.head.height + 1) with hold | rfl | hgap
    · rw [succeeds_again (turn_applied (by rw [hknown]; rfl) (by omega)), hfiled.forget_first hknown,
        ih (hfiled.tail hknown) rfl, conflicted_applied hknown (by omega)]
    · by_cases hunfit : a.Unfit cur
      · obtain ⟨b, hb, hne⟩ := hunfit
        have hhead : a.finalizedKnown.head? = some (a.head.height + 1, cur) := by
          rw [hknown]
          rfl
        have hturn : turn now _ = _ := turn_next hhead
        rw [hb] at hturn
        dsimp only at hturn
        rw [if_pos hne] at hturn
        rw [succeeds_again hturn, hfiled.forget_first hknown, ih (hfiled.tail hknown) rfl,
          conflicted_dropped hfiled hknown ⟨b, hb, hne⟩]
      · refine iff_of_true (succeeds_next hknown hunfit) fun hconflicted => hunfit (hconflicted.1 cur ?_)
        rw [hknown]
        simp [Assoc.get]
    · have hbeyond : ∀ e ∈ a.finalizedKnown, a.head.height + 1 < e.1 := by
        intro e he
        rw [hknown] at he
        rcases List.mem_cons.mp he with rfl | hrest
        · exact hgap
        · exact hgap.trans (hlater e hrest)
      rw [succeeds_beyond hfiled hbeyond, conflicted_beyond hbeyond]

end Completeness

section Sample

/-- A block of the first height that does not follow genesis, and its child. -/
def forkedFirst : Cached := ⟨emptyBlock 1 99, [1, 99]⟩

def forkedSecond : Cached := ⟨emptyBlock 2 (Encodable.encode forkedFirst.bytes), [2, Encodable.encode forkedFirst.bytes]⟩

/-- A validator at genesis that has both blocks, where the second is reported to be finalized. -/
def forked : Actor := { start Links.sampleState with
  blocks := [(Encodable.encode forkedSecond.bytes, forkedSecond), (Encodable.encode forkedFirst.bytes, forkedFirst)]
  finalizedKnown := [(2, Encodable.encode forkedSecond.bytes)] }

/-- The same without the first block. -/
def parted : Actor := { forked with blocks := [(Encodable.encode forkedSecond.bytes, forkedSecond)] }

lemma forked_filed {blocks : List (Id × Cached)} (hblocks : blocks ⊆ forked.blocks) :
    Filed { forked with blocks := blocks } where
  ordered := List.pairwise_singleton ..
  height e he height id b hd hb := by
    obtain rfl := List.mem_singleton.mp he
    have hcached : ∀ {id b}, Assoc.get blocks id = some b →
        id = Encodable.encode forkedSecond.bytes ∧ b = forkedSecond ∨
          id = Encodable.encode forkedFirst.bytes ∧ b = forkedFirst := by
      intro id b h
      have hmem := hblocks (Assoc.mem_of_get h)
      simpa only [forked, List.mem_cons, Prod.mk.injEq, List.not_mem_nil, or_false] using hmem
    have hplaces : ∀ e e' : Nat × Id, Descends blocks e e' →
        e ∈ [(2, Encodable.encode forkedSecond.bytes), (1, Encodable.encode forkedFirst.bytes), (0, 99)] →
        e' ∈ [(2, Encodable.encode forkedSecond.bytes), (1, Encodable.encode forkedFirst.bytes), (0, 99)] := by
      intro e e' hd
      induction hd with
      | refl => exact fun h => h
      | parent hb _ ih =>
        refine fun _ => ih ?_
        rcases hcached hb with ⟨-, rfl⟩ | ⟨-, rfl⟩
        · exact List.mem_cons_of_mem _ List.mem_cons_self
        · exact List.mem_cons_of_mem _ (List.mem_cons_of_mem _ List.mem_cons_self)
    have hmem := hplaces _ _ hd List.mem_cons_self
    rcases hcached hb with ⟨rfl, rfl⟩ | ⟨rfl, rfl⟩
    · revert height
      simp only [List.mem_cons, Prod.mk.injEq, List.not_mem_nil, or_false]
      rintro height - (⟨rfl, -⟩ | ⟨-, heq⟩ | ⟨-, heq⟩)
      · rfl
      · exact absurd heq (by decide +kernel)
      · exact absurd heq (by decide +kernel)
    · revert height
      simp only [List.mem_cons, Prod.mk.injEq, List.not_mem_nil, or_false]
      rintro height - (⟨-, heq⟩ | ⟨rfl, -⟩ | ⟨-, heq⟩)
      · exact absurd heq (by decide +kernel)
      · rfl
      · exact absurd heq (by decide +kernel)

/-- The first block is missing, and is asked for. -/
theorem drains_iff_parted : ∃ a', Drains 0 parted a' ∧ Drained 0 a' := by
  have hsubset : [(Encodable.encode forkedSecond.bytes, forkedSecond)] ⊆ forked.blocks :=
    List.cons_subset_cons _ (List.nil_subset _)
  have hfiled : Filed parted := forked_filed hsubset
  refine (drains_iff hfiled).mpr ?_
  rintro ⟨-, e, he, id, hd, b, hb, -⟩
  have hheight := hfiled.height e (List.mem_of_find?_eq_some he) _ id b hd hb
  have hmem := Assoc.mem_of_get hb
  obtain ⟨-, rfl⟩ := Prod.mk.inj (List.mem_singleton.mp hmem)
  cases hheight

/-- Both blocks come from peers and the second is finalized: the loops never end. -/
theorem forked_never_drains :
    (exec (step retryConfig) (start Links.sampleState)
      [.block forkedFirst.bytes 0, .block forkedSecond.bytes 0]).blocks = forked.blocks ∧
    Filed forked ∧ ¬∃ a', Drains 0 forked a' := by
  have hgenuine : Filed forked := forked_filed (List.Subset.refl _)
  have hfirst : Assoc.get forked.blocks (Encodable.encode forkedFirst.bytes) = some forkedFirst := by decide +kernel
  have hsecond : Assoc.get forked.blocks (Encodable.encode forkedSecond.bytes) = some forkedSecond := by decide +kernel
  refine ⟨by decide +kernel, hgenuine, ?_⟩
  let marked := forked.markKnown 1 (Encodable.encode forkedFirst.bytes)
  have hgap : turn 0 (.outer, forked) = .inl (.inner (Encodable.encode forkedSecond.bytes) false, forked) :=
    turn_gap (rfl : forked.finalizedKnown.head? = some (2, _)) (by decide)
  have hup : turn 0 (.inner (Encodable.encode forkedSecond.bytes) false, forked) =
      .inl (.inner (Encodable.encode forkedFirst.bytes) true, marked) := turn_up hsecond (by decide)
  have hback : turn 0 (.inner (Encodable.encode forkedFirst.bytes) true, marked) = .inl (.outer, marked) :=
    turn_bottom (a := marked) hfirst rfl
  rintro ⟨a', hends⟩
  rw [Drains, ends_again hgap, ends_again hup, ends_again hback] at hends
  refine never_drains (a := marked) (show marked.finalizedKnown = _ :: _ :: [] from rfl) ?_ hfirst rfl ?_ hsecond rfl rfl ⟨a', hends⟩
  · exact List.pairwise_cons.mpr ⟨fun e he => by rw [List.mem_singleton.mp he]; decide, List.pairwise_singleton ..⟩
  · decide

end Sample

end Peal.Consensus.Actor
