import Mathlib.Algebra.BigOperators.Group.Finset.Basic
import Mathlib.Tactic

namespace Peal.Notes

/-! # Notes set aside for owners, and the holdings that claim them -/

variable {κ : Type}

/-- Value set aside for an owner, or for nobody. -/
structure Note (κ : Type) where
  amount : Nat
  owner : Option κ
  deriving DecidableEq, Repr

/-- What an owner has at hand, and the positions of the notes it has claimed. -/
structure Holding (κ : Type) where
  owner : κ
  balance : Nat
  claimed : List Nat
  deriving DecidableEq, Repr

/-- The holdings, and the log of notes. -/
structure Pool (κ : Type) where
  holdings : List (Holding κ) := []
  notes : List (Note κ) := []
  minted : Nat := 0
  deriving DecidableEq, Repr

inductive Move (κ : Type) where
  | enrol (who : κ)
  | issue (amount : Nat) (receiver : κ)
  | pay (who : κ) (amount : Nat) (receiver : κ)
  | claim (who : κ) (position : Nat)
  deriving DecidableEq, Repr

/-- The note a claim leaves. -/
def blank : Note κ := ⟨0, none⟩

/-- The positions that some of the moves claim. -/
def claims (moves : List (Move κ)) : List Nat :=
  moves.filterMap fun
    | .claim _ position => some position
    | _ => none

namespace Pool

section Moves

variable [DecidableEq κ]

def holding (p : Pool κ) (who : κ) : Option (Holding κ) := p.holdings.find? fun h => h.owner = who

def put (p : Pool κ) (h : Holding κ) : Pool κ :=
  { p with holdings := p.holdings.map fun g => if g.owner = h.owner then h else g }

def append (p : Pool κ) (n : Note κ) : Pool κ := { p with notes := p.notes ++ [n] }

def move (p : Pool κ) : Move κ → Option (Pool κ)
  | .enrol who => do
    guard (p.holding who = none)
    return { p with holdings := p.holdings ++ [⟨who, 0, []⟩] }
  | .issue amount receiver => some { p.append ⟨amount, some receiver⟩ with minted := p.minted + amount }
  | .pay who amount receiver => do
    let h ← p.holding who
    guard (amount ≤ h.balance)
    return (p.put { h with balance := h.balance - amount }).append ⟨amount, some receiver⟩
  | .claim who position => do
    let h ← p.holding who
    let n ← p.notes[position]?
    guard (n.owner = some who ∧ position ∉ h.claimed)
    return (p.put { h with balance := h.balance + n.amount, claimed := h.claimed ++ [position] }).append blank

def run (p : Pool κ) (moves : List (Move κ)) : Option (Pool κ) := moves.foldlM move p

end Moves

def balances (p : Pool κ) : Nat := (p.holdings.map (·.balance)).sum

/-- The positions that some holding has claimed. -/
def claimed (p : Pool κ) : List Nat := p.holdings.flatMap (·.claimed)

def amountAt (p : Pool κ) (position : Nat) : Nat := (p.notes[position]?.map (·.amount)).getD 0

/-- The value of the notes that no holding has claimed. -/
def unclaimed (p : Pool κ) : Nat := ∑ i ∈ Finset.range p.notes.length with i ∉ p.claimed, p.amountAt i

/-- Owners are told apart, claim only notes that are theirs, and no value is lost or made. -/
structure Kept (p : Pool κ) : Prop where
  owners : (p.holdings.map (·.owner)).Nodup
  owned : ∀ h ∈ p.holdings, ∀ i ∈ h.claimed, ∃ n, p.notes[i]? = some n ∧ n.owner = some h.owner
  conserved : p.balances + p.unclaimed = p.minted

variable {p p' : Pool κ}

lemma mem_claimed {i : Nat} : i ∈ p.claimed ↔ ∃ h ∈ p.holdings, i ∈ h.claimed := List.mem_flatMap

lemma Kept.claimed_lt (hp : Kept p) {i : Nat} (hi : i ∈ p.claimed) : i < p.notes.length := by
  obtain ⟨h, hh, hmem⟩ := mem_claimed.mp hi
  obtain ⟨n, hn, -⟩ := hp.owned h hh i hmem
  exact (List.getElem?_eq_some_iff.mp hn).1

/-! ## The value of the unclaimed notes -/

lemma unclaimed_congr (hnotes : p'.notes = p.notes) (hclaimed : ∀ i, i ∈ p'.claimed ↔ i ∈ p.claimed) :
    p'.unclaimed = p.unclaimed := by
  unfold unclaimed amountAt
  rw [hnotes]
  congr 1
  exact Finset.filter_congr fun i _ => not_congr (hclaimed i)

lemma unclaimed_append (hlt : ∀ i ∈ p.claimed, i < p.notes.length) (n : Note κ) :
    (p.append n).unclaimed = p.unclaimed + n.amount := by
  have hnew : p.notes.length ∉ p.claimed := fun hmem => lt_irrefl _ (hlt _ hmem)
  have hlast : (p.append n).amountAt p.notes.length = n.amount := by simp [append, amountAt]
  have hold : ∀ i ∈ Finset.range p.notes.length,
      (if i ∉ p.claimed then (p.append n).amountAt i else 0) = if i ∉ p.claimed then p.amountAt i else 0 := by
    intro i hi
    unfold append amountAt
    rw [List.getElem?_append_left (Finset.mem_range.mp hi)]
  have hlen : (p.append n).notes.length = p.notes.length + 1 := by simp [append]
  unfold unclaimed
  rw [Finset.sum_filter, Finset.sum_filter, hlen, Finset.sum_range_succ]
  show ∑ i ∈ _, (if i ∉ p.claimed then _ else _) + (if _ ∉ p.claimed then _ else _) = _
  rw [Finset.sum_congr rfl hold, if_pos hnew, hlast]

lemma unclaimed_claim {position : Nat} {n : Note κ} (hn : p.notes[position]? = some n)
    (hnew : position ∉ p.claimed) (hnotes : p'.notes = p.notes)
    (hclaimed : ∀ i, i ∈ p'.claimed ↔ i ∈ p.claimed ∨ i = position) :
    p'.unclaimed + n.amount = p.unclaimed := by
  have hmem : position ∈ {i ∈ Finset.range p.notes.length | i ∉ p.claimed} := by
    rw [Finset.mem_filter, Finset.mem_range]
    exact ⟨(List.getElem?_eq_some_iff.mp hn).1, hnew⟩
  have herase : {i ∈ Finset.range p.notes.length | i ∉ p'.claimed} =
      Finset.erase {i ∈ Finset.range p.notes.length | i ∉ p.claimed} position := by
    ext i
    rw [Finset.mem_erase, Finset.mem_filter, Finset.mem_filter, hclaimed, not_or]
    tauto
  have hamount : p.amountAt position = n.amount := by rw [amountAt, hn, Option.map_some, Option.getD_some]
  have hsame : p'.amountAt = p.amountAt := by
    unfold amountAt
    rw [hnotes]
  unfold unclaimed
  rw [hnotes, herase, hsame, ← hamount, Finset.sum_erase_add _ _ hmem]

lemma getElem?_append_some {i : Nat} {n : Note κ} (hn : p.notes[i]? = some n) (m : Note κ) :
    (p.append m).notes[i]? = some n :=
  (List.getElem?_append_left (List.getElem?_eq_some_iff.mp hn).1).trans hn

lemma owned_append (hp : Kept p) {h : Holding κ} (hh : h ∈ p.holdings) {i : Nat} (hi : i ∈ h.claimed) (n : Note κ) :
    ∃ m, (p.append n).notes[i]? = some m ∧ m.owner = some h.owner := by
  obtain ⟨m, hm, howner⟩ := hp.owned h hh i hi
  exact ⟨m, getElem?_append_some hm n, howner⟩

/-! ## The moves -/

variable [DecidableEq κ] {who receiver : κ} {amount position : Nat} {h h' : Holding κ}

lemma holding_owner (hh : p.holding who = some h) : h.owner = who := by
  simpa using List.find?_some hh

lemma holding_mem (hh : p.holding who = some h) : h ∈ p.holdings := List.mem_of_find?_eq_some hh

lemma put_split (howners : (p.holdings.map (·.owner)).Nodup) (hh : p.holding who = some h) (howner : h'.owner = who) :
    ∃ front back, p.holdings = front ++ h :: back ∧ (p.put h').holdings = front ++ h' :: back := by
  obtain ⟨hself, front, back, hsplit, hfront⟩ := List.find?_eq_some_iff_append.mp hh
  rw [hsplit, List.map_append, List.map_cons, List.nodup_append, List.nodup_cons] at howners
  obtain ⟨-, ⟨hback, -⟩, -⟩ := howners
  have hkeep : ∀ rest : List (Holding κ), (∀ g ∈ rest, g.owner ≠ who) →
      (rest.map fun g => if g.owner = h'.owner then h' else g) = rest := by
    intro rest hrest
    refine (List.map_congr_left fun g hg => ?_).trans (List.map_id _)
    rw [if_neg (howner ▸ hrest g hg)]
    rfl
  refine ⟨front, back, hsplit, ?_⟩
  have hwho : h.owner = who := holding_owner hh
  unfold put
  rw [hsplit, List.map_append, List.map_cons, if_pos (hwho.trans howner.symm), hkeep front, hkeep back]
  · intro g hg heq
    exact hback (List.mem_map.mpr ⟨g, hg, heq.trans hwho.symm⟩)
  · intro g hg
    simpa using hfront g hg

lemma put_owners (h : Holding κ) : (p.put h).holdings.map (·.owner) = p.holdings.map (·.owner) := by
  unfold put
  rw [List.map_map]
  apply List.map_congr_left
  intro g _
  rw [Function.comp_apply]
  split
  · next heq => exact heq.symm
  · rfl

lemma put_balances (howners : (p.holdings.map (·.owner)).Nodup) (hh : p.holding who = some h)
    (howner : h'.owner = who) : (p.put h').balances + h.balance = p.balances + h'.balance := by
  obtain ⟨front, back, hsplit, hput⟩ := put_split howners hh howner
  unfold balances
  rw [hsplit, hput]
  simp only [List.map_append, List.map_cons, List.sum_append, List.sum_cons]
  omega

lemma put_claimed (howners : (p.holdings.map (·.owner)).Nodup) (hh : p.holding who = some h) (howner : h'.owner = who)
    {new : List Nat} (hnew : h'.claimed = h.claimed ++ new) (i : Nat) :
    i ∈ (p.put h').claimed ↔ i ∈ p.claimed ∨ i ∈ new := by
  obtain ⟨front, back, hsplit, hput⟩ := put_split howners hh howner
  unfold claimed
  rw [hsplit, hput]
  simp only [List.flatMap_append, List.flatMap_cons, List.mem_append, hnew]
  tauto

lemma mem_put {g : Holding κ} (howners : (p.holdings.map (·.owner)).Nodup) (hh : p.holding who = some h)
    (howner : h'.owner = who) (hg : g ∈ (p.put h').holdings) : g = h' ∨ g ∈ p.holdings := by
  obtain ⟨front, back, hsplit, hput⟩ := put_split howners hh howner
  rw [hput] at hg
  rw [hsplit]
  simp only [List.mem_append, List.mem_cons] at hg ⊢
  tauto

lemma move_enrol : p.move (.enrol who) = some p' ↔
    p.holding who = none ∧ p' = { p with holdings := p.holdings ++ [⟨who, 0, []⟩] } := by
  simp only [move, Option.bind_eq_bind, Option.bind_eq_some_iff, Option.guard_eq_some', exists_const, Option.pure_def,
    Option.some.injEq, eq_comm (b := p')]

lemma move_pay : p.move (.pay who amount receiver) = some p' ↔ ∃ h, p.holding who = some h ∧ amount ≤ h.balance ∧
    p' = (p.put { h with balance := h.balance - amount }).append ⟨amount, some receiver⟩ := by
  simp only [move, Option.bind_eq_bind, Option.bind_eq_some_iff, Option.guard_eq_some', exists_const, Option.pure_def,
    Option.some.injEq, eq_comm (b := p')]

lemma move_claim : p.move (.claim who position) = some p' ↔ ∃ h n, p.holding who = some h ∧
    p.notes[position]? = some n ∧ n.owner = some who ∧ position ∉ h.claimed ∧
    p' = (p.put { h with balance := h.balance + n.amount, claimed := h.claimed ++ [position] }).append blank := by
  simp only [move, Option.bind_eq_bind, Option.bind_eq_some_iff, Option.guard_eq_some', exists_const, Option.pure_def,
    Option.some.injEq, eq_comm (b := p'), and_assoc, exists_and_left]

lemma Kept.write (hp : Kept p) (hh : p.holding who = some h) (howner : h'.owner = who) {new : List Nat} {n : Note κ}
    (hnew : h'.claimed = h.claimed ++ new)
    (howned : ∀ i ∈ new, ∃ m, p.notes[i]? = some m ∧ m.owner = some who)
    (hvalue : (p.put h').balances + (p.put h').unclaimed + n.amount = p.minted) :
    Kept ((p.put h').append n) ∧ ∀ i, i ∈ ((p.put h').append n).claimed ↔ i ∈ p.claimed ∨ i ∈ new := by
  have hclaimed := put_claimed hp.owners hh howner hnew
  refine ⟨⟨?_, ?_, ?_⟩, hclaimed⟩
  · show ((p.put h').holdings.map (·.owner)).Nodup
    rw [put_owners]
    exact hp.owners
  · intro g hg i hi
    rcases mem_put hp.owners hh howner hg with rfl | hold
    · rw [hnew, List.mem_append] at hi
      rcases hi with hi | hi
      · rw [howner, ← holding_owner hh]
        exact owned_append hp (holding_mem hh) hi n
      · obtain ⟨m, hm, hmine⟩ := howned i hi
        exact ⟨m, getElem?_append_some hm n, howner ▸ hmine⟩
    · exact owned_append hp hold hi n
  · have hlt : ∀ i ∈ (p.put h').claimed, i < (p.put h').notes.length := by
      intro i hi
      rcases (hclaimed i).mp hi with hold | hi
      · exact hp.claimed_lt hold
      · obtain ⟨m, hm, -⟩ := howned i hi
        exact (List.getElem?_eq_some_iff.mp hm).1
    rw [unclaimed_append hlt, ← Nat.add_assoc]
    exact hvalue

lemma Kept.unclaimed_of_owner (hp : Kept p) (hh : p.holding who = some h) {n : Note κ}
    (hn : p.notes[position]? = some n) (howner : n.owner = some who) (hnew : position ∉ h.claimed) :
    position ∉ p.claimed := by
  intro hmem
  obtain ⟨g, hg, hi⟩ := mem_claimed.mp hmem
  obtain ⟨m, hm, hg'⟩ := hp.owned g hg position hi
  obtain rfl := Option.some.inj (hn.symm.trans hm)
  have hsame : g.owner = h.owner :=
    (Option.some.inj (hg'.symm.trans howner)).trans (holding_owner hh).symm
  obtain rfl : g = h := List.inj_on_of_nodup_map hp.owners hg (holding_mem hh) hsame
  exact hnew hi

lemma Kept.move (hp : Kept p) {m : Move κ} (hm : p.move m = some p') :
    Kept p' ∧ (∀ i, i ∈ p'.claimed ↔ i ∈ p.claimed ∨ i ∈ claims [m]) ∧ ∀ i ∈ claims [m], i ∉ p.claimed := by
  have hconserved := hp.conserved
  cases m with
  | enrol who =>
    obtain ⟨hnone, rfl⟩ := move_enrol.mp hm
    have hclaimed : ∀ i, i ∈ claimed { p with holdings := p.holdings ++ [⟨who, 0, []⟩] } ↔ i ∈ p.claimed := by
      simp [claimed]
    refine ⟨⟨?_, ?_, ?_⟩, by simpa [claims] using hclaimed, by simp [claims]⟩
    · have hnew : who ∉ p.holdings.map (·.owner) := by simpa [holding] using hnone
      simpa [List.nodup_append, hp.owners] using hnew
    · intro h hh i hi
      rcases List.mem_append.mp hh with hold | hlast
      · exact hp.owned h hold i hi
      · rw [List.mem_singleton.mp hlast] at hi
        exact absurd hi List.not_mem_nil
    · have hsame : unclaimed { p with holdings := p.holdings ++ [⟨who, 0, []⟩] } = p.unclaimed :=
        unclaimed_congr rfl hclaimed
      rw [hsame]
      simpa [balances] using hconserved
  | issue amount receiver =>
    obtain rfl := Option.some.inj hm
    refine ⟨⟨hp.owners, fun h hh i hi => owned_append hp hh hi _, ?_⟩, by simp [claims, claimed, append],
      by simp [claims]⟩
    have hmore := unclaimed_append (fun i hi => hp.claimed_lt hi) ⟨amount, some receiver⟩
    show p.balances + (p.append ⟨amount, some receiver⟩).unclaimed = p.minted + amount
    rw [hmore, ← hconserved, Nat.add_assoc]
  | pay who amount receiver =>
    obtain ⟨h, hh, henough, rfl⟩ := move_pay.mp hm
    let h' : Holding κ := { h with balance := h.balance - amount }
    have howner : h'.owner = who := show h.owner = who from holding_owner hh
    have hnew : h'.claimed = h.claimed ++ [] := (List.append_nil _).symm
    have hbalances : (p.put h').balances + h.balance = p.balances + (h.balance - amount) :=
      put_balances hp.owners hh howner
    have hsame : (p.put h').unclaimed = p.unclaimed := by
      have hclaimed := put_claimed hp.owners hh howner hnew
      exact unclaimed_congr rfl (by simpa using hclaimed)
    obtain ⟨hkept, hclaimed⟩ := hp.write hh howner (n := ⟨amount, some receiver⟩) hnew (by simp) (by
      show (p.put h').balances + (p.put h').unclaimed + amount = p.minted
      omega)
    exact ⟨hkept, by simpa [claims] using hclaimed, by simp [claims]⟩
  | claim who position =>
    obtain ⟨h, n, hh, hn, hmine, hnot, rfl⟩ := move_claim.mp hm
    let h' : Holding κ := { h with balance := h.balance + n.amount, claimed := h.claimed ++ [position] }
    have howner : h'.owner = who := show h.owner = who from holding_owner hh
    have hfree : position ∉ p.claimed := hp.unclaimed_of_owner hh hn hmine hnot
    have hbalances : (p.put h').balances + h.balance = p.balances + (h.balance + n.amount) :=
      put_balances hp.owners hh howner
    have hless : (p.put h').unclaimed + n.amount = p.unclaimed := by
      have hclaimed := put_claimed hp.owners hh howner (rfl : h'.claimed = h.claimed ++ [position])
      exact unclaimed_claim hn hfree rfl (by simpa using hclaimed)
    obtain ⟨hkept, hclaimed⟩ := hp.write hh howner (n := blank)
      (rfl : h'.claimed = h.claimed ++ [position]) (by simpa using ⟨n, hn, hmine⟩) (by
        show (p.put h').balances + (p.put h').unclaimed + 0 = p.minted
        omega)
    exact ⟨hkept, by simpa [claims] using hclaimed, by simpa [claims] using hfree⟩

lemma run_concat (p : Pool κ) (moves : List (Move κ)) (m : Move κ) :
    p.run (moves ++ [m]) = (p.run moves).bind fun p' => p'.move m := by
  unfold run
  rw [List.foldlM_append]
  simp only [List.foldlM_cons, List.foldlM_nil, bind_pure]
  rfl

/-- Whatever moves a pool allows, what the holdings have and what the unclaimed notes are worth is what was
issued, and no position is claimed twice. -/
theorem run_keeps {moves : List (Move κ)} (hrun : run {} moves = some p) :
    Kept p ∧ (∀ i, i ∈ p.claimed ↔ i ∈ claims moves) ∧ (claims moves).Nodup := by
  induction moves using List.reverseRecOn generalizing p with
  | nil =>
    obtain rfl := Option.some.inj hrun
    exact ⟨⟨List.nodup_nil, by simp, rfl⟩, by simp [claimed, claims], List.nodup_nil⟩
  | append_singleton moves m ih =>
    rw [run_concat, Option.bind_eq_some_iff] at hrun
    obtain ⟨q, hq, hm⟩ := hrun
    obtain ⟨hkept, hclaimed, hnodup⟩ := ih hq
    obtain ⟨hkept', hclaimed', hfree⟩ := hkept.move hm
    have hclaims : claims (moves ++ [m]) = claims moves ++ claims [m] := List.filterMap_append
    have hone : (claims [m]).Nodup := by cases m <;> simp [claims]
    refine ⟨hkept', fun i => ?_, ?_⟩
    · rw [hclaimed', hclaimed, hclaims, List.mem_append]
    · rw [hclaims]
      refine hnodup.append hone ?_
      intro i hi hlast
      exact hfree i hlast ((hclaimed i).mpr hi)

/-! ## Notes set aside for an owner that has no holding -/

def ownerAt (p : Pool κ) (position : Nat) : Option κ := p.notes[position]?.bind (·.owner)

/-- The positions of the notes set aside for `who`. -/
def setAside (p : Pool κ) (who : κ) : Finset Nat := {i ∈ Finset.range p.notes.length | p.ownerAt i = some who}

/-- What is set aside for an owner that can claim none of it. -/
def burned (p : Pool κ) (dead : κ) : Nat := ∑ i ∈ p.setAside dead, p.amountAt i

/-- The balances, and the unclaimed notes of all other owners. -/
def circulating (p : Pool κ) (dead : κ) : Nat :=
  p.balances + ∑ i ∈ Finset.range p.notes.length with i ∉ p.claimed ∧ p.ownerAt i ≠ some dead, p.amountAt i

omit [DecidableEq κ] in
lemma Kept.unclaimed_setAside (hp : Kept p) {dead : κ} (hdead : ∀ h ∈ p.holdings, h.owner ≠ dead) {i : Nat}
    (hi : p.ownerAt i = some dead) : i ∉ p.claimed := by
  intro hmem
  obtain ⟨h, hh, hclaimed⟩ := mem_claimed.mp hmem
  obtain ⟨n, hn, howner⟩ := hp.owned h hh i hclaimed
  rw [ownerAt, hn, Option.bind_some, howner] at hi
  exact hdead h hh (Option.some.inj hi)

lemma Kept.circulating_burned (hp : Kept p) {dead : κ} (hdead : ∀ h ∈ p.holdings, h.owner ≠ dead) :
    p.circulating dead + p.burned dead = p.minted := by
  have hdeadSum : ∑ i ∈ Finset.range p.notes.length with i ∉ p.claimed ∧ ¬p.ownerAt i ≠ some dead, p.amountAt i =
      p.burned dead := by
    refine Finset.sum_congr (Finset.filter_congr fun i _ => ?_) fun _ _ => rfl
    rw [not_not]
    exact ⟨fun h => h.2, fun h => ⟨hp.unclaimed_setAside hdead h, h⟩⟩
  have hsplit : p.unclaimed =
      (∑ i ∈ Finset.range p.notes.length with i ∉ p.claimed ∧ p.ownerAt i ≠ some dead, p.amountAt i) +
        p.burned dead := by
    rw [← hdeadSum, ← Finset.filter_filter, ← Finset.filter_filter]
    exact (Finset.sum_filter_add_sum_filter_not _ _ _).symm
  rw [circulating, Nat.add_assoc, ← hsplit]
  exact hp.conserved

lemma burned_list (p : Pool κ) (dead : κ) : ((p.setAside dead).toList.map p.amountAt).sum = p.burned dead :=
  Finset.sum_map_toList _ _

lemma run_enrolled {moves : List (Move κ)} (hrun : run {} moves = some p) :
    ∀ h ∈ p.holdings, Move.enrol h.owner ∈ moves := by
  induction moves using List.reverseRecOn generalizing p with
  | nil =>
    obtain rfl := Option.some.inj hrun
    exact fun h hh => absurd hh List.not_mem_nil
  | append_singleton moves m ih =>
    rw [run_concat, Option.bind_eq_some_iff] at hrun
    obtain ⟨q, hq, hm⟩ := hrun
    have hbefore := ih hq
    have hput (g : Holding κ) (h : Holding κ) (hh : h ∈ (q.put g).holdings) : Move.enrol h.owner ∈ moves := by
      have howner : h.owner ∈ (q.put g).holdings.map (·.owner) := List.mem_map_of_mem hh
      rw [put_owners] at howner
      obtain ⟨h₀, hh₀, hsame⟩ := List.mem_map.mp howner
      exact hsame ▸ hbefore h₀ hh₀
    intro h hh
    rw [List.mem_append, List.mem_singleton]
    cases m with
    | enrol who =>
      obtain ⟨-, rfl⟩ := move_enrol.mp hm
      rcases List.mem_append.mp hh with hold | hnew
      · exact .inl (hbefore h hold)
      · rw [List.mem_singleton.mp hnew]
        exact .inr rfl
    | issue amount receiver =>
      obtain rfl := Option.some.inj hm
      exact .inl (hbefore h hh)
    | pay who amount receiver =>
      obtain ⟨g, -, -, rfl⟩ := move_pay.mp hm
      exact .inl (hput _ h hh)
    | claim who position =>
      obtain ⟨g, n, -, -, -, -, rfl⟩ := move_claim.mp hm
      exact .inl (hput _ h hh)

end Pool

end Peal.Notes
