import Peal.Library.Utf8
import Peal.Links.DepositId
import Peal.Mempool.SealedOrders

namespace Peal.Mempool
open Peal.Fallible Peal.Runs Peal.Sha256

/-! # A batch settles whole or not at all

A batch is one transaction: a slot that cannot be executed takes the others with it, and the settler does not come
back to a condition whose batch has reverted. -/

/-! ### The settler -/

abbrev Text := List Char

/-- The key of a condition on chain. -/
def cond32 (id : Text) : Nat := Peal.Links.fromBeBytes (sha256 (Utf8.encode id))

/-- `done` are the conditions that are settled, skipped or being settled; `inFlight` are the last ones. -/
structure Settler where
  done : Finset Text
  inFlight : Finset Text
  world : World

/-- How an attempt ends: the root is already on chain, the transaction is sent and mined, or something throws. -/
inductive Outcome where
  | settled
  | sent (slots : List Slot) (root : Bytes)
  | threw (message : Text)
  deriving DecidableEq, Repr

/-- `/revert|already/i`. -/
def permanent (message : Text) : Bool :=
  decide ("revert".toList <:+: message.map Char.toLower) || decide ("already".toList <:+: message.map Char.toLower)

inductive Settler.Event where
  | poll (id : Text)
  | conclude (id : Text) (outcome : Outcome)
  | call (call : Call)
  deriving DecidableEq, Repr

variable (d : Deployment)

namespace Settler

/-- A condition is marked before anything is awaited; only a passing failure takes the mark away. -/
def step (s : Settler) : Event → Except Unit Settler
  | .poll id => do
    require (id ∉ s.done) ()
    return { s with done := insert id s.done, inFlight := insert id s.inFlight }
  | .conclude id outcome => do
    require (id ∈ s.inFlight) ()
    let s := { s with inFlight := s.inFlight.erase id }
    match outcome with
    | .settled => do
      require (s.world.settledRoot (cond32 id) ≠ zero32) ()
      return s
    | .sent slots root =>
      return { s with
        world := advance (Mempool.step d) s.world (.executeBatch d.coordinator (cond32 id) slots root) }
    | .threw message => return if permanent message then s else { s with done := s.done.erase id }
  | .call call => return { s with world := advance (Mempool.step d) s.world call }

end Settler

section Statement

def World.reserve (w : World) : Token → Nat
  | .base => w.reserveBase
  | .quote => w.reserveQuote

/-- What an order buys at the reserves of the pool. -/
def World.price (w : World) (o : SwapOrder) : Nat :=
  w.reserve o.pays.other * (o.amountIn * FEE_NUM) / (w.reserve o.pays * FEE_DEN + o.amountIn * FEE_NUM)

/-- An order the pool would fill: no overflow, its floor is met, and both sides can pay. -/
structure Fillable (w : World) (o : SwapOrder) : Prop where
  operator : w.operator = d.mempool
  amount : o.amountIn ≠ 0
  numerator : w.reserve o.pays.other * (o.amountIn * FEE_NUM) < 2 ^ 256
  denominator : w.reserve o.pays * FEE_DEN + o.amountIn * FEE_NUM < 2 ^ 256
  floor : o.minOut ≤ w.price o
  allowed : (w.token o.pays).allowance o.trader d.pool = 2 ^ 256 - 1 ∨
    o.amountIn ≤ (w.token o.pays).allowance o.trader d.pool
  balance : o.amountIn ≤ (w.token o.pays).balanceOf o.trader
  bought : w.price o ≤ (w.token o.pays.other).balanceOf d.pool
  room : w.reserve o.pays + o.amountIn < 2 ^ 256
  reserve : w.price o ≤ w.reserve o.pays.other

/-- A slot that is padding, or a well-formed order that succeeds at its turn. -/
def Executes (w : World) (s : Slot) : Prop :=
  s.isReal = true → ∃ o, decodeOrder s.payload = some o ∧ Fillable d w o

/-- The contract takes the batch up. -/
structure Opens (w : World) (caller conditionId : Nat) (slots : List Slot) (root : Bytes) : Prop where
  coordinator : caller = d.coordinator
  unsettled : w.settledRoot conditionId = zero32
  root : merkleRoot slots = root

def World.opened (w : World) (conditionId : Nat) (root : Bytes) : World :=
  { w with settledRoot := Function.update w.settledRoot conditionId root }

/-- The batch with the slots that fail left out: every order that succeeds at its turn is executed. -/
def isolated (w : World) (conditionId : Nat) (slots : List Slot) (root : Bytes) : World :=
  exec (executeSlot d) (w.opened conditionId root) slots

/-- Every slot of the batch executes at its turn. -/
def AllExecute (w : World) (conditionId : Nat) (slots : List Slot) (root : Bytes) : Prop :=
  Along (executeSlot d) (Executes d) (w.opened conditionId root) slots

end Statement

section Proof

variable {d : Deployment} {w w' : World} {slots : List Slot} {root : Bytes} {conditionId : Nat}

/-! ### One order -/

lemma move_succeeds {t : DemoToken} {sender recipient amount : Nat} :
    (∃ t', t.move sender recipient amount = .ok t') ↔ amount ≤ t.balanceOf sender := by
  simp only [DemoToken.move, bind_eq_ok, require_eq_ok, pure_eq_ok]
  constructor
  · rintro ⟨-, -, h, -⟩
    exact h
  · exact fun h => ⟨_, (), h, rfl⟩

lemma transferFrom_succeeds {t : DemoToken} {caller sender recipient amount : Nat} :
    (∃ t', t.transferFrom caller sender recipient amount = .ok t') ↔
      (t.allowance sender caller = 2 ^ 256 - 1 ∨ amount ≤ t.allowance sender caller) ∧ amount ≤ t.balanceOf sender := by
  unfold DemoToken.transferFrom
  dsimp only
  split_ifs with hinfinite
  · simp only [bind_eq_ok, require_eq_ok]
    constructor
    · rintro ⟨t', -, hallowed, hmove⟩
      have hbalance := move_succeeds.mp ⟨t', hmove⟩
      exact ⟨.inr hallowed, hbalance⟩
    · rintro ⟨hallowed, hbalance⟩
      have hmove : ∃ t', (t.approve sender caller (t.allowance sender caller - amount)).move sender recipient amount =
          .ok t' := move_succeeds.mpr hbalance
      obtain ⟨t', ht'⟩ := hmove
      exact ⟨t', (), hallowed.resolve_left hinfinite, ht'⟩
  · rw [move_succeeds]
    exact ⟨fun h => ⟨.inl (not_not.mp hinfinite), h⟩, fun h => h.2⟩

lemma getAmountOut_eq_ok {amountIn reserveIn reserveOut out : Nat} (h : amountIn ≠ 0) :
    getAmountOut amountIn reserveIn reserveOut = .ok out ↔
      reserveOut * (amountIn * FEE_NUM) < 2 ^ 256 ∧ reserveIn * FEE_DEN + amountIn * FEE_NUM < 2 ^ 256 ∧
        reserveOut * (amountIn * FEE_NUM) / (reserveIn * FEE_DEN + amountIn * FEE_NUM) = out := by
  have hpos : 0 < amountIn * FEE_NUM := Nat.mul_pos (Nat.pos_of_ne_zero h) (by decide)
  simp only [getAmountOut, if_neg h, bind_eq_ok, checked_eq_ok, require_eq_ok, pure_eq_ok]
  constructor
  · rintro ⟨a, ⟨-, rfl⟩, b, ⟨hnumerator, rfl⟩, c, ⟨-, rfl⟩, e, ⟨hdenominator, rfl⟩, -, -, hout⟩
    exact ⟨hnumerator, hdenominator, hout⟩
  · rintro ⟨hnumerator, hdenominator, hout⟩
    exact ⟨_, ⟨by omega, rfl⟩, _, ⟨hnumerator, rfl⟩, _, ⟨by omega, rfl⟩, _, ⟨hdenominator, rfl⟩, (), by omega, hout⟩

/-- The pool fills an order exactly when it is fillable. -/
theorem swap_succeeds (o : SwapOrder) :
    (∃ r, swap d w d.mempool o.trader o.baseToQuote o.amountIn o.minOut o.recipient = .ok r) ↔ Fillable d w o := by
  obtain ⟨trader, baseToQuote, amountIn, minOut, recipient⟩ := o
  unfold swap
  cases baseToQuote
  all_goals
    simp only [bind_eq_ok, require_eq_ok, checked_eq_ok, checkedSub_eq_ok, pure_eq_ok, if_true, Bool.false_eq_true,
      if_false]
    constructor
    · rintro ⟨r, -, hcaller, -, hamount, out, hprice, -, hmin, tin, hin, tout, hout, -, ⟨hroom, -⟩, -, ⟨hreserve, -⟩, -⟩
      obtain ⟨hnumerator, hdenominator, rfl⟩ := (getAmountOut_eq_ok hamount).mp hprice
      obtain ⟨hallowed, hbalance⟩ := transferFrom_succeeds.mp ⟨tin, hin⟩
      exact ⟨hcaller.symm, hamount, hnumerator, hdenominator, hmin, hallowed, hbalance, move_succeeds.mp ⟨tout, hout⟩,
        hroom, hreserve⟩
    · intro h
      obtain ⟨tin, hin⟩ := transferFrom_succeeds.mpr ⟨h.allowed, h.balance⟩
      obtain ⟨tout, hout⟩ := move_succeeds.mpr h.bought
      have hprice := (getAmountOut_eq_ok h.amount).mpr ⟨h.numerator, h.denominator, rfl⟩
      exact ⟨_, (), h.operator.symm, (), h.amount, _, hprice, (), h.floor, tin, hin, tout, hout, _, ⟨h.room, rfl⟩, _,
        ⟨h.reserve, rfl⟩, rfl⟩

lemma executeSlot_succeeds (s : Slot) : (∃ w', executeSlot d w s = .ok w') ↔ Executes d w s := by
  unfold executeSlot Executes
  by_cases hreal : s.isReal = true
  · simp only [hreal, if_true, forall_true_left, bind_eq_ok, expect_eq_ok, pure_eq_ok]
    constructor
    · rintro ⟨w', o, ho, r, hswap, -⟩
      exact ⟨o, ho, (swap_succeeds o).mp ⟨r, hswap⟩⟩
    · rintro ⟨o, ho, hfill⟩
      obtain ⟨r, hr⟩ := (swap_succeeds o).mpr hfill
      exact ⟨r.2, o, ho, r, hr, rfl⟩
  · rw [if_neg hreal]
    exact iff_of_true ⟨w, rfl⟩ fun h => absurd h hreal

/-! ### One batch -/

/-- Steps chained so that the first failure ends them succeed when each does, and then end where attempting each
ends. -/
theorem foldlM_eq_ok_iff_exec {σ α ε : Type} {step : σ → α → Except ε σ} {s s' : σ} {as : List α} :
    as.foldlM step s = .ok s' ↔ Along step (fun s a => ∃ s', step s a = .ok s') s as ∧ s' = exec step s as := by
  induction as generalizing s with
  | nil =>
    rw [List.foldlM_nil, pure_eq_ok]
    exact ⟨fun h => ⟨trivial, h.symm⟩, fun h => h.2.symm⟩
  | cons a as ih =>
    rw [foldlM_cons_eq_ok]
    constructor
    · rintro ⟨s₁, hstep, hrest⟩
      obtain ⟨halong, hend⟩ := ih.mp hrest
      rw [← advance_of_ok step hstep] at halong hend
      exact ⟨⟨⟨s₁, hstep⟩, halong⟩, hend⟩
    · rintro ⟨⟨⟨s₁, hstep⟩, halong⟩, hend⟩
      rw [exec_cons, advance_of_ok step hstep] at hend
      rw [advance_of_ok step hstep] at halong
      exact ⟨s₁, hstep, ih.mpr ⟨halong, hend⟩⟩

/-- A batch goes through exactly when each of its orders does, and then executes them all. -/
theorem executeBatch_eq_ok {caller : Nat} :
    executeBatch d w caller conditionId slots root = .ok w' ↔
      Opens d w caller conditionId slots root ∧ AllExecute d w conditionId slots root ∧
        w' = isolated d w conditionId slots root := by
  have hsucceeds : (fun w s => ∃ w', executeSlot d w s = .ok w') = Executes d := by
    funext w s
    exact propext (executeSlot_succeeds s)
  simp only [executeBatch, bind_eq_ok, require_eq_ok, foldlM_eq_ok_iff_exec, hsucceeds]
  constructor
  · rintro ⟨-, hcaller, -, hunsettled, -, hroot, hall, hend⟩
    exact ⟨⟨hcaller, hunsettled, hroot⟩, hall, hend⟩
  · rintro ⟨⟨hcaller, hunsettled, hroot⟩, hall, hend⟩
    exact ⟨(), hcaller, (), hunsettled, (), hroot, hall, hend⟩

/-! ### The settler's runs -/

variable {s s' : Settler} {id : Text}

/-- A condition that is dealt with: neither taken up again nor concluded again. -/
def Settler.Closed (id : Text) (s : Settler) : Prop := id ∈ s.done ∧ id ∉ s.inFlight

lemma Settler.step_marked {e : Settler.Event} (h : s.inFlight ⊆ s.done) (hstep : s.step d e = .ok s') :
    s'.inFlight ⊆ s'.done := by
  cases e with
  | poll id =>
    simp only [Settler.step, bind_eq_ok, require_eq_ok, pure_eq_ok] at hstep
    obtain ⟨-, -, rfl⟩ := hstep
    exact Finset.insert_subset_insert id h
  | conclude id outcome =>
    simp only [Settler.step, bind_eq_ok, require_eq_ok] at hstep
    obtain ⟨-, -, hstep⟩ := hstep
    have herased : s.inFlight.erase id ⊆ s.done := (Finset.erase_subset _ _).trans h
    cases outcome with
    | settled =>
      simp only [bind_eq_ok, require_eq_ok, pure_eq_ok] at hstep
      obtain ⟨-, -, rfl⟩ := hstep
      exact herased
    | sent slots root =>
      obtain rfl := pure_eq_ok.mp hstep
      exact herased
    | threw message =>
      obtain rfl := pure_eq_ok.mp hstep
      split_ifs
      · exact herased
      · exact Finset.erase_subset_erase id h
  | call call =>
    obtain rfl := pure_eq_ok.mp hstep
    exact h

lemma Settler.Closed.refuses (h : s.Closed id) (outcome : Outcome) :
    s.step d (.poll id) = .error () ∧ s.step d (.conclude id outcome) = .error () := by
  constructor
  · simp [Settler.step, require, h.1, bind, Except.bind]
  · simp [Settler.step, require, h.2, bind, Except.bind]

lemma Settler.Closed.step {e : Settler.Event} (h : s.Closed id) (hstep : s.step d e = .ok s') : s'.Closed id := by
  cases e with
  | poll other =>
    have hne : other ≠ id := by
      rintro rfl
      rw [(h.refuses .settled).1] at hstep
      cases hstep
    simp only [Settler.step, bind_eq_ok, require_eq_ok, pure_eq_ok] at hstep
    obtain ⟨-, -, rfl⟩ := hstep
    refine ⟨Finset.mem_insert_of_mem h.1, fun hmem => h.2 ?_⟩
    exact (Finset.mem_insert.mp hmem).resolve_left hne.symm
  | conclude other outcome =>
    have hne : other ≠ id := by
      rintro rfl
      rw [(h.refuses outcome).2] at hstep
      cases hstep
    have herased : id ∉ s.inFlight.erase other := fun hmem => h.2 (Finset.mem_of_mem_erase hmem)
    simp only [Settler.step, bind_eq_ok, require_eq_ok] at hstep
    obtain ⟨-, -, hstep⟩ := hstep
    cases outcome with
    | settled =>
      simp only [bind_eq_ok, require_eq_ok, pure_eq_ok] at hstep
      obtain ⟨-, -, rfl⟩ := hstep
      exact ⟨h.1, herased⟩
    | sent slots root =>
      obtain rfl := pure_eq_ok.mp hstep
      exact ⟨h.1, herased⟩
    | threw message =>
      obtain rfl := pure_eq_ok.mp hstep
      split_ifs
      · exact ⟨h.1, herased⟩
      · exact ⟨Finset.mem_erase_of_ne_of_mem hne.symm h.1, herased⟩
  | call call =>
    obtain rfl := pure_eq_ok.mp hstep
    exact h

lemma advance_executeBatch (w : World) (conditionId : Nat) (slots : List Slot) (root : Bytes) :
    (Opens d w d.coordinator conditionId slots root ∧ AllExecute d w conditionId slots root ∧
        advance (step d) w (.executeBatch d.coordinator conditionId slots root) = isolated d w conditionId slots root) ∨
      (¬(Opens d w d.coordinator conditionId slots root ∧ AllExecute d w conditionId slots root) ∧
        advance (step d) w (.executeBatch d.coordinator conditionId slots root) = w) := by
  have hstep : step d w (.executeBatch d.coordinator conditionId slots root) =
      executeBatch d w d.coordinator conditionId slots root := rfl
  cases h : executeBatch d w d.coordinator conditionId slots root with
  | ok w' =>
    obtain ⟨hopens, hall, hend⟩ := executeBatch_eq_ok.mp h
    exact .inl ⟨hopens, hall, (advance_of_ok (step d) (hstep.trans h)).trans hend⟩
  | error e =>
    refine .inr ⟨fun hboth => ?_, advance_of_error (step d) (hstep.trans h)⟩
    rw [executeBatch_eq_ok.mpr ⟨hboth.1, hboth.2, rfl⟩] at h
    cases h

/-- A batch whose first order is not even an order, and whose second one is good. -/
def spoiledSlots : List Slot := { position := 0, isReal := true, payload := [1, 2, 3] } ::
  [{ position := 1, isReal := true, payload := samplePayload }]

def sampleSettler : Settler := ⟨∅, ∅, sampleWorld⟩

end Proof

end Peal.Mempool
