import Peal.Library.Bisection
import Peal.Mempool.Coverage

namespace Peal.Mempool.Searcher
open Peal.Fallible Peal.Runs Peal.Balances Peal.ConstantProduct Peal.Bisection

/-! # How large a sandwich the searcher plans, and what the builder makes of it -/

def FEE_NUM : Int := 997

def FEE_DEN : Int := 1000

/-- Headroom under the victim's revert floor, in basis points. -/
def MARGIN_BPS : Int := 5

/-- Divisions of the source truncate. -/
def getAmountOut (amountIn reserveIn reserveOut : Int) : Int :=
  if amountIn ≤ 0 then 0
  else
    let inWithFee := amountIn * FEE_NUM
    (reserveOut * inWithFee).tdiv (reserveIn * FEE_DEN + inWithFee)

structure Reserves where
  base : Int
  quote : Int
  deriving DecidableEq, Repr

/-- Reserves as seen by the swap direction. -/
def forDir (r : Reserves) (baseToQuote : Bool) : Int × Int :=
  if baseToQuote then (r.base, r.quote) else (r.quote, r.base)

def victimOutAfterFront (r : Reserves) (baseToQuote : Bool) (victimIn frontIn : Int) : Int :=
  let (rIn, rOut) := forDir r baseToQuote
  let frontOut := getAmountOut frontIn rIn rOut
  getAmountOut victimIn (rIn + frontIn) (rOut - frontOut)

structure SandwichPlan where
  worthIt : Bool
  frontIn : Int
  profit : Int
  deriving DecidableEq, Repr

/-- The victim's floor with the margin on top. -/
def wall (minOut : Int) : Int := minOut + (minOut * MARGIN_BPS).tdiv 10000

def planSandwich (r : Reserves) (baseToQuote : Bool) (victimIn minOut : Int) : SandwichPlan :=
  let (rIn, rOut) := forDir r baseToQuote
  let floor := wall minOut
  let frontIn := bisect (fun mid => floor ≤ victimOutAfterFront r baseToQuote victimIn mid) 256 0 rIn
  let frontOut := getAmountOut frontIn rIn rOut
  let rInAfterFront := rIn + frontIn
  let rOutAfterFront := rOut - frontOut
  let victimOut := getAmountOut victimIn rInAfterFront rOutAfterFront
  let rInAfterVictim := rInAfterFront + victimIn
  let rOutAfterVictim := rOutAfterFront - victimOut
  let backOut := getAmountOut frontOut rOutAfterVictim rInAfterVictim
  let profit := backOut - frontIn
  { worthIt := decide (0 < frontIn) && decide (0 < profit), frontIn := frontIn, profit := profit }

section Plan

variable {r : Reserves} {baseToQuote : Bool} {victimIn minOut : Int}

lemma getAmountOut_cast (a x y : Nat) :
    getAmountOut a x y = (amountOut Mempool.FEE_NUM Mempool.FEE_DEN x y a : Nat) := by
  unfold getAmountOut amountOut
  split_ifs with h
  · have hzero : a = 0 := by omega
    simp [hzero]
  · rw [Int.tdiv_eq_ediv_of_nonneg (by unfold FEE_NUM; positivity)]
    unfold FEE_NUM FEE_DEN Mempool.FEE_NUM Mempool.FEE_DEN
    push_cast
    rfl

variable (baseToQuote) in
lemma forDir_cast (hbase : 0 < r.base) (hquote : 0 < r.quote) :
    ∃ x y : Nat, 0 < x ∧ 0 < y ∧ forDir r baseToQuote = ((x : Int), (y : Int)) := by
  obtain ⟨base, hb⟩ := Int.eq_ofNat_of_zero_le hbase.le
  obtain ⟨quote, hq⟩ := Int.eq_ofNat_of_zero_le hquote.le
  unfold forDir
  cases baseToQuote
  · exact ⟨quote, base, by omega, by omega, by rw [hb, hq]; rfl⟩
  · exact ⟨base, quote, by omega, by omega, by rw [hb, hq]; rfl⟩

lemma victimOutAfterFront_cast {x y : Nat} (hdir : forDir r baseToQuote = ((x : Int), (y : Int))) (v f : Nat) :
    victimOutAfterFront r baseToQuote v f =
      (amountAfter Mempool.FEE_NUM Mempool.FEE_DEN x y v f : Nat) := by
  unfold victimOutAfterFront
  rw [hdir]
  dsimp only
  rw [getAmountOut_cast, ← Nat.cast_sub amountOut_le, ← Nat.cast_add, getAmountOut_cast]
  rfl

lemma plan_profit {x y v f fo vo : Nat} (hdir : forDir r baseToQuote = ((x : Int), (y : Int)))
    (hf : (planSandwich r baseToQuote v minOut).frontIn = f)
    (hfo : fo = amountOut Mempool.FEE_NUM Mempool.FEE_DEN x y f)
    (hvo : vo = amountAfter Mempool.FEE_NUM Mempool.FEE_DEN x y v f) :
    (planSandwich r baseToQuote v minOut).profit =
      (amountOut Mempool.FEE_NUM Mempool.FEE_DEN (y - fo - vo) (x + f + v) fo : Nat) - (f : Int) := by
  have hle : fo ≤ y := hfo ▸ amountOut_le
  have hle' : vo ≤ y - fo := by
    rw [hvo, hfo]
    exact amountOut_le
  have hvictim : getAmountOut v ((x : Int) + f) ((y : Int) - fo) = vo := by
    rw [← Nat.cast_sub hle, ← Nat.cast_add, getAmountOut_cast, hvo, hfo]
    rfl
  unfold planSandwich at hf ⊢
  rw [hdir] at hf ⊢
  dsimp only at hf ⊢
  rw [hf, getAmountOut_cast, ← hfo, hvictim, ← Nat.cast_sub hle, ← Nat.cast_sub hle', ← Nat.cast_add, ← Nat.cast_add,
    getAmountOut_cast]

theorem victimOut_antitone (hbase : 0 < r.base) (hquote : 0 < r.quote) (hvictim : 0 < victimIn) {f f' : Int}
    (hf : 0 ≤ f) (hff : f ≤ f') :
    victimOutAfterFront r baseToQuote victimIn f' ≤ victimOutAfterFront r baseToQuote victimIn f := by
  obtain ⟨x, y, hx, -, hdir⟩ := forDir_cast baseToQuote hbase hquote
  lift f to Nat using hf
  lift f' to Nat using by omega
  lift victimIn to Nat using hvictim.le
  rw [victimOutAfterFront_cast hdir, victimOutAfterFront_cast hdir]
  exact_mod_cast amountAfter_antitone (by decide) hx (by exact_mod_cast hff)

variable (baseToQuote minOut) in
/-- The front-run is the largest one that leaves the victim its floor with the margin. -/
theorem plan_largest (hbase : 0 < r.base ∧ r.base < 2 ^ 256) (hquote : 0 < r.quote ∧ r.quote < 2 ^ 256)
    (hvictim : 0 < victimIn) :
    IsGreatest {f | 0 < f ∧ f < (forDir r baseToQuote).1 ∧
        wall minOut ≤ victimOutAfterFront r baseToQuote victimIn f} (planSandwich r baseToQuote victimIn minOut).frontIn ∨
      (planSandwich r baseToQuote victimIn minOut).frontIn = 0 ∧ ∀ f, 0 < f → f < (forDir r baseToQuote).1 →
        victimOutAfterFront r baseToQuote victimIn f < wall minOut := by
  have hin : 0 < (forDir r baseToQuote).1 ∧ (forDir r baseToQuote).1 < 2 ^ 256 := by
    unfold forDir
    cases baseToQuote
    · exact hquote
    · exact hbase
  have hrounds : (forDir r baseToQuote).1 - 0 ≤ 2 ^ 256 := by omega
  have hsearch := bisect_isGreatest (p := fun mid => decide (wall minOut ≤
    victimOutAfterFront r baseToQuote victimIn mid)) le_rfl hin.1 hrounds ?_
  · simp only [decide_eq_true_eq, decide_eq_false_iff_not, not_le] at hsearch
    exact hsearch
  · intro a b ha hab _ hb
    rw [decide_eq_true_eq] at hb ⊢
    exact hb.trans (victimOut_antitone hbase.1 hquote.1 hvictim ha.le hab)

end Plan

/-! ### The legs of the sandwich on chain -/

/-- The searcher read the builder's pool as it is, and the order still waits. -/
structure Faces (builder : Address) (b : PublicBuilder) (id : Nat) (r : Reserves) (baseToQuote : Bool)
    (victimIn minOut : Int) : Prop where
  operator : b.world.operator = builder
  known : (b.pending id).trader ≠ 0
  waiting : b.executed id = false
  base : (b.world.reserveBase : Int) = r.base
  quote : (b.world.reserveQuote : Int) = r.quote
  direction : (b.pending id).baseToQuote = baseToQuote
  amount : ((b.pending id).amountIn : Int) = victimIn
  floor : ((b.pending id).minOut : Int) = minOut

def Allows (t : DemoToken) (owner spender amount : Nat) : Prop :=
  t.allowance owner spender = 2 ^ 256 - 1 ∨ amount ≤ t.allowance owner spender

/-- Searcher and victim can pay their legs; where they are one account, it can pay both. -/
structure Endowed (d : Deployment) (b : PublicBuilder) (searcher : Address) (id frontIn frontOut : Nat) : Prop where
  front : frontIn ≤ (b.world.token (b.pending id).pays).balanceOf searcher ∧
    Allows (b.world.token (b.pending id).pays) searcher d.pool frontIn
  victim : (b.pending id).amountIn + (if (b.pending id).trader = searcher then frontIn else 0) ≤
      (b.world.token (b.pending id).pays).balanceOf (b.pending id).trader ∧
    Allows (b.world.token (b.pending id).pays) (b.pending id).trader d.pool
      ((b.pending id).amountIn + if (b.pending id).trader = searcher then frontIn else 0)
  back : Allows (b.world.token (b.pending id).pays.other) searcher d.pool frontOut

/-- A quote the pool computes in machine words. -/
def Fits (amountIn reserveIn reserveOut : Int) : Prop :=
  reserveOut * (amountIn * FEE_NUM) < 2 ^ 256 ∧ reserveIn * FEE_DEN + amountIn * FEE_NUM < 2 ^ 256

def NoOverflow (r : Reserves) (baseToQuote : Bool) (victimIn frontIn : Int) : Prop :=
  let (rIn, rOut) := forDir r baseToQuote
  let frontOut := getAmountOut frontIn rIn rOut
  let victimOut := victimOutAfterFront r baseToQuote victimIn frontIn
  Fits frontIn rIn rOut ∧ Fits victimIn (rIn + frontIn) (rOut - frontOut) ∧
    Fits frontOut (rOut - frontOut - victimOut) (rIn + frontIn + victimIn)

section Legs

variable {d : Deployment} {w : World} {self : Address} {o : SwapOrder}

lemma Allows.pulled {t t' : DemoToken} {caller sender recipient who amount n : Nat}
    (h : t.transferFrom caller sender recipient amount = .ok t')
    (hallows : Allows t who caller (n + if who = sender then amount else 0)) : Allows t' who caller n := by
  unfold DemoToken.transferFrom at h
  dsimp only at h
  split_ifs at h with hinfinite
  · obtain ⟨-, -, hmove⟩ := bind_eq_ok.mp h
    unfold Allows at hallows ⊢
    rw [(move_keeps hmove).2.2]
    unfold DemoToken.approve
    by_cases hwho : who = sender
    · subst hwho
      rw [if_pos rfl] at hallows
      have hlimit := hallows.resolve_left hinfinite
      right
      simp only [Function.update_self]
      omega
    · rw [if_neg hwho, Nat.add_zero] at hallows
      simpa [hwho] using hallows
  · unfold Allows at hallows ⊢
    rw [(move_keeps h).2.2]
    exact hallows.imp_right fun hle => (Nat.le_add_right _ _).trans hle

/-- A quote in machine words, over the natural numbers. -/
def Computes (x y a : Nat) : Prop :=
  y * (a * Mempool.FEE_NUM) < 2 ^ 256 ∧ x * Mempool.FEE_DEN + a * Mempool.FEE_NUM < 2 ^ 256

lemma leg (hw : Covered d w) (hoperator : w.operator = self) (hamount : o.amountIn ≠ 0)
    (hcomputes : Computes (w.reserve o.pays) (w.reserve o.pays.other) o.amountIn)
    (hfloor : o.minOut ≤ w.price o) (hallows : Allows (w.token o.pays) o.trader d.pool o.amountIn)
    (hbalance : o.amountIn ≤ (w.token o.pays).balanceOf o.trader) :
    ∃ w', Trade.run d w ⟨self, o⟩ = .ok (w.price o, w') ∧ Filled d w w' o (w.price o) ∧ w'.operator = self ∧
      (w.token o.pays).transferFrom d.pool o.trader d.pool o.amountIn = .ok (w'.token o.pays) := by
  obtain ⟨hnumerator, hdenominator⟩ := hcomputes
  have hle : w.price o ≤ w.reserve o.pays.other := by
    rw [price_eq]
    exact amountOut_le
  have hroom : w.reserve o.pays + o.amountIn < 2 ^ 256 := by
    unfold Mempool.FEE_DEN Mempool.FEE_NUM at hdenominator
    omega
  have hfillable : Fillable { d with mempool := self } w o :=
    ⟨hoperator, hamount, hnumerator, hdenominator, hfloor, hallows, hbalance, hle.trans (hw.reserves _), hroom, hle⟩
  obtain ⟨⟨out, w'⟩, hswap⟩ := (swap_succeeds o).mpr hfillable
  have hrun : Trade.run d w ⟨self, o⟩ = .ok (out, w') := hswap
  have hfilled := filled_of_ok hrun
  obtain rfl : out = w.price o := hfilled.price
  refine ⟨w', hrun, hfilled, ?_⟩
  obtain ⟨trader, baseToQuote, amountIn, minOut, recipient⟩ := o
  unfold Trade.run swap at hrun
  cases baseToQuote
  all_goals
    simp only [bind_eq_ok, require_eq_ok, checked_eq_ok, checkedSub_eq_ok, pure_eq_ok, if_true, Bool.false_eq_true,
      if_false] at hrun
    obtain ⟨-, -, -, -, price, -, -, -, tin, hin, tout, -, -, ⟨-, rfl⟩, -, ⟨-, rfl⟩, heq⟩ := hrun
    obtain ⟨-, rfl⟩ := Prod.mk.inj heq
    exact ⟨hoperator, hin⟩

lemma poolSwap_of_run {b : PublicBuilder} {out : Nat} {w' : World}
    (h : Trade.run d b.world ⟨self, o⟩ = .ok (out, w')) :
    PublicBuilder.poolSwap d self b o.trader o.baseToQuote o.amountIn o.minOut o.recipient =
      .ok (out, { b with world := w' }) := by
  unfold Trade.run at h
  unfold PublicBuilder.poolSwap
  rw [h]
  rfl

lemma fits_cast {a x y : Nat} : Fits a x y ↔ Computes x y a := by
  unfold Fits Computes FEE_NUM FEE_DEN Mempool.FEE_NUM Mempool.FEE_DEN
  constructor
  · rintro ⟨hnumerator, hdenominator⟩
    exact ⟨by exact_mod_cast hnumerator, by exact_mod_cast hdenominator⟩
  · rintro ⟨hnumerator, hdenominator⟩
    exact ⟨by exact_mod_cast hnumerator, by exact_mod_cast hdenominator⟩

lemma three_legs {b : PublicBuilder} {searcher : Address} {id f fo vo bo x y : Nat} (hw : Covered d b.world)
    (hoperator : b.world.operator = self) (hknown : (b.pending id).trader ≠ 0) (hwaiting : b.executed id = false)
    (hx : b.world.reserve (b.pending id).pays = x) (hy : b.world.reserve (b.pending id).pays.other = y)
    (hfo : fo = amountOut Mempool.FEE_NUM Mempool.FEE_DEN x y f)
    (hvo : vo = amountAfter Mempool.FEE_NUM Mempool.FEE_DEN x y (b.pending id).amountIn f)
    (hbo : bo = amountOut Mempool.FEE_NUM Mempool.FEE_DEN (y - fo - vo) (x + f + (b.pending id).amountIn) fo)
    (hf : f ≠ 0) (hv : (b.pending id).amountIn ≠ 0) (hunwinds : fo ≠ 0) (hfront : Computes x y f)
    (hvictim : Computes (x + f) (y - fo) (b.pending id).amountIn)
    (hback : Computes (y - fo - vo) (x + f + (b.pending id).amountIn) fo) (hfloor : (b.pending id).minOut ≤ vo)
    (hendowed : Endowed d b searcher id f fo) :
    ∃ b', PublicBuilder.sandwich d self b searcher id f = .ok ((vo, if f < bo then bo - f else 0), b') := by
  let b₀ : PublicBuilder := { b with executed := Function.update b.executed id true }
  have htake : PublicBuilder.take b id = .ok (b.pending id, b₀) := by
    unfold PublicBuilder.take
    simp only [bind_eq_ok, require_eq_ok, pure_eq_ok]
    exact ⟨(), hknown, (), hwaiting, rfl⟩
  obtain ⟨⟨hfrontBalance, hfrontAllows⟩, ⟨hvictimBalance, hvictimAllows⟩, hbackAllows⟩ := hendowed
  generalize b.pending id = o at *
  -- The front-run goes the victim's way, the back-run the other way.
  let front : SwapOrder := ⟨searcher, o.baseToQuote, f, 0, searcher⟩
  let back : SwapOrder := ⟨searcher, !o.baseToQuote, fo, 0, searcher⟩
  have hfrontPays : front.pays = o.pays := rfl
  have hbackPays : back.pays = o.pays.other := by
    unfold SwapOrder.pays
    cases hdirection : o.baseToQuote <;> simp [back, hdirection, Token.other]
  have hprice₁ : b.world.price front = fo := by rw [price_eq, hfrontPays, hx, hy, hfo]
  obtain ⟨w₁, hrun₁, hfilled₁, hoperator₁, hpull₁⟩ := leg (o := front) hw hoperator hf
    (by rw [hfrontPays, hx, hy]; exact hfront) (Nat.zero_le _) hfrontAllows hfrontBalance
  rw [hprice₁] at hrun₁ hfilled₁
  have hw₁ : Covered d w₁ := hfilled₁.covered hw
  have hx₁ : w₁.reserve o.pays = x + f := by rw [← hx]; exact hfilled₁.reserveIn
  have hy₁ : w₁.reserve o.pays.other = y - fo := by rw [← hy]; exact hfilled₁.reserveOut
  have hsearcher : searcher ≠ d.pool := hfilled₁.trader_ne hw.standing
  have hpaid₁ : (w₁.token o.pays).balanceOf = moved (b.world.token o.pays).balanceOf searcher d.pool f :=
    hfilled₁.paid hw.standing
  have htrader : o.trader ≠ d.pool := by
    intro heq
    rw [heq] at hvictimAllows
    unfold Allows at hvictimAllows
    rw [hw.unlent] at hvictimAllows
    rcases hvictimAllows with hmax | hle
    · exact absurd hmax (by decide)
    · omega
  have hbalance₁ : o.amountIn ≤ (w₁.token o.pays).balanceOf o.trader := by
    rw [hpaid₁]
    by_cases hsame : o.trader = searcher
    · rw [if_pos hsame, hsame] at hvictimBalance
      rw [hsame, moved_sender hsearcher.symm]
      omega
    · rw [if_neg hsame] at hvictimBalance
      rw [moved_of_ne hsame htrader]
      omega
  have hallows₁ : Allows (w₁.token o.pays) o.trader d.pool o.amountIn := Allows.pulled hpull₁ hvictimAllows
  have hprice₂ : w₁.price o = vo := by rw [price_eq, hx₁, hy₁, hvo, hfo]; rfl
  obtain ⟨w₂, hrun₂, hfilled₂, hoperator₂, -⟩ := leg hw₁ hoperator₁ hv (by rw [hx₁, hy₁]; exact hvictim)
    (by rw [hprice₂]; exact hfloor) hallows₁ hbalance₁
  rw [hprice₂] at hrun₂ hfilled₂
  have hw₂ : Covered d w₂ := hfilled₂.covered hw₁
  have hx₂ : w₂.reserve o.pays = x + f + o.amountIn := by rw [hfilled₂.reserveIn, hx₁]
  have hy₂ : w₂.reserve o.pays.other = y - fo - vo := by rw [hfilled₂.reserveOut, hy₁]
  have hunwound : back.pays.other = o.pays := by rw [hbackPays, other_other]
  have hbalance₂ : fo ≤ (w₂.token o.pays.other).balanceOf searcher := by
    have hbought : (w₁.token o.pays.other).balanceOf = moved (b.world.token o.pays.other).balanceOf d.pool searcher fo :=
      hfilled₁.bought hw.standing
    rw [hfilled₂.bought hw₁.standing]
    refine le_trans ?_ (le_moved hsearcher)
    rw [hbought, moved_recipient hsearcher]
    exact Nat.le_add_left _ _
  have hallows₂ : Allows (w₂.token o.pays.other) searcher d.pool fo := by
    have hsent₁ : (b.world.token o.pays.other).move d.pool searcher fo = .ok (w₁.token o.pays.other) := hfilled₁.sent
    have hsent₂ : (w₁.token o.pays.other).move d.pool o.recipient vo = .ok (w₂.token o.pays.other) := hfilled₂.sent
    unfold Allows at hbackAllows ⊢
    rw [(move_keeps hsent₂).2.2, (move_keeps hsent₁).2.2]
    exact hbackAllows
  have hprice₃ : w₂.price back = bo := by rw [price_eq, hunwound, hbackPays, hx₂, hy₂, hbo]
  obtain ⟨w₃, hrun₃, -⟩ := leg (o := back) hw₂ hoperator₂ hunwinds (by rw [hunwound, hbackPays, hx₂, hy₂]; exact hback)
    (Nat.zero_le _) (by rw [hbackPays]; exact hallows₂) (by rw [hbackPays]; exact hbalance₂)
  rw [hprice₃] at hrun₃
  have hswap₁ := poolSwap_of_run (o := front) (b := b₀) hrun₁
  have hswap₂ := poolSwap_of_run (o := o) (b := { b₀ with world := w₁ }) hrun₂
  have hswap₃ := poolSwap_of_run (o := back) (b := { b₀ with world := w₂ }) hrun₃
  refine ⟨{ b₀ with world := w₃ }, ?_⟩
  unfold PublicBuilder.sandwich
  simp only [bind_eq_ok, pure_eq_ok, Prod.exists]
  exact ⟨_, _, htake, _, _, hswap₁, _, _, hswap₂, _, _, hswap₃, rfl⟩

lemma Faces.reserves {b : PublicBuilder} {id : Nat} {r : Reserves} {baseToQuote : Bool} {victimIn minOut : Int}
    (h : Faces self b id r baseToQuote victimIn minOut) :
    forDir r baseToQuote = ((b.world.reserve (b.pending id).pays : Int),
      (b.world.reserve (b.pending id).pays.other : Int)) := by
  rw [← h.direction]
  unfold forDir SwapOrder.pays
  cases (b.pending id).baseToQuote
  · exact Prod.ext h.quote.symm h.base.symm
  · exact Prod.ext h.base.symm h.quote.symm

end Legs

section Result

/-- The victim's output only falls as the front-run grows; the plan takes the largest front-run that leaves the victim
its floor and the margin; and where the plan is worth it, on a pool as it was read and with the legs paid for, the
builder's sandwich goes through and returns the planned profit. -/
theorem sandwich_as_planned {r : Reserves} {baseToQuote : Bool} {victimIn minOut : Int}
    (hbase : 0 < r.base ∧ r.base < 2 ^ 256) (hquote : 0 < r.quote ∧ r.quote < 2 ^ 256) (hvictim : 0 < victimIn) :
    let rIn := (forDir r baseToQuote).1
    let plan := planSandwich r baseToQuote victimIn minOut
    (∀ f f', 0 ≤ f → f ≤ f' → f' ≤ rIn →
      victimOutAfterFront r baseToQuote victimIn f' ≤ victimOutAfterFront r baseToQuote victimIn f) ∧
    (IsGreatest {f | 0 < f ∧ f < rIn ∧ wall minOut ≤ victimOutAfterFront r baseToQuote victimIn f} plan.frontIn ∨
      plan.frontIn = 0 ∧ ∀ f, 0 < f → f < rIn → victimOutAfterFront r baseToQuote victimIn f < wall minOut) ∧
    ∀ (d : Deployment) (self searcher : Address) (b : PublicBuilder) (id : Nat), Launched d b.world →
      Faces self b id r baseToQuote victimIn minOut →
      Endowed d b searcher id plan.frontIn.toNat
        (getAmountOut plan.frontIn rIn (forDir r baseToQuote).2).toNat →
      NoOverflow r baseToQuote victimIn plan.frontIn → plan.worthIt = true →
      ∃ victimOut profit b', PublicBuilder.sandwich d self b searcher id plan.frontIn.toNat =
          .ok ((victimOut, profit), b') ∧
        (victimOut : Int) = victimOutAfterFront r baseToQuote victimIn plan.frontIn ∧ (profit : Int) = plan.profit := by
  intro rIn plan
  have hlargest := plan_largest baseToQuote minOut hbase hquote hvictim
  refine ⟨fun f f' hf hff _ => victimOut_antitone hbase.1 hquote.1 hvictim hf hff, hlargest, ?_⟩
  intro d self searcher b id hlaunched hfaces hendowed hfits hworth
  have hdir := hfaces.reserves
  have hworth' : 0 < plan.frontIn ∧ 0 < plan.profit := by
    have hboth : (decide (0 < plan.frontIn) && decide (0 < plan.profit)) = true := hworth
    simpa using hboth
  obtain ⟨hpositive, hgain⟩ := hworth'
  have hfloor : wall minOut ≤ victimOutAfterFront r baseToQuote victimIn plan.frontIn := by
    rcases hlargest with hgreatest | ⟨hzero, -⟩
    · exact hgreatest.1.2.2
    · exact absurd hzero hpositive.ne'
  obtain ⟨f, hf⟩ := Int.eq_ofNat_of_zero_le hpositive.le
  obtain ⟨v, rfl⟩ := Int.eq_ofNat_of_zero_le hvictim.le
  have hv : (b.pending id).amountIn = v := by exact_mod_cast hfaces.amount
  obtain ⟨fo, hfo⟩ : ∃ fo, fo = amountOut Mempool.FEE_NUM Mempool.FEE_DEN (b.world.reserve (b.pending id).pays)
    (b.world.reserve (b.pending id).pays.other) f := ⟨_, rfl⟩
  obtain ⟨vo, hvo⟩ : ∃ vo, vo = amountAfter Mempool.FEE_NUM Mempool.FEE_DEN (b.world.reserve (b.pending id).pays)
    (b.world.reserve (b.pending id).pays.other) v f := ⟨_, rfl⟩
  have hprofit : plan.profit = _ := plan_profit hdir hf hfo hvo
  have hvictimOut := victimOutAfterFront_cast hdir v f
  rw [← hvo] at hvictimOut
  have hfrontOut := getAmountOut_cast f (b.world.reserve (b.pending id).pays) (b.world.reserve (b.pending id).pays.other)
  rw [← hfo] at hfrontOut
  have hle : fo ≤ b.world.reserve (b.pending id).pays.other := hfo ▸ amountOut_le
  have hle' : vo ≤ b.world.reserve (b.pending id).pays.other - fo := by
    rw [hvo, hfo]
    exact amountOut_le
  unfold NoOverflow at hfits
  simp only [rIn] at hendowed
  rw [hdir] at hfits hendowed
  rw [hf] at hfits hendowed hfloor hpositive ⊢
  dsimp only at hfits hendowed
  rw [hfrontOut, hvictimOut, ← Nat.cast_sub hle, ← Nat.cast_sub hle', ← Nat.cast_add, ← Nat.cast_add, fits_cast,
    fits_cast, fits_cast, ← hv] at hfits
  rw [hfrontOut, Int.toNat_natCast, Int.toNat_natCast] at hendowed
  have hmin : (b.pending id).minOut ≤ vo := by
    have hmargin : 0 ≤ (minOut * MARGIN_BPS).tdiv 10000 := by
      rw [← hfaces.floor]
      exact Int.tdiv_nonneg (by unfold MARGIN_BPS; positivity) (by decide)
    rw [hvictimOut] at hfloor
    unfold wall at hfloor
    have hfloor' := hfaces.floor
    omega
  have hunwinds : fo ≠ 0 := by
    rintro rfl
    rw [hprofit] at hgain
    simp [amountOut] at hgain
    omega
  obtain ⟨b', hsandwich⟩ := three_legs hlaunched.covered hfaces.operator hfaces.known hfaces.waiting rfl rfl hfo
    (by rw [hv]; exact hvo) rfl (by omega) (by omega) hunwinds hfits.1 hfits.2.1 hfits.2.2 hmin hendowed
  refine ⟨vo, _, b', hsandwich, hvictimOut.symm, ?_⟩
  rw [hprofit, ← hv] at hgain ⊢
  rw [if_pos (by omega), Nat.cast_sub (by omega)]

/-- Two deployed tokens, a pool that nobody operates yet. -/
def bareWorld : World where
  base := DemoToken.deployed 13
  quote := DemoToken.deployed 13
  reserveBase := 0
  reserveQuote := 0
  operator := 0
  swaps := []
  settledRoot := fun _ => zero32
  sealedOrders := []

/-- The pool is seeded, and account 5, the victim, and account 6, the searcher, approve it. -/
def seedCalls : List Call :=
  [.initOperator 13 11, .mint .base 13 10 1000000, .mint .quote 13 10 1000000, .sync 13, .mint .base 13 5 100000,
    .mint .base 13 6 70000, .approve .base 5 10 100000, .approve .base 6 10 70000, .approve .quote 6 10 (2 ^ 256 - 1)]

def seededBuilder : PublicBuilder where
  world := exec (step sampleDeployment) bareWorld seedCalls
  pending := fun id => if id = 1 then ⟨5, true, 100000, 80000, 5⟩ else ⟨0, false, 0, 0, 0⟩
  executed := fun _ => false
  nonce := 1

def seededReserves : Reserves := ⟨1000000, 1000000⟩

theorem sandwich_as_planned_seeded :
    planSandwich seededReserves true 100000 80000 = ⟨true, 67445, 12285⟩ ∧
      ∃ b', PublicBuilder.sandwich sampleDeployment 11 seededBuilder 6 1 67445 = .ok ((80040, 12285), b') := by
  have hplan : planSandwich seededReserves true 100000 80000 = ⟨true, 67445, 12285⟩ := by decide +kernel
  have hlaunched : Launched sampleDeployment seededBuilder.world := by
    refine ⟨bareWorld, fun _ => 13, seedCalls, fun k => ?_, by decide, rfl⟩
    cases k <;> exact ⟨rfl, rfl⟩
  have hfaces : Faces 11 seededBuilder 1 seededReserves true 100000 80000 := by
    constructor <;> decide +kernel
  have hendowed : Endowed sampleDeployment seededBuilder 6 1 67445 63005 := by
    constructor
    · exact ⟨by decide +kernel, .inr (by decide +kernel)⟩
    · exact ⟨by decide +kernel, .inr (by decide +kernel)⟩
    · exact .inl (by decide +kernel)
  have hfits : NoOverflow seededReserves true 100000 67445 := by
    unfold NoOverflow Fits
    decide +kernel
  obtain ⟨victimOut, profit, b', hsandwich, hvictimOut, hprofit⟩ := (sandwich_as_planned (r := seededReserves)
    (by decide) (by decide) (by decide)).2.2 sampleDeployment 11 6 seededBuilder 1 hlaunched hfaces
    (by rw [hplan]; exact hendowed) (by rw [hplan]; exact hfits) (by rw [hplan])
  rw [hplan] at hsandwich hvictimOut hprofit
  have hvictim : victimOutAfterFront seededReserves true 100000 67445 = 80040 := by decide +kernel
  obtain rfl : victimOut = 80040 := by exact_mod_cast hvictimOut.trans hvictim
  obtain rfl : profit = 12285 := Int.ofNat.inj hprofit
  exact ⟨hplan, b', hsandwich⟩

end Result

end Peal.Mempool.Searcher
