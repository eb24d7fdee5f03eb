import Peal.Library.Fallible
import Peal.Library.PromotedTree
import Peal.Library.Sha256

namespace Peal.Mempool
open Peal.Fallible Peal.PromotedTree Peal.Sha256

/-! # The sealed lane: two demo tokens, the pool and the mempool contract -/

abbrev Address := Nat

abbrev Bytes := List Nat

inductive Revert where
  | notOwner
  | insufficientBalance
  | insufficientAllowance
  | notOperator
  | operatorAlreadySet
  | notAdmin
  | zeroAmount
  | slippage (got minOut : Nat)
  | notCoordinator
  | alreadySettled
  | rootMismatch (got want : Bytes)
  | badPayload
  | panic (code : Nat)
  deriving DecidableEq, Repr

/-! ## DemoToken -/

structure Transfer where
  sender : Address
  recipient : Address
  value : Nat
  deriving DecidableEq, Repr

structure DemoToken where
  owner : Address
  totalSupply : Nat
  balanceOf : Address → Nat
  allowance : Address → Address → Nat
  transfers : List Transfer

namespace DemoToken

def mint (t : DemoToken) (caller recipient amount : Nat) : Except Revert DemoToken := do
  require (caller = t.owner) .notOwner
  let supply ← checked (.panic 0x11) 256 (t.totalSupply + amount)
  return { t with
    totalSupply := supply
    balanceOf := Function.update t.balanceOf recipient ((t.balanceOf recipient + amount) % 2 ^ 256)
    transfers := t.transfers ++ [⟨0, recipient, amount⟩] }

def approve (t : DemoToken) (caller spender amount : Nat) : DemoToken :=
  { t with allowance := Function.update t.allowance caller (Function.update (t.allowance caller) spender amount) }

/-- The additions are unchecked in the source. -/
def move (t : DemoToken) (sender recipient amount : Nat) : Except Revert DemoToken := do
  require (amount ≤ t.balanceOf sender) .insufficientBalance
  let debited := Function.update t.balanceOf sender (t.balanceOf sender - amount)
  return { t with
    balanceOf := Function.update debited recipient ((debited recipient + amount) % 2 ^ 256)
    transfers := t.transfers ++ [⟨sender, recipient, amount⟩] }

def transfer (t : DemoToken) (caller recipient amount : Nat) : Except Revert DemoToken :=
  t.move caller recipient amount

def transferFrom (t : DemoToken) (caller sender recipient amount : Nat) : Except Revert DemoToken := do
  let allowed := t.allowance sender caller
  if allowed ≠ 2 ^ 256 - 1 then
    require (amount ≤ allowed) .insufficientAllowance
    (t.approve sender caller (allowed - amount)).move sender recipient amount
  else t.move sender recipient amount

end DemoToken

/-! ## SwapPool -/

structure Deployment where
  pool : Address
  mempool : Address
  coordinator : Address
  admin : Address

structure Swapped where
  payer : Address
  baseToQuote : Bool
  amountIn : Nat
  amountOut : Nat
  recipient : Address
  deriving DecidableEq, Repr

/-- A payload sealed off chain under a condition, with the participant who sealed it. -/
structure SealedOrder where
  author : Address
  conditionId : Nat
  payload : Bytes
  deriving DecidableEq, Repr

structure World where
  base : DemoToken
  quote : DemoToken
  reserveBase : Nat
  reserveQuote : Nat
  operator : Address
  swaps : List Swapped
  settledRoot : Nat → Bytes
  sealedOrders : List SealedOrder

variable (d : Deployment)

def FEE_NUM : Nat := 997

def FEE_DEN : Nat := 1000

def getAmountOut (amountIn reserveIn reserveOut : Nat) : Except Revert Nat := do
  if amountIn = 0 then return 0
  let inWithFee ← checked (.panic 0x11) 256 (amountIn * FEE_NUM)
  let numerator ← checked (.panic 0x11) 256 (reserveOut * inWithFee)
  let scaled ← checked (.panic 0x11) 256 (reserveIn * FEE_DEN)
  let denominator ← checked (.panic 0x11) 256 (scaled + inWithFee)
  require (denominator ≠ 0) (.panic 0x12)
  return numerator / denominator

def initOperator (w : World) (operator : Address) : Except Revert World := do
  require (w.operator = 0) .operatorAlreadySet
  return { w with operator := operator }

def reconcile (token : DemoToken) (current target : Nat) : Except Revert DemoToken :=
  if current < target then token.transferFrom d.pool d.admin d.pool (target - current)
  else if target < current then token.transfer d.pool d.admin (current - target)
  else .ok token

def adminSetReserves (w : World) (caller baseTarget quoteTarget : Nat) : Except Revert World := do
  require (caller = d.admin) .notAdmin
  let base ← reconcile d w.base w.reserveBase baseTarget
  let quote ← reconcile d w.quote w.reserveQuote quoteTarget
  return { w with base := base, quote := quote, reserveBase := baseTarget, reserveQuote := quoteTarget }

def sync (w : World) : World :=
  { w with reserveBase := w.base.balanceOf d.pool, reserveQuote := w.quote.balanceOf d.pool }

def swap (w : World) (caller payer : Address) (baseToQuote : Bool) (amountIn minOut : Nat) (recipient : Address) :
    Except Revert (Nat × World) := do
  require (caller = w.operator) .notOperator
  require (amountIn ≠ 0) .zeroAmount
  let (tokenIn, tokenOut, reserveIn, reserveOut) :=
    if baseToQuote then (w.base, w.quote, w.reserveBase, w.reserveQuote)
    else (w.quote, w.base, w.reserveQuote, w.reserveBase)
  let amountOut ← getAmountOut amountIn reserveIn reserveOut
  require (minOut ≤ amountOut) (.slippage amountOut minOut)
  let tokenIn ← tokenIn.transferFrom d.pool payer d.pool amountIn
  let tokenOut ← tokenOut.transfer d.pool recipient amountOut
  let reserveIn ← checked (.panic 0x11) 256 (reserveIn + amountIn)
  let reserveOut ← checkedSub (.panic 0x11) reserveOut amountOut
  let swaps := w.swaps ++ [⟨payer, baseToQuote, amountIn, amountOut, recipient⟩]
  if baseToQuote then
    return (amountOut, { w with
      base := tokenIn, quote := tokenOut, reserveBase := reserveIn, reserveQuote := reserveOut, swaps := swaps })
  else
    return (amountOut, { w with
      quote := tokenIn, base := tokenOut, reserveQuote := reserveIn, reserveBase := reserveOut, swaps := swaps })

/-! ## PealMempool -/

/-- A revealed slot; padding is hashed but not executed. -/
structure Slot where
  position : Nat
  isReal : Bool
  payload : Bytes
  deriving DecidableEq, Repr

/-- The value of a root that was never set. -/
def zero32 : Bytes := List.replicate 32 0

def le32 (x : Nat) : Bytes := [x % 256, x / 256 % 256, x / 256 ^ 2 % 256, x / 256 ^ 3 % 256]

def leaf (s : Slot) : Bytes := sha256 (le32 s.position ++ s.payload)

def merkleRoot (slots : List Slot) : Bytes :=
  (rootOf (fun l r => sha256 (l ++ r)) (slots.map leaf)).getD (sha256 [])

structure SwapOrder where
  trader : Address
  baseToQuote : Bool
  amountIn : Nat
  minOut : Nat
  recipient : Address
  deriving DecidableEq, Repr

def wordAt (payload : Bytes) (i : Nat) : Nat :=
  ((payload.drop (32 * i)).take 32).foldl (fun acc b => 256 * acc + b) 0

/-- The decoder wants five words, an address below `2 ^ 160` and a flag that is zero or one. -/
def decodeOrder (payload : Bytes) : Option SwapOrder := do
  guard (160 ≤ payload.length)
  guard (wordAt payload 0 < 2 ^ 160)
  guard (wordAt payload 1 < 2)
  guard (wordAt payload 4 < 2 ^ 160)
  return {
    trader := wordAt payload 0
    baseToQuote := wordAt payload 1 == 1
    amountIn := wordAt payload 2
    minOut := wordAt payload 3
    recipient := wordAt payload 4 }

def encodeOrder (o : SwapOrder) : Bytes :=
  toBytes 32 o.trader ++ toBytes 32 (if o.baseToQuote then 1 else 0) ++ toBytes 32 o.amountIn ++
    toBytes 32 o.minOut ++ toBytes 32 o.recipient

def executeSlot (w : World) (s : Slot) : Except Revert World := do
  if s.isReal then
    let o ← expect (decodeOrder s.payload) .badPayload
    let (_, w) ← swap d w d.mempool o.trader o.baseToQuote o.amountIn o.minOut o.recipient
    return w
  else return w

def executeBatch (w : World) (caller conditionId : Nat) (slots : List Slot) (root : Bytes) : Except Revert World := do
  require (caller = d.coordinator) .notCoordinator
  require (w.settledRoot conditionId = zero32) .alreadySettled
  let got := merkleRoot slots
  require (got = root) (.rootMismatch got root)
  slots.foldlM (executeSlot d) { w with settledRoot := Function.update w.settledRoot conditionId root }

/-! ## Everything anyone can do -/

inductive Token where
  | base
  | quote
  deriving DecidableEq, Repr

def World.token (w : World) : Token → DemoToken
  | .base => w.base
  | .quote => w.quote

def World.setToken (w : World) (k : Token) (t : DemoToken) : World :=
  match k with
  | .base => { w with base := t }
  | .quote => { w with quote := t }

inductive Call where
  | submitSealed (author conditionId : Nat) (payload : Bytes)
  | commitSealed (caller conditionId ctHash : Nat)
  | executeBatch (caller conditionId : Nat) (slots : List Slot) (root : Bytes)
  | swap (caller payer : Address) (baseToQuote : Bool) (amountIn minOut : Nat) (recipient : Address)
  | initOperator (caller operator : Address)
  | adminSetReserves (caller baseTarget quoteTarget : Nat)
  | sync (caller : Address)
  | mint (token : Token) (caller recipient amount : Nat)
  | approve (token : Token) (caller spender amount : Nat)
  | transfer (token : Token) (caller recipient amount : Nat)
  | transferFrom (token : Token) (caller sender recipient amount : Nat)
  deriving DecidableEq, Repr

def step (w : World) : Call → Except Revert World
  | .submitSealed author conditionId payload =>
    .ok { w with sealedOrders := w.sealedOrders ++ [⟨author, conditionId, payload⟩] }
  | .commitSealed _ _ _ => .ok w
  | .executeBatch caller conditionId slots root => executeBatch d w caller conditionId slots root
  | .swap caller payer baseToQuote amountIn minOut recipient =>
    Prod.snd <$> swap d w caller payer baseToQuote amountIn minOut recipient
  | .initOperator _ operator => initOperator w operator
  | .adminSetReserves caller baseTarget quoteTarget => adminSetReserves d w caller baseTarget quoteTarget
  | .sync _ => .ok (sync d w)
  | .mint k caller recipient amount => w.setToken k <$> (w.token k).mint caller recipient amount
  | .approve k caller spender amount => .ok (w.setToken k ((w.token k).approve caller spender amount))
  | .transfer k caller recipient amount => w.setToken k <$> (w.token k).transfer caller recipient amount
  | .transferFrom k caller sender recipient amount =>
    w.setToken k <$> (w.token k).transferFrom caller sender recipient amount

def Call.caller : Call → Address
  | .submitSealed author _ _ => author
  | .commitSealed caller _ _ => caller
  | .executeBatch caller _ _ _ => caller
  | .swap caller _ _ _ _ _ => caller
  | .initOperator caller _ => caller
  | .adminSetReserves caller _ _ => caller
  | .sync caller => caller
  | .mint _ caller _ _ => caller
  | .approve _ caller _ _ => caller
  | .transfer _ caller _ _ => caller
  | .transferFrom _ caller _ _ _ => caller

end Peal.Mempool
