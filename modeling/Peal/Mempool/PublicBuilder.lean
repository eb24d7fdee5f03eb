import Peal.Mempool.Contracts

namespace Peal.Mempool
open Peal.Fallible

/-! # The public lane: orders wait in clear text for a builder -/

inductive BuilderRevert where
  | unknownOrder
  | alreadyExecuted
  | pool (reason : Revert)
  | panic (code : Nat)
  deriving DecidableEq, Repr

/-- The builder with the pool it operates; an id that was never submitted has the order of all zeros. -/
structure PublicBuilder where
  world : World
  pending : Nat → SwapOrder
  executed : Nat → Bool
  nonce : Nat

namespace PublicBuilder

-- The pool, the builder's own address, and the hash that names an order.
variable (d : Deployment) (self : Address) (keccak256 : SwapOrder → Nat → Nat)

def submitOrder (b : PublicBuilder) (order : SwapOrder) : Except BuilderRevert (Nat × PublicBuilder) := do
  let id := keccak256 order b.nonce
  let nonce ← checked (.panic 0x11) 256 (b.nonce + 1)
  return (id, { b with nonce := nonce, pending := Function.update b.pending id order })

def take (b : PublicBuilder) (id : Nat) : Except BuilderRevert (SwapOrder × PublicBuilder) := do
  let o := b.pending id
  require (o.trader ≠ 0) .unknownOrder
  require (b.executed id = false) .alreadyExecuted
  return (o, { b with executed := Function.update b.executed id true })

/-- The call into the pool; what it reverts with, the builder reverts with. -/
def poolSwap (b : PublicBuilder) (payer : Address) (baseToQuote : Bool) (amountIn minOut : Nat) (recipient : Address) :
    Except BuilderRevert (Nat × PublicBuilder) := do
  let (amountOut, w) ← (swap d b.world self payer baseToQuote amountIn minOut recipient).mapError .pool
  return (amountOut, { b with world := w })

def execute (b : PublicBuilder) (id : Nat) : Except BuilderRevert (Nat × PublicBuilder) := do
  let (o, b) ← take b id
  poolSwap d self b o.trader o.baseToQuote o.amountIn o.minOut o.recipient

def sandwich (b : PublicBuilder) (searcher : Address) (id frontAmountIn : Nat) :
    Except BuilderRevert ((Nat × Nat) × PublicBuilder) := do
  let (o, b) ← take b id
  let (frontOut, b) ← poolSwap d self b searcher o.baseToQuote frontAmountIn 0 searcher
  let (victimOut, b) ← poolSwap d self b o.trader o.baseToQuote o.amountIn o.minOut o.recipient
  let (backOut, b) ← poolSwap d self b searcher (!o.baseToQuote) frontOut 0 searcher
  let searcherProfit := if frontAmountIn < backOut then backOut - frontAmountIn else 0
  return ((victimOut, searcherProfit), b)

end PublicBuilder

end Peal.Mempool
