import Peal.Auction.Math

namespace Peal.Auction
open Peal.Fallible

structure CommitteeSet where
  threshold : Nat
  members : List Nat
  registeredAt : Nat
  deriving DecidableEq, Repr

instance : Inhabited CommitteeSet := ⟨⟨0, [], 0⟩⟩

/-- Committee sets by the hash of their content; an unwritten slot has threshold zero. -/
structure CommitteeRegistry where
  sets : Nat → CommitteeSet
  isMember : Nat → Nat → Bool

namespace CommitteeRegistry

def empty : CommitteeRegistry := ⟨fun _ => default, fun _ _ => false⟩

/-- `keccak256(abi.encode(threshold, members))`: the array sits behind its offset and length words. -/
def computeSetId (keccak256 : List Nat → Nat) (threshold : Nat) (members : List Nat) : Nat :=
  keccak256 ([threshold, 0x40, members.length] ++ members)

def addMember (setId : Nat) (isMember : Nat → Nat → Bool) (m : Nat) :
    Except Revert (Nat → Nat → Bool) := do
  require (m ≠ 0) .zeroMember
  require (isMember setId m = false) (.duplicateMember m)
  .ok (Function.update isMember setId (Function.update (isMember setId) m true))

def registerCommitteeSet (keccak256 : List Nat → Nat) (timestamp : Nat) (r : CommitteeRegistry)
    (threshold : Nat) (members : List Nat) : Except Revert CommitteeRegistry := do
  require (threshold ≠ 0 ∧ threshold ≤ members.length) .invalidThreshold
  let setId := computeSetId keccak256 threshold members
  if (r.sets setId).threshold ≠ 0 then .ok r
  else do
    let isMember ← members.foldlM (addMember setId) r.isMember
    .ok ⟨Function.update r.sets setId ⟨threshold, members, timestamp % 2 ^ 64⟩, isMember⟩

def thresholdOf (r : CommitteeRegistry) (setId : Nat) : Nat := (r.sets setId).threshold

def existsSet (r : CommitteeRegistry) (setId : Nat) : Bool := (r.sets setId).threshold != 0

end CommitteeRegistry

end Peal.Auction
