import Peal.Coordinator.Tables
import Peal.Library.Utf8
import Peal.Links.DepositId

open Peal.Coordinator (Text Bytes)
open Peal.Links (fromBeBytes)

namespace Peal.Live

/-! # The record a bid is sealed as -/

def RECORD_V3 : Nat := 3
def RECORD_BYTES_V3 : Nat := 320
def RECORD_V2 : Nat := 2
def RECORD_BYTES_V2 : Nat := 288
def ORIGIN_BYTES : Nat := 12
def ORIGIN_AT : Nat := RECORD_BYTES_V3 - ORIGIN_BYTES
def MAX_NAME_BYTES : Nat := 48
def MAX_AUCTION_ID_BYTES : Nat := 64
def MAX_AMOUNT_MINOR : Nat := 1000000000000

structure BidOrigin where
  code : Text
  amountMinor : Nat
  decimals : Nat
  deriving DecidableEq, Repr

structure BidRecord where
  auctionId : Text
  amountMinor : Nat
  name : Text
  contact : Option Bytes
  origin : Option BidOrigin
  deriving DecidableEq, Repr

def slice (bytes : Bytes) (start stop : Nat) : Bytes := (bytes.drop start).take (stop - start)

/-- `none` for a malformed block, `some none` for a block of zeros. -/
def readOrigin (bytes : Bytes) : Option (Option BidOrigin) :=
  let code := slice bytes ORIGIN_AT (ORIGIN_AT + 3)
  if code = [0, 0, 0] then if (bytes.drop (ORIGIN_AT + 3)).all (· = 0) then some none else none
  else do
    guard (code.all fun c => 0x41 ≤ c && c ≤ 0x5A)
    let amount := fromBeBytes (slice bytes (ORIGIN_AT + 3) (ORIGIN_AT + 11))
    guard (amount ≠ 0 ∧ amount ≤ MAX_AMOUNT_MINOR)
    let decimals ← bytes[ORIGIN_AT + 11]?
    guard (decimals ≤ 4)
    return some ⟨code.map Char.ofNat, amount, decimals⟩

/-- Both decoders take these steps; they differ in what they read as text. -/
def decodeBidWith (text : Bytes → Option Text) (bytes : Bytes) : Option BidRecord := do
  let v2 : Bool := bytes.head? = some RECORD_V2 ∧ bytes.length = RECORD_BYTES_V2
  let v3 : Bool := bytes.head? = some RECORD_V3 ∧ bytes.length = RECORD_BYTES_V3
  guard (v2 ∨ v3)
  let padEnd := if v2 then RECORD_BYTES_V2 else ORIGIN_AT
  let amount := fromBeBytes (slice bytes 1 9)
  guard (amount ≠ 0 ∧ amount ≤ MAX_AMOUNT_MINOR)
  let idLen ← bytes[9]?
  guard (idLen ≠ 0 ∧ idLen ≤ MAX_AUCTION_ID_BYTES)
  let nameLenAt := 10 + idLen
  guard (nameLenAt < padEnd)
  let nameLen ← bytes[nameLenAt]?
  let nameEnd := nameLenAt + 1 + nameLen
  guard (nameLen ≤ MAX_NAME_BYTES ∧ nameEnd < padEnd)
  let contactLen ← bytes[nameEnd]?
  let stop := nameEnd + 1 + contactLen
  guard (stop ≤ padEnd)
  guard ((slice bytes stop padEnd).all (· = 0))
  let origin ← (if v2 then some none else readOrigin bytes)
  let auctionId ← text (slice bytes 10 (10 + idLen))
  let name ← text (slice bytes (nameLenAt + 1) nameEnd)
  return ⟨auctionId, amount, name, if contactLen = 0 then none else some (slice bytes (nameEnd + 1) stop), origin⟩

/-- The board's decoder reads text with a `TextDecoder`, which drops a leading mark. -/
def decodeBid (bytes : Bytes) : Option BidRecord := decodeBidWith Utf8.decodeUnmarked bytes

/-- A record as a reader sees it that takes a leading mark for a signature. -/
def BidRecord.unmark (b : BidRecord) : BidRecord :=
  { b with auctionId := Utf8.dropBom b.auctionId, name := Utf8.dropBom b.name }

/-! ### What a text reads as -/

lemma decodeBidWith_map {f : Text → Text} (text : Bytes → Option Text) (bytes : Bytes) :
    decodeBidWith (fun b => (text b).map f) bytes =
      (decodeBidWith text bytes).map fun b => { b with auctionId := f b.auctionId, name := f b.name } := by
  simp only [decodeBidWith, Option.bind_eq_bind, Option.map_bind, Option.bind_map, Function.comp_def, Option.pure_def,
    Option.map_some]

end Peal.Live

namespace Peal.Coordinator

def decodeBid (bytes : Bytes) : Option Live.BidRecord := Live.decodeBidWith Utf8.decode bytes

end Peal.Coordinator

namespace Peal.Live

lemma decodeBid_eq (bytes : Bytes) :
    decodeBid bytes = (Coordinator.decodeBid bytes).map BidRecord.unmark := by
  have hread : Utf8.decodeUnmarked = fun b => (Utf8.decode b).map Utf8.dropBom := funext Utf8.decodeUnmarked_eq
  rw [decodeBid, hread, decodeBidWith_map]
  rfl

end Peal.Live
