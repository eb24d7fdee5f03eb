import Peal.Actions.Canonical

namespace Peal.Actions
open Peal.Links (Text Bytes)

/-! # Intents -/

abbrev Hex := Text

def isHexChar (c : Char) : Bool := c.isDigit || ('a' ≤ c && c ≤ 'f') || ('A' ≤ c && c ≤ 'F')

def isHexData : Text → Bool
  | '0' :: 'x' :: rest => rest.all isHexChar
  | _ => false

def isAddress (v : Text) : Bool := isHexData v && v.length == 42

structure IntentEnvelope where
  protocolVersion : Int
  intentId : Text
  encryptionKeyId : Text
  ciphertextHash : Text
  nonce : Text
  createdAt : Int
  expiresAt : Int
  pseudonymousSigner : Hex
  executionDomain : Int
  signature : Option Hex
  deriving DecidableEq, Repr

/-- The terms of a swap that its execution is checked against. -/
structure SwapPayload where
  originChainId : Int
  sellToken : Hex
  buyToken : Hex
  sellAmount : Text
  minimumBuyAmount : Text
  deadline : Int
  allowPartialFill : Bool
  deriving DecidableEq, Repr

structure RevealedIntent where
  envelope : IntentEnvelope
  payload : SwapPayload
  deriving DecidableEq, Repr

end Peal.Actions
