import Peal.Coordinator.Rounds
import Peal.Library.Base64
import Peal.Library.Json
import Peal.Library.Runs
import Peal.Links.HexText

namespace Peal.Coordinator.Metered
open Peal.Fallible Peal.Runs
open Peal.Links (toDigit hexDecode hexEncode hexDigit trimHexPrefix toLowercase fromBeBytes toDigit_lt toDigit_ascii
  hexDecode_lt hexDecode_hexEncode hexDecode_toLowercase hexDecode_of_even toLowercase_of_hexDecode trimHexPrefix_hex)

/-! # Calls paid for with a transaction -/

/-! ### Text -/

/-- `len` of a string: its bytes. -/
def byteLength (s : Text) : Nat := (Utf8.encode s).length

def isHexDigit (c : Char) : Bool := (toDigit 16 c).isSome

def isAddress (s : Text) : Bool := byteLength s = 42 && s.take 2 = ['0', 'x'] && (s.drop 2).all isHexDigit

def isTxHash (s : Text) : Bool := byteLength s = 66 && s.take 2 = ['0', 'x'] && (s.drop 2).all isHexDigit

def topicFor (addr : Text) : Text := '0' :: 'x' :: (List.replicate 24 '0' ++ toLowercase (addr.drop 2))

def digitsFrom (radix acc : Nat) (s : Text) : Option Nat :=
  s.foldlM (fun acc ch => (toDigit radix ch).map fun d => acc * radix + d) acc

/-- `from_str_radix` of an unsigned type whose values are below `limit`; a leading plus sign is accepted. -/
def fromStrRadix (radix limit : Nat) (s : Text) : Option Nat :=
  let digits := if s.head? = some '+' then s.tail else s
  if digits = [] then none else (digitsFrom radix 0 digits).filter (· < limit)

def U128_MAX : Nat := 2 ^ 128 - 1

def hexToU128 (hex : Text) : Option Nat :=
  let clean := (trimHexPrefix hex).dropWhile (· = '0')
  if clean = [] then some 0
  else if 32 < byteLength clean then some U128_MAX
  else fromStrRadix 16 (2 ^ 128) clean

def hexToI64 (hex : Text) : Option Int :=
  let clean := trimHexPrefix hex
  if clean.head? = some '-' then
    if clean.tail = [] then none else ((digitsFrom 16 0 clean.tail).filter (· ≤ 2 ^ 63)).map fun n => -(n : Int)
  else (fromStrRadix 16 (2 ^ 63) clean).map Int.ofNat

/-! ### JSON -/

/-- The last member of that name counts. -/
def get (v : Json.Value) (key : String) : Option Json.Value :=
  match v with
  | .obj fields => (fields.reverse.find? fun f => f.1 = key.toList).map Prod.snd
  | _ => none

def asStr : Json.Value → Option Text
  | .str s => some s
  | _ => none

def asArray : Json.Value → Option (List Json.Value)
  | .arr items => some items
  | _ => none

def isNull : Json.Value → Bool
  | .null => true
  | _ => false

/-! ### The configuration -/

def TRANSFER_TOPIC : Text := "0xddf252ad1be2c89b69c2b068fc378daa952ba7f163c4a11628f55a4df523b3ef".toList
def MAX_AGE_SECS : Int := 30 * 60
def DEFAULT_PAY_TO : Text := "0xf8b8ef05b9f820addf7d85d165433e6c60221af5".toList

structure Config where
  payTo : Text
  asset : Text
  rpc : Text
  price : Nat
  decimals : Nat
  symbol : Text
  chainId : Nat
  network : Text
  explorer : Text

def fromEnv (env : String → Option Text) : Option Config :=
  let payTo := toLowercase ((env "PEAL_X402_PAYTO").getD DEFAULT_PAY_TO)
  if isAddress payTo then
    some {
      payTo := payTo
      asset := toLowercase ((env "PEAL_X402_ASSET").getD "0x20c0000000000000000000000000000000000000".toList)
      rpc := (env "PEAL_X402_RPC").getD "https://rpc.moderato.tempo.xyz".toList
      price := (fromStrRadix 10 (2 ^ 128) ((env "PEAL_X402_PRICE").getD "1000".toList)).getD 1000
      decimals := (fromStrRadix 10 (2 ^ 32) ((env "PEAL_X402_DECIMALS").getD "6".toList)).getD 6
      symbol := (env "PEAL_X402_SYMBOL").getD "PathUSD".toList
      chainId := (fromStrRadix 10 (2 ^ 64) ((env "PEAL_X402_CHAIN_ID").getD "42431".toList)).getD 42431
      network := (env "PEAL_X402_NETWORK").getD "tempo-moderato".toList
      explorer := (env "PEAL_X402_EXPLORER").getD "https://explore.testnet.tempo.xyz".toList }
  else none

def dropEnd (c : Char) (s : Text) : Text := (s.reverse.dropWhile (· = c)).reverse

def Config.priceDisplay (cfg : Config) : Text :=
  let scale := 10 ^ cfg.decimals
  let frac := Nat.toDigits 10 (cfg.price % scale)
  let padded := List.replicate (cfg.decimals - frac.length) '0' ++ frac
  dropEnd '.' (dropEnd '0' (Nat.toDigits 10 (cfg.price / scale) ++ '.' :: padded))

/-! ### The header -/

/-- The decoders of the header's envelope. -/
structure Decoders where
  standard : Text → Option Bytes
  urlSafeNoPad : Text → Option Bytes
  fromStr : Text → Option Json.Value

def parsePayment (d : Decoders) (headerVal : Text) : Except Text Text := do
  let trimmed := trim headerVal
  if isTxHash trimmed then return toLowercase trimmed
  let decoded ← expect ((d.standard trimmed).orElse fun _ => d.urlSafeNoPad trimmed)
    "X-PAYMENT is not base64 and not a transaction hash.".toList
  let text ← expect (Utf8.decode decoded) "X-PAYMENT did not decode to text.".toList
  let value ← expect (d.fromStr text) "X-PAYMENT did not decode to JSON.".toList
  let found := (get value "txHash").orElse fun _ => (get value "payload").bind (get · "txHash")
  let hash ← expect (found.bind asStr) "X-PAYMENT has no txHash.".toList
  require (isTxHash hash = true) "txHash is not a 32 byte hex hash.".toList
  return toLowercase hash

/-! ### The chain's answer -/

structure Payment where
  payer : Text
  amount : Nat
  deriving DecidableEq, Repr

/-- The RPC endpoint: what it answers a method and its parameters, or why nothing readable came. -/
abbrev Rpc := String → List Json.Value → Except Text Json.Value

def topicsOf (log : Json.Value) : List Text :=
  ((((get log "topics").bind asArray).getD []).filterMap asStr).map toLowercase

/-- One log's turn in the loop over them. -/
def countLog (cfg : Config) (t : Payment) (log : Json.Value) : Payment :=
  let addr := toLowercase (((get log "address").bind asStr).getD [])
  let topics := topicsOf log
  if addr ≠ cfg.asset ∨ topics.length < 3 ∨ topics[0]? ≠ some TRANSFER_TOPIC then t
  else if topics[2]? ≠ some (topicFor cfg.payTo) then t
  else
    let sender := topics.getD 1 []
    ⟨if t.payer = [] ∧ byteLength sender = 66 then '0' :: 'x' :: sender.drop 26 else t.payer,
      min (t.amount + ((((get log "data").bind asStr).bind hexToU128).getD 0)) U128_MAX⟩

def verifyPayment (cfg : Config) (rpc : Rpc) (txHash : Text) (now : Int) : Except Text Payment := do
  let response ← rpc "eth_getTransactionReceipt" [.str txHash]
  let receipt ← expect ((get response "result").filter fun r => !isNull r)
    "no receipt for that transaction yet. Wait for it to be mined and retry.".toList
  require ((get receipt "status").bind asStr = some "0x1".toList)
    "that transaction failed on chain, so it paid for nothing.".toList
  let logs ← expect ((get receipt "logs").bind asArray) "that receipt has no logs, so it moved no tokens.".toList
  let paid := logs.foldl (countLog cfg) ⟨[], 0⟩
  require (cfg.price ≤ paid.amount) ("that transaction paid ".toList ++ Nat.toDigits 10 paid.amount ++
    " but a call costs ".toList ++ cfg.priceDisplay ++ ' ' :: cfg.symbol ++ ". Check the asset and the payee.".toList)
  let blockHex ← expect ((get receipt "blockNumber").bind asStr) "that receipt has no block.".toList
  let block ← rpc "eth_getBlockByNumber" [.str blockHex, .bool false]
  let ts ← expect ((((get block "result").bind (get · "timestamp")).bind asStr).bind hexToI64)
    "could not read the block time for that payment.".toList
  let age := now - ts
  require (age ≤ MAX_AGE_SECS) ("that payment is ".toList ++ Json.decimal (age / 60) ++
    " minutes old and a payment is good for ".toList ++ Json.decimal (MAX_AGE_SECS / 60) ++ ". Pay again.".toList)
  return paid

/-! ### The gateway -/

/-- A row of `x402_payments`. -/
structure PaymentRow where
  txHash : Text
  payer : Text
  amount : Text
  redeemedAt : Int
  deriving DecidableEq, Repr

structure Refusal where
  status : Nat
  code : String
  detail : Text
  deriving DecidableEq, Repr

/-- A request whose payment has been verified. -/
structure Verified where
  txHash : Text
  payment : Payment
  deriving DecidableEq, Repr

/-- What the middleware does up to the insert. -/
def admitPayment (d : Decoders) (cfg : Config) (header : Option Text) (rpc : Rpc) (now : Int) : Except Refusal Verified := do
  let headerVal ← expect header ⟨402, "", "payment required".toList⟩
  let txHash ← (parsePayment d headerVal).mapError fun why => ⟨400, "x402_bad_payment", why⟩
  let payment ← (verifyPayment cfg rpc txHash now).mapError fun why => ⟨402, "x402_payment_invalid", why⟩
  return ⟨txHash, payment⟩

/-- The table, the requests past their verification and past their insert, and the hash behind each run of a wrapped
handler. -/
structure Gateway where
  payments : List PaymentRow
  verified : List Verified
  redeemed : List Verified
  served : List Text
  deriving DecidableEq, Repr

def Gateway.empty : Gateway := ⟨[], [], [], []⟩

inductive Event where
  | present (header : Option Text) (rpc : Rpc) (now : Int)
  | redeem (k : Nat) (now : Int)
  | redeemFails (k : Nat)
  | serve (k : Nat)
  | dropVerified (k : Nat)
  | dropRedeemed (k : Nat)
  | restart

/-- `INSERT INTO x402_payments`, whose key is the hash. -/
def redeemPayment (rows : List PaymentRow) (v : Verified) (now : Int) : Except Refusal (List PaymentRow) := do
  require (v.txHash ∉ rows.map PaymentRow.txHash) ⟨402, "x402_already_redeemed",
    "That payment has already paid for a call. Each transaction pays for one.".toList⟩
  return rows ++ [⟨v.txHash, v.payment.payer, Nat.toDigits 10 v.payment.amount, now⟩]

def step (d : Decoders) (cfg : Config) (s : Gateway) : Event → Except Refusal Gateway
  | .present header rpc now => do
    let v ← admitPayment d cfg header rpc now
    return { s with verified := s.verified ++ [v] }
  | .redeem k now =>
    match s.verified[k]? with
    | none => .ok s
    | some v =>
      match redeemPayment s.payments v now with
      | .error _ => .ok { s with verified := s.verified.eraseIdx k }
      | .ok rows => .ok { s with
          payments := rows, verified := s.verified.eraseIdx k, redeemed := s.redeemed ++ [v] }
  | .redeemFails k => .ok { s with verified := s.verified.eraseIdx k }
  | .serve k =>
    match s.redeemed[k]? with
    | none => .ok s
    | some v => .ok { s with redeemed := s.redeemed.eraseIdx k, served := s.served ++ [v.txHash] }
  | .dropVerified k => .ok { s with verified := s.verified.eraseIdx k }
  | .dropRedeemed k => .ok { s with redeemed := s.redeemed.eraseIdx k }
  | .restart => .ok { s with verified := [], redeemed := [] }

/-! ### What the chain holds, and how it is told -/

structure Log where
  address : Bytes
  topics : List Bytes
  data : Bytes
  deriving DecidableEq, Repr

structure Receipt where
  success : Bool
  logs : List Log
  block : Nat
  deriving DecidableEq, Repr

/-- The receipts by the hash of their transaction, and the time of each block. -/
structure Chain where
  receipt : Bytes → Option Receipt
  timestamp : Nat → Option Nat

def hexText (bytes : Bytes) : Text := '0' :: 'x' :: hexEncode bytes

/-- Bytes as an RPC endpoint writes them, in either case. -/
def Spells (text : Text) (bytes : Bytes) : Prop := ∃ digits, text = '0' :: 'x' :: digits ∧ hexDecode digits = some bytes

/-- A quantity as an RPC endpoint writes it. -/
def Quantity (text : Text) (n : Nat) : Prop :=
  ∃ digits, digits ≠ [] ∧ text = '0' :: 'x' :: digits ∧ digitsFrom 16 0 digits = some n

structure TellsLog (v : Json.Value) (log : Log) : Prop where
  address : ∃ s, get v "address" = some (.str s) ∧ Spells s log.address
  topics : ∃ items, get v "topics" = some (.arr items) ∧
    List.Forall₂ (fun item topic => ∃ s, item = .str s ∧ Spells s topic) items log.topics
  data : ∃ s, get v "data" = some (.str s) ∧ Spells s log.data

structure TellsReceipt (v : Json.Value) (r : Receipt) : Prop where
  status : get v "status" = some (.str (if r.success then "0x1" else "0x0").toList)
  logs : ∃ items, get v "logs" = some (.arr items) ∧ List.Forall₂ TellsLog items r.logs
  block : ∃ s, get v "blockNumber" = some (.str s) ∧ Quantity s r.block

/-- Whatever the endpoint answers of a transaction or a block is so. -/
structure Truthful (chain : Chain) (rpc : Rpc) : Prop where
  receipt : ∀ txHash hash response result, Spells txHash hash →
    rpc "eth_getTransactionReceipt" [.str txHash] = .ok response → get response "result" = some result →
    isNull result = false → ∃ r, chain.receipt hash = some r ∧ TellsReceipt result r
  block : ∀ text n response result time, Quantity text n →
    rpc "eth_getBlockByNumber" [.str text, .bool false] = .ok response → get response "result" = some result →
    get result "timestamp" = some (.str time) → ∃ ts, chain.timestamp n = some ts ∧ Quantity time ts

/-- A Transfer of the configured asset to the payee. -/
def Pays (cfg : Config) (log : Log) : Prop :=
  hexText log.address = cfg.asset ∧ log.topics[0]?.map hexText = some TRANSFER_TOPIC ∧
    ∃ payee ∈ hexDecode (cfg.payTo.drop 2), log.topics[2]? = some (List.replicate 12 0 ++ payee)

instance (cfg : Config) (log : Log) : Decidable (Pays cfg log) := inferInstanceAs (Decidable (_ ∧ _ ∧ _))

/-- What the transaction moved to the payee. -/
def Receipt.moved (cfg : Config) (r : Receipt) : Nat :=
  ((r.logs.filter fun log => Pays cfg log).map fun log => fromBeBytes log.data).sum

/-- The transaction a stored hash names. -/
def transactionOf (txHash : Text) : Option Bytes := hexDecode (txHash.drop 2)

/-! ### Numbers -/

lemma digitsFrom_cons {radix acc : Nat} {c : Char} {s : Text} : digitsFrom radix acc (c :: s) =
    (toDigit radix c).bind fun d => digitsFrom radix (acc * radix + d) s := by
  unfold digitsFrom
  rw [List.foldlM_cons]
  cases toDigit radix c <;> rfl

lemma digitsFrom_hexDecode {s : Text} {bytes : Bytes} (h : hexDecode s = some bytes) (acc : Nat) :
    digitsFrom 16 acc s = some (bytes.foldl (fun acc b => 256 * acc + b) acc) := by
  induction s using Peal.Links.hexDecode.induct generalizing bytes acc with
  | case1 =>
    obtain rfl := Option.some.inj h
    rfl
  | case2 _ => cases h
  | case3 hi lo rest ih =>
    simp only [hexDecode, bind, Option.bind_eq_some_iff, pure, Option.some.injEq] at h
    obtain ⟨d, hd, e, he, tail, htail, rfl⟩ := h
    rw [digitsFrom_cons, hd, Option.bind_some, digitsFrom_cons, he, Option.bind_some, ih htail, List.foldl_cons]
    congr 2
    ring

lemma digitsFrom_dropZeros (s : Text) : digitsFrom 16 0 (s.dropWhile (· = '0')) = digitsFrom 16 0 s := by
  induction s with
  | nil => rfl
  | cons c s ih =>
    by_cases hc : c = '0'
    · subst hc
      rw [List.dropWhile_cons_of_pos (by rfl), ih, digitsFrom_cons]
      rfl
    · rw [List.dropWhile_cons_of_neg (by simpa using hc)]

lemma digitsFrom_bounds {s : Text} {acc n : Nat} (h : digitsFrom 16 acc s = some n) :
    acc * 16 ^ s.length ≤ n ∧ n < (acc + 1) * 16 ^ s.length := by
  induction s generalizing acc with
  | nil =>
    obtain rfl := Option.some.inj h
    simp
  | cons c s ih =>
    rw [digitsFrom_cons, Option.bind_eq_some_iff] at h
    obtain ⟨d, hd, h⟩ := h
    have hlt := toDigit_lt hd
    obtain ⟨hlow, hhigh⟩ := ih h
    rw [List.length_cons, pow_succ, show acc * (16 ^ s.length * 16) = acc * 16 * 16 ^ s.length by ring,
      show (acc + 1) * (16 ^ s.length * 16) = (acc * 16 + 16) * 16 ^ s.length by ring]
    exact ⟨(Nat.mul_le_mul_right _ (Nat.le_add_right _ d)).trans hlow,
      hhigh.trans_le (Nat.mul_le_mul_right _ (by omega))⟩

lemma toDigit_zero {c : Char} (h : toDigit 16 c = some 0) : c = '0' := by
  have hascii : c.toNat < 128 := toDigit_ascii (by rw [h]; rfl)
  have hall : ∀ n : Fin 128, toDigit 16 (Char.ofNat n) = some 0 → Char.ofNat n = '0' := by decide
  have hc := hall ⟨c.toNat, hascii⟩
  rw [Char.ofNat_toNat] at hc
  exact hc h

lemma isHexDigit_of_digitsFrom {s : Text} {acc n : Nat} (h : digitsFrom 16 acc s = some n) :
    s.all isHexDigit = true := by
  induction s generalizing acc with
  | nil => rfl
  | cons c s ih =>
    rw [digitsFrom_cons, Option.bind_eq_some_iff] at h
    obtain ⟨d, hd, h⟩ := h
    rw [List.all_cons, ih h, isHexDigit, hd]
    rfl

lemma byteLength_hex {s : Text} (h : s.all isHexDigit = true) : byteLength s = s.length :=
  Json.encode_length_ascii fun c hc => toDigit_ascii (List.all_eq_true.mp h c hc)

lemma fromStrRadix_digits {s : Text} {n limit : Nat} (hne : s ≠ []) (h : digitsFrom 16 0 s = some n) :
    fromStrRadix 16 limit s = if n < limit then some n else none := by
  have hplain : s.head? ≠ some '+' := by
    intro hhead
    obtain ⟨rest, rfl⟩ := List.head?_eq_some_iff.mp hhead
    rw [digitsFrom_cons] at h
    exact absurd h (by simp [toDigit])
  rw [fromStrRadix, if_neg hplain, if_neg hne, h, Option.filter_some]
  simp

lemma hexToU128_spells {text : Text} {bytes : Bytes} (h : Spells text bytes) :
    hexToU128 text = some (min (fromBeBytes bytes) U128_MAX) := by
  obtain ⟨digits, rfl, hdigits⟩ := h
  have hvalue : digitsFrom 16 0 digits = some (fromBeBytes bytes) := digitsFrom_hexDecode hdigits 0
  have htrim : trimHexPrefix ('0' :: 'x' :: digits) = digits := by
    rw [trimHexPrefix]
    exact trimHexPrefix_hex (isHexDigit_of_digitsFrom hvalue)
  rw [hexToU128, htrim]
  rw [← digitsFrom_dropZeros] at hvalue
  cases hclean : digits.dropWhile (· = '0') with
  | nil =>
    rw [hclean] at hvalue
    rw [← Option.some.inj hvalue]
    rfl
  | cons c rest =>
    rw [hclean] at hvalue
    have hlength : byteLength (c :: rest) = (c :: rest).length := byteLength_hex (isHexDigit_of_digitsFrom hvalue)
    have hupper := (digitsFrom_bounds hvalue).2
    rw [if_neg (List.cons_ne_nil c rest), hlength]
    split_ifs with hlong
    · have hzero : ¬(decide (c = '0') = true) := List.head?_dropWhile_not _ digits |> fun hhead => by
        rw [hclean] at hhead
        simpa using hhead
      rw [digitsFrom_cons, Option.bind_eq_some_iff] at hvalue
      obtain ⟨d, hd, hrest⟩ := hvalue
      have hpos : 1 ≤ d := by
        rcases Nat.eq_zero_or_pos d with rfl | hpos
        · exact absurd (decide_eq_true (toDigit_zero hd)) hzero
        · exact hpos
      have hlower := (digitsFrom_bounds hrest).1
      have hwide : 16 ^ 32 ≤ 16 ^ rest.length :=
        Nat.pow_le_pow_right (by norm_num) (by rw [List.length_cons] at hlong; omega)
      have hlarge : U128_MAX ≤ fromBeBytes bytes := by
        have hone : 16 ^ rest.length ≤ (0 * 16 + d) * 16 ^ rest.length := Nat.le_mul_of_pos_left _ (by omega)
        have hmax : U128_MAX ≤ 16 ^ 32 := by decide
        exact hmax.trans (hwide.trans (hone.trans hlower))
      rw [Nat.min_eq_right hlarge]
    · have hshort : 16 ^ (c :: rest).length ≤ 2 ^ 128 := by
        have := Nat.pow_le_pow_right (show 0 < 16 by norm_num) (show (c :: rest).length ≤ 32 by omega)
        exact this.trans (by norm_num)
      have hfits : fromBeBytes bytes < 2 ^ 128 := by omega
      rw [fromStrRadix_digits (List.cons_ne_nil c rest) hvalue, if_pos hfits, Nat.min_eq_left]
      unfold U128_MAX
      omega

lemma hexToI64_quantity {text : Text} {n : Nat} (h : Quantity text n) {x : Int} (hx : hexToI64 text = some x) :
    x = n := by
  obtain ⟨digits, hne, rfl, hvalue⟩ := h
  have htrim : trimHexPrefix ('0' :: 'x' :: digits) = digits := by
    rw [trimHexPrefix]
    exact trimHexPrefix_hex (isHexDigit_of_digitsFrom hvalue)
  have hplain : digits.head? ≠ some '-' := by
    intro hhead
    obtain ⟨rest, rfl⟩ := List.head?_eq_some_iff.mp hhead
    rw [digitsFrom_cons] at hvalue
    exact absurd hvalue (by simp [toDigit])
  rw [hexToI64, htrim] at hx
  rw [if_neg hplain, fromStrRadix_digits hne hvalue] at hx
  split_ifs at hx
  · exact (Option.some.inj hx).symm
  · cases hx

/-! ### One key for each transaction -/

lemma hexText_spells {text : Text} {bytes : Bytes} (h : Spells text bytes) : toLowercase text = hexText bytes := by
  obtain ⟨digits, rfl, hdigits⟩ := h
  show '0' :: 'x' :: toLowercase digits = hexText bytes
  rw [toLowercase_of_hexDecode hdigits]
  rfl

lemma hexText_inj {a b : Bytes} (ha : ∀ x ∈ a, x < 256) (hb : ∀ x ∈ b, x < 256) (h : hexText a = hexText b) : a = b := by
  have heq := congrArg (fun s => hexDecode (s.drop 2)) h
  simp only [hexText, List.drop_succ_cons, List.drop_zero] at heq
  rw [hexDecode_hexEncode ha, hexDecode_hexEncode hb] at heq
  exact Option.some.inj heq

lemma Spells.lt {text : Text} {bytes : Bytes} (h : Spells text bytes) : ∀ b ∈ bytes, b < 256 := by
  obtain ⟨digits, -, hdigits⟩ := h
  exact hexDecode_lt hdigits

lemma prefixed_spells {s : Text} {width : Nat} (hwidth : width % 2 = 0) (hlength : byteLength s = width)
    (hbegins : s.take 2 = ['0', 'x']) (hdigits : (s.drop 2).all isHexDigit = true) : ∃ bytes, Spells s bytes := by
  have hsplit : s = '0' :: 'x' :: s.drop 2 := by
    conv_lhs => rw [← List.take_append_drop 2 s, hbegins]
    rfl
  have hcount : byteLength s = (s.drop 2).length + 2 := by
    rw [hsplit, byteLength, Json.encode_length_ascii, List.length_cons, List.length_cons]
    · rfl
    · intro c hc
      rcases List.mem_cons.mp hc with rfl | hc
      · decide
      · rcases List.mem_cons.mp hc with rfl | hc
        · decide
        · exact toDigit_ascii (List.all_eq_true.mp hdigits c hc)
  obtain ⟨bytes, hbytes⟩ := hexDecode_of_even hdigits (by omega)
  exact ⟨bytes, s.drop 2, hsplit, hbytes⟩

lemma isTxHash_spells {s : Text} (h : isTxHash s = true) : ∃ bytes, Spells s bytes := by
  simp only [isTxHash, Bool.and_eq_true, decide_eq_true_eq] at h
  exact prefixed_spells (by norm_num) h.1.1 h.1.2 h.2

/-- A stored hash is the lower case of the bytes it names. -/
def Canonical (txHash : Text) (hash : Bytes) : Prop := (∀ b ∈ hash, b < 256) ∧ txHash = hexText hash

lemma Canonical.spells {txHash : Text} {hash : Bytes} (h : Canonical txHash hash) : Spells txHash hash := by
  obtain ⟨hlt, rfl⟩ := h
  exact ⟨_, rfl, hexDecode_hexEncode hlt⟩

lemma Canonical.transaction {txHash : Text} {hash : Bytes} (h : Canonical txHash hash) :
    transactionOf txHash = some hash := by
  obtain ⟨hlt, rfl⟩ := h
  exact hexDecode_hexEncode hlt

lemma isTxHash_canonical {s : Text} (h : isTxHash s = true) : ∃ hash, Canonical (toLowercase s) hash := by
  obtain ⟨hash, hspells⟩ := isTxHash_spells h
  exact ⟨hash, hspells.lt, hexText_spells hspells⟩

/-- Whatever the header's form, the hash read from it is in its one canonical form. -/
theorem parsePayment_canonical {d : Decoders} {headerVal txHash : Text} (h : parsePayment d headerVal = .ok txHash) :
    ∃ hash, Canonical txHash hash := by
  unfold parsePayment at h
  dsimp only at h
  split_ifs at h with hbare
  · obtain rfl := pure_eq_ok.mp h
    exact isTxHash_canonical hbare
  · simp only [bind_eq_ok, expect_eq_ok, require_eq_ok, pure_eq_ok] at h
    obtain ⟨_, -, _, -, _, -, hash, -, -, hhash, rfl⟩ := h
    exact isTxHash_canonical hhash

/-! ### What a receipt moved -/

variable {cfg : Config}

/-- A usable payee. -/
def Config.Payable (cfg : Config) : Prop := cfg.price < 2 ^ 128 ∧
  ∃ payee, (∀ b ∈ payee, b < 256) ∧ cfg.payTo = hexText payee

lemma fromStrRadix_lt {radix limit n : Nat} {s : Text} (h : fromStrRadix radix limit s = some n) : n < limit := by
  unfold fromStrRadix at h
  dsimp only at h
  split_ifs at h
  · exact of_decide_eq_true (Option.filter_eq_some_iff.mp h).2
  · exact of_decide_eq_true (Option.filter_eq_some_iff.mp h).2

lemma fromEnv_payable {env : String → Option Text} (h : fromEnv env = some cfg) : cfg.Payable := by
  unfold fromEnv at h
  dsimp only at h
  split_ifs at h with haddress
  obtain rfl := Option.some.inj h
  refine ⟨?_, ?_⟩
  · show (fromStrRadix 10 (2 ^ 128) ((env "PEAL_X402_PRICE").getD "1000".toList)).getD 1000 < 2 ^ 128
    cases hprice : fromStrRadix 10 (2 ^ 128) ((env "PEAL_X402_PRICE").getD "1000".toList) with
    | none => norm_num
    | some price => exact fromStrRadix_lt hprice
  · simp only [isAddress, Bool.and_eq_true, decide_eq_true_eq] at haddress
    obtain ⟨payee, hpayee⟩ := prefixed_spells (by norm_num) haddress.1.1 haddress.1.2 haddress.2
    refine ⟨payee, hpayee.lt, ?_⟩
    rw [← hexText_spells hpayee, Links.toLowercase_toLowercase]

lemma topicFor_payee {payee : Bytes} (hlt : ∀ b ∈ payee, b < 256) (hpayee : cfg.payTo = hexText payee) :
    topicFor cfg.payTo = hexText (List.replicate 12 0 ++ payee) := by
  have hlower : toLowercase (hexEncode payee) = hexEncode payee := toLowercase_of_hexDecode (hexDecode_hexEncode hlt)
  rw [topicFor, hpayee]
  show '0' :: 'x' :: (List.replicate 24 '0' ++ toLowercase (hexEncode payee)) = _
  rw [hlower, hexText, hexEncode, hexEncode, List.flatMap_append]
  rfl

lemma spelled_topics {items : List Json.Value} {topics : List Bytes}
    (h : List.Forall₂ (fun item topic => ∃ s, item = .str s ∧ Spells s topic) items topics) :
    (items.filterMap asStr).map toLowercase = topics.map hexText ∧ ∀ t ∈ topics, ∀ b ∈ t, b < 256 := by
  induction h with
  | nil => exact ⟨rfl, fun t ht => absurd ht List.not_mem_nil⟩
  | cons htopic _ ih =>
    obtain ⟨s, rfl, hspells⟩ := htopic
    obtain ⟨hread, hlt⟩ := ih
    refine ⟨?_, ?_⟩
    · rw [List.filterMap_cons_some (show asStr (.str s) = some s from rfl), List.map_cons, List.map_cons,
        hexText_spells hspells, hread]
    · exact List.forall_mem_cons.mpr ⟨hspells.lt, hlt⟩

lemma topicsOf_tells {v : Json.Value} {log : Log} (h : TellsLog v log) :
    topicsOf v = log.topics.map hexText ∧ ∀ t ∈ log.topics, ∀ b ∈ t, b < 256 := by
  obtain ⟨items, hitems, htells⟩ := h.topics
  rw [topicsOf, hitems]
  exact spelled_topics htells

lemma pays_iff (hcfg : cfg.Payable) {log : Log} (hlt : ∀ t ∈ log.topics, ∀ b ∈ t, b < 256) :
    Pays cfg log ↔ hexText log.address = cfg.asset ∧ (log.topics.map hexText)[0]? = some TRANSFER_TOPIC ∧
      (log.topics.map hexText)[2]? = some (topicFor cfg.payTo) := by
  obtain ⟨-, payee, hpayee, hpayTo⟩ := hcfg
  have hdecode : hexDecode (cfg.payTo.drop 2) = some payee := by
    rw [hpayTo]
    exact hexDecode_hexEncode hpayee
  rw [Pays, hdecode, topicFor_payee hpayee hpayTo, List.getElem?_map, List.getElem?_map]
  refine and_congr_right fun _ => and_congr_right fun _ => ?_
  constructor
  · rintro ⟨_, hsame, htopic⟩
    obtain rfl := Option.some.inj hsame
    rw [htopic, Option.map_some]
  · intro h
    obtain ⟨t, ht, heq⟩ := Option.map_eq_some_iff.mp h
    refine ⟨payee, rfl, ?_⟩
    have hpadded : ∀ b ∈ List.replicate 12 0 ++ payee, b < 256 := by
      intro b hb
      rcases List.mem_append.mp hb with hb | hb
      · rw [List.eq_of_mem_replicate hb]
        norm_num
      · exact hpayee b hb
    rw [ht, hexText_inj (hlt t (List.mem_of_getElem? ht)) hpadded heq]

lemma countLog_tells (hcfg : cfg.Payable) {v : Json.Value} {log : Log} (h : TellsLog v log) (t : Payment) :
    (countLog cfg t v).amount =
      if Pays cfg log then min (t.amount + min (fromBeBytes log.data) U128_MAX) U128_MAX else t.amount := by
  obtain ⟨address, haddress, hspells⟩ := h.address
  obtain ⟨data, hdata, hvalue⟩ := h.data
  obtain ⟨htopics, hlt⟩ := topicsOf_tells h
  have hpays := pays_iff hcfg hlt
  simp only [countLog, htopics, haddress, hdata, Option.bind_some, asStr, Option.getD_some, hexText_spells hspells,
    hexToU128_spells hvalue]
  by_cases hskip : hexText log.address ≠ cfg.asset ∨ (log.topics.map hexText).length < 3 ∨
      (log.topics.map hexText)[0]? ≠ some TRANSFER_TOPIC
  · have hp : ¬Pays cfg log := by
      intro hp
      obtain ⟨hasset, hfirst, hthird⟩ := hpays.mp hp
      obtain ⟨hlength, -⟩ := List.getElem?_eq_some_iff.mp hthird
      rcases hskip with hskip | hskip | hskip
      · exact hskip hasset
      · omega
      · exact hskip hfirst
    rw [if_pos hskip, if_neg hp]
  · rw [if_neg hskip]
    push Not at hskip
    obtain ⟨hasset, -, hfirst⟩ := hskip
    by_cases hthird : (log.topics.map hexText)[2]? = some (topicFor cfg.payTo)
    · rw [if_neg (not_not.mpr hthird), if_pos (hpays.mpr ⟨hasset, hfirst, hthird⟩)]
    · have hp : ¬Pays cfg log := fun hp => hthird (hpays.mp hp).2.2
      rw [if_pos hthird, if_neg hp]

lemma min_saturating (a v m : Nat) : min (min a m + min v m) m = min (a + v) m := by omega

/-- The saturating loop is the exact sum, saturated once. -/
theorem countLogs_moved (hcfg : cfg.Payable) {items : List Json.Value} {logs : List Log}
    (h : List.Forall₂ TellsLog items logs) {t : Payment} {total : Nat} (ht : t.amount = min total U128_MAX) :
    (items.foldl (countLog cfg) t).amount =
      min (total + ((logs.filter fun log => Pays cfg log).map fun log => fromBeBytes log.data).sum) U128_MAX := by
  induction h generalizing t total with
  | nil => simpa using ht
  | @cons item log items logs hlog _ ih =>
    have hnext := countLog_tells hcfg hlog t
    rw [List.foldl_cons]
    by_cases hp : Pays cfg log
    · rw [if_pos hp, ht, min_saturating] at hnext
      rw [ih hnext, List.filter_cons_of_pos (by simpa using hp), List.map_cons, List.sum_cons, Nat.add_assoc]
    · rw [if_neg hp, ht] at hnext
      rw [ih hnext, List.filter_cons_of_neg (by simpa using hp)]

/-- What a verified payment is worth and how old it is. -/
structure Worth (chain : Chain) (cfg : Config) (hash : Bytes) (now : Int) (r : Receipt) : Prop where
  mined : chain.receipt hash = some r
  success : r.success = true
  recent : ∃ ts, chain.timestamp r.block = some ts ∧ now - ts ≤ MAX_AGE_SECS
  enough : cfg.price ≤ r.moved cfg

theorem verifyPayment_worth {chain : Chain} {rpc : Rpc} (htruth : Truthful chain rpc) (hcfg : cfg.Payable)
    {txHash : Text} {hash : Bytes} (hhash : Canonical txHash hash) {now : Int} {payment : Payment}
    (h : verifyPayment cfg rpc txHash now = .ok payment) : ∃ r, Worth chain cfg hash now r := by
  simp only [verifyPayment, bind_eq_ok, expect_eq_ok, require_eq_ok, pure_eq_ok, Option.filter_eq_some_iff,
    Bool.not_eq_true'] at h
  obtain ⟨response, hresponse, result, ⟨hresult, hnull⟩, -, hstatus, items, hitems, -, hprice, blockHex, hblockHex,
    block, hblock, ts, hts, -, hage, -⟩ := h
  obtain ⟨r, hr, htells⟩ := htruth.receipt txHash hash response result hhash.spells hresponse hresult hnull
  obtain ⟨items', hitems', hlogs⟩ := htells.logs
  obtain ⟨quantity, hquantity, hnumber⟩ := htells.block
  rw [hitems', Option.bind_some, asArray, Option.some.injEq] at hitems
  subst hitems
  rw [hquantity, Option.bind_some, asStr, Option.some.injEq] at hblockHex
  subst hblockHex
  have hsuccess : r.success = true := by
    rw [htells.status, Option.bind_some, asStr, Option.some.injEq] at hstatus
    by_contra hfailed
    rw [if_neg hfailed] at hstatus
    revert hstatus
    decide
  simp only [Option.bind_eq_some_iff] at hts
  obtain ⟨time, ⟨timeValue, ⟨blockResult, hblockResult, htimestamp⟩, htime⟩, hread⟩ := hts
  have hstr : timeValue = .str time := by
    cases timeValue with
    | str s => rw [Option.some.inj htime]
    | _ => cases htime
  subst hstr
  obtain ⟨sent, hsent, hspelled⟩ := htruth.block quantity r.block block blockResult time hnumber hblock hblockResult
    htimestamp
  obtain rfl := hexToI64_quantity hspelled hread
  have hempty : (⟨[], 0⟩ : Payment).amount = min 0 U128_MAX := by decide
  have hmoved := countLogs_moved hcfg hlogs hempty
  rw [hmoved] at hprice
  refine ⟨r, hr, hsuccess, ⟨sent, hsent, hage⟩, ?_⟩
  have hsum := hprice.trans (Nat.min_le_left _ _)
  rwa [Nat.zero_add] at hsum

/-! ### Runs of the gateway -/

section Runs

variable (d : Decoders) (cfg : Config)

/-- Some request of the run presented that hash, and its payment was verified. -/
def Bought (events : List Event) (txHash : Text) : Prop :=
  ∃ header rpc now payment, .present header rpc now ∈ events ∧ admitPayment d cfg header rpc now = .ok ⟨txHash, payment⟩

/-- Each redeemed hash is in the table once, and behind at most one request or run of a handler. -/
structure Sound (events : List Event) (s : Gateway) : Prop where
  keys : (s.payments.map PaymentRow.txHash).Nodup
  once : (s.served ++ s.redeemed.map Verified.txHash).Nodup
  stored : ∀ h ∈ s.served ++ s.redeemed.map Verified.txHash, h ∈ s.payments.map PaymentRow.txHash
  waiting : ∀ v ∈ s.verified, Bought d cfg events v.txHash
  bought : ∀ h ∈ s.payments.map PaymentRow.txHash, Bought d cfg events h

variable {d cfg} {events : List Event} {s s' : Gateway}

lemma Sound.dropVerified (hs : Sound d cfg events s) (k : Nat) :
    Sound d cfg events { s with verified := s.verified.eraseIdx k } :=
  { hs with waiting := fun v hv => hs.waiting v (List.mem_of_mem_eraseIdx hv) }

lemma Sound.dropRedeemed (hs : Sound d cfg events s) (k : Nat) :
    Sound d cfg events { s with redeemed := s.redeemed.eraseIdx k } := by
  have hfewer : List.Sublist (s.served ++ (s.redeemed.eraseIdx k).map Verified.txHash)
      (s.served ++ s.redeemed.map Verified.txHash) :=
    List.Sublist.append_left (List.Sublist.map _ (List.eraseIdx_sublist _ _)) _
  exact { hs with
    once := hs.once.sublist hfewer
    stored := fun h hh => hs.stored h (hfewer.subset hh) }

lemma redeemPayment_ok {rows rows' : List PaymentRow} {v : Verified} {now : Int}
    (h : redeemPayment rows v now = .ok rows') : v.txHash ∉ rows.map PaymentRow.txHash ∧
      rows'.map PaymentRow.txHash = rows.map PaymentRow.txHash ++ [v.txHash] := by
  simp only [redeemPayment, bind_eq_ok, require_eq_ok, pure_eq_ok] at h
  obtain ⟨-, hnew, rfl⟩ := h
  exact ⟨hnew, by rw [List.map_append, List.map_singleton]⟩

lemma Sound.redeem (hs : Sound d cfg events s) {k : Nat} {v : Verified} (hk : s.verified[k]? = some v)
    {rows : List PaymentRow} {now : Int} (h : redeemPayment s.payments v now = .ok rows) :
    Sound d cfg events { s with
      payments := rows, verified := s.verified.eraseIdx k, redeemed := s.redeemed ++ [v] } := by
  obtain ⟨hnew, hrows⟩ := redeemPayment_ok h
  have hbought : Bought d cfg events v.txHash := hs.waiting v (List.mem_of_getElem? hk)
  have hheld : s.served ++ (s.redeemed ++ [v]).map Verified.txHash =
      (s.served ++ s.redeemed.map Verified.txHash) ++ [v.txHash] := by
    rw [List.map_append, List.map_singleton, List.append_assoc]
  refine ⟨?_, ?_, ?_, (hs.dropVerified k).waiting, ?_⟩
  · rw [hrows]
    exact hs.keys.append (List.nodup_singleton _) (List.disjoint_singleton.mpr hnew)
  · rw [hheld]
    exact hs.once.append (List.nodup_singleton _) (List.disjoint_singleton.mpr fun hh => hnew (hs.stored _ hh))
  · intro h hh
    rw [hheld] at hh
    rw [hrows]
    rcases List.mem_append.mp hh with hh | hh
    · exact List.mem_append_left _ (hs.stored h hh)
    · exact List.mem_append_right _ hh
  · intro h hh
    rw [hrows] at hh
    rcases List.mem_append.mp hh with hh | hh
    · exact hs.bought h hh
    · obtain rfl := List.mem_singleton.mp hh
      exact hbought

lemma Sound.serve (hs : Sound d cfg events s) {k : Nat} {v : Verified} (hk : s.redeemed[k]? = some v) :
    Sound d cfg events { s with redeemed := s.redeemed.eraseIdx k, served := s.served ++ [v.txHash] } := by
  obtain ⟨hlt, rfl⟩ := List.getElem?_eq_some_iff.mp hk
  have hperm : ((s.served ++ [s.redeemed[k].txHash]) ++ (s.redeemed.eraseIdx k).map Verified.txHash).Perm
      (s.served ++ s.redeemed.map Verified.txHash) := by
    rw [List.append_assoc, List.singleton_append]
    exact List.Perm.append_left _ ((List.getElem_cons_eraseIdx_perm hlt).map Verified.txHash)
  exact { hs with
    once := hperm.nodup_iff.mpr hs.once
    stored := fun h hh => hs.stored h (hperm.subset hh) }

lemma Sound.step {event : Event} (hs : Sound d cfg events s) (hevent : event ∈ events)
    (h : step d cfg s event = .ok s') : Sound d cfg events s' := by
  cases event with
  | present header rpc now =>
    simp only [Metered.step, bind_eq_ok, pure_eq_ok] at h
    obtain ⟨v, hv, rfl⟩ := h
    refine { hs with waiting := fun x hx => ?_ }
    rcases List.mem_append.mp hx with hx | hx
    · exact hs.waiting x hx
    · obtain rfl := List.mem_singleton.mp hx
      exact ⟨header, rpc, now, x.payment, hevent, hv⟩
  | redeem k now =>
    simp only [Metered.step] at h
    cases hk : s.verified[k]? with
    | none =>
      rw [hk] at h
      exact Except.ok.inj h ▸ hs
    | some v =>
      rw [hk] at h
      dsimp only at h
      cases hrows : redeemPayment s.payments v now with
      | error e =>
        rw [hrows] at h
        exact Except.ok.inj h ▸ hs.dropVerified k
      | ok rows =>
        rw [hrows] at h
        exact Except.ok.inj h ▸ hs.redeem hk hrows
  | redeemFails k => exact Except.ok.inj h ▸ hs.dropVerified k
  | serve k =>
    simp only [Metered.step] at h
    cases hk : s.redeemed[k]? with
    | none =>
      rw [hk] at h
      exact Except.ok.inj h ▸ hs
    | some v =>
      rw [hk] at h
      exact Except.ok.inj h ▸ hs.serve hk
  | dropVerified k => exact Except.ok.inj h ▸ hs.dropVerified k
  | dropRedeemed k => exact Except.ok.inj h ▸ hs.dropRedeemed k
  | restart =>
    obtain rfl := Except.ok.inj h
    refine ⟨hs.keys, ?_, ?_, fun v hv => absurd hv List.not_mem_nil, hs.bought⟩
    · simpa using hs.once.of_append_left
    · intro h hh
      rw [List.map_nil, List.append_nil] at hh
      exact hs.stored h (List.mem_append_left _ hh)

lemma sound_run (events : List Event) : Sound d cfg events (exec (Metered.step d cfg) .empty events) := by
  have halong : Along (Metered.step d cfg) (fun _ event => event ∈ events) .empty events :=
    along_of_forall _ (fun _ h _ => h) _
  refine exec_invariant_along (Metered.step d cfg) (fun _ _ _ hs hevent h => hs.step hevent h)
    ⟨List.nodup_nil, List.nodup_nil, ?_, ?_, ?_⟩ halong
  · exact fun _ h => absurd h List.not_mem_nil
  · exact fun _ h => absurd h List.not_mem_nil
  · exact fun _ h => absurd h List.not_mem_nil

lemma Bought.canonical {txHash : Text} (h : Bought d cfg events txHash) : ∃ hash, Canonical txHash hash := by
  obtain ⟨header, rpc, now, payment, -, h⟩ := h
  simp only [admitPayment, bind_eq_ok, expect_eq_ok, mapError_eq_ok, pure_eq_ok, Verified.mk.injEq] at h
  obtain ⟨headerVal, -, txHash', hparse, payment', -, rfl, rfl⟩ := h
  exact parsePayment_canonical hparse

lemma Bought.worth {chain : Chain} (hcfg : cfg.Payable)
    (htruth : ∀ header rpc now, .present header rpc now ∈ events → Truthful chain rpc) {txHash : Text}
    (h : Bought d cfg events txHash) : ∃ hash header rpc now r, Canonical txHash hash ∧
      .present header rpc now ∈ events ∧ Worth chain cfg hash now r := by
  obtain ⟨hash, hhash⟩ := h.canonical
  obtain ⟨header, rpc, now, payment, hevent, h⟩ := h
  simp only [admitPayment, bind_eq_ok, expect_eq_ok, mapError_eq_ok, pure_eq_ok, Verified.mk.injEq] at h
  obtain ⟨headerVal, -, txHash', -, payment', hverify, rfl, rfl⟩ := h
  obtain ⟨r, hr⟩ := verifyPayment_worth (htruth header rpc now hevent) hcfg hhash hverify
  exact ⟨hash, header, rpc, now, r, hhash, hevent, hr⟩

/-- Handlers run at most once for each transaction redeemed, each of which was recent and moved the price. -/
theorem metered_once (d : Decoders) (env : String → Option Text) (cfg : Config) (henv : fromEnv env = some cfg)
    (chain : Chain) (events : List Event)
    (htruth : ∀ header rpc now, .present header rpc now ∈ events → Truthful chain rpc) :
    let s := exec (Metered.step d cfg) .empty events
    s.served.length ≤ (s.payments.map fun row => transactionOf row.txHash).toFinset.card ∧
      ∀ row ∈ s.payments, ∃ hash header rpc verifiedAt r, transactionOf row.txHash = some hash ∧
        .present header rpc verifiedAt ∈ events ∧ Worth chain cfg hash verifiedAt r := by
  intro s
  have hcfg := fromEnv_payable henv
  have hs : Sound d cfg events s := sound_run events
  constructor
  · have hinj : ∀ h ∈ s.payments.map PaymentRow.txHash, ∀ h' ∈ s.payments.map PaymentRow.txHash,
        transactionOf h = transactionOf h' → h = h' := by
      intro h hh h' hh' heq
      obtain ⟨hash, hhash⟩ := (hs.bought h hh).canonical
      obtain ⟨hash', hhash'⟩ := (hs.bought h' hh').canonical
      rw [hhash.transaction, hhash'.transaction] at heq
      obtain rfl := Option.some.inj heq
      rw [hhash.2, hhash'.2]
    have hkeys : ((s.payments.map PaymentRow.txHash).map transactionOf).Nodup := hs.keys.map_on hinj
    rw [List.map_map] at hkeys
    have hcard : (s.payments.map fun row => transactionOf row.txHash).toFinset.card = s.payments.length :=
      (List.toFinset_card_of_nodup hkeys).trans (List.length_map _)
    have hserved : s.served.Subperm (s.payments.map PaymentRow.txHash) :=
      hs.once.of_append_left.subperm fun h hh => hs.stored h (List.mem_append_left _ hh)
    rw [hcard, ← List.length_map (f := PaymentRow.txHash)]
    exact hserved.length_le
  · intro row hrow
    obtain ⟨hash, header, rpc, verifiedAt, r, hhash, hevent, hworth⟩ :=
      (hs.bought row.txHash (List.mem_map_of_mem hrow)).worth hcfg htruth
    exact ⟨hash, header, rpc, verifiedAt, r, hhash.transaction, hevent, hworth⟩

end Runs

/-! ### A hash presented twice -/

section Sample

def bytesOf (text : Text) : Bytes := (hexDecode (text.drop 2)).getD []

def sampleHash : Text := '0' :: 'x' :: List.replicate 64 'a'

def assetText : Text := "0x20c0000000000000000000000000000000000000".toList
def payeeTopic : Text := topicFor DEFAULT_PAY_TO
def valueText : Text := '0' :: 'x' :: (List.replicate 61 '0' ++ "3e8".toList)

def sampleLog : Log where
  address := bytesOf assetText
  topics := [bytesOf TRANSFER_TOPIC, bytesOf payeeTopic, bytesOf payeeTopic]
  data := bytesOf valueText

def sampleReceipt : Receipt := ⟨true, [sampleLog], 5⟩

def sampleChain : Chain where
  receipt hash := if hash = bytesOf sampleHash then some sampleReceipt else none
  timestamp n := if n = 5 then some 1000 else none

def field (key : String) (v : Json.Value) : Text × Json.Value := (key.toList, v)

def sampleLogJson : Json.Value :=
  .obj [field "address" (.str assetText),
    field "topics" (.arr [.str TRANSFER_TOPIC, .str payeeTopic, .str payeeTopic]), field "data" (.str valueText)]

def sampleReceiptJson : Json.Value :=
  .obj [field "status" (.str "0x1".toList), field "logs" (.arr [sampleLogJson]),
    field "blockNumber" (.str "0x5".toList)]

def sampleRpc : Rpc
  | "eth_getTransactionReceipt", [.str hash] =>
    if hash = sampleHash then .ok (.obj [field "result" sampleReceiptJson]) else .ok (.obj [field "result" .null])
  | "eth_getBlockByNumber", [.str number, .bool false] =>
    if number = "0x5".toList then .ok (.obj [field "result" (.obj [field "timestamp" (.str "0x3e8".toList)])])
    else .ok (.obj [field "result" .null])
  | _, _ => .error []

lemma spells_bytesOf {text : Text} {digits : Text} (h : text = '0' :: 'x' :: digits)
    (hdigits : (hexDecode digits).isSome = true) : Spells text (bytesOf text) := by
  subst h
  obtain ⟨bytes, hbytes⟩ := Option.isSome_iff_exists.mp hdigits
  refine ⟨digits, rfl, ?_⟩
  rw [bytesOf, show ('0' :: 'x' :: digits).drop 2 = digits from rfl, hbytes, Option.getD_some]

lemma sampleReceipt_told : TellsReceipt sampleReceiptJson sampleReceipt := by
  have htopic : Spells TRANSFER_TOPIC (bytesOf TRANSFER_TOPIC) := spells_bytesOf rfl (by decide +kernel)
  have hpayee : Spells payeeTopic (bytesOf payeeTopic) := spells_bytesOf rfl (by decide +kernel)
  have hlog : TellsLog sampleLogJson sampleLog :=
    ⟨⟨assetText, rfl, spells_bytesOf rfl (by decide +kernel)⟩,
      ⟨_, rfl, .cons ⟨_, rfl, htopic⟩ (.cons ⟨_, rfl, hpayee⟩ (.cons ⟨_, rfl, hpayee⟩ .nil))⟩,
      ⟨valueText, rfl, spells_bytesOf rfl (by decide +kernel)⟩⟩
  exact ⟨rfl, ⟨_, rfl, .cons hlog .nil⟩, ⟨"0x5".toList, rfl, "5".toList, by decide, rfl, by decide +kernel⟩⟩

lemma sampleRpc_truthful : Truthful sampleChain sampleRpc := by
  constructor
  · intro txHash hash response result hspells hresponse hresult hnull
    simp only [sampleRpc] at hresponse
    split_ifs at hresponse with hsame
    · obtain rfl := Except.ok.inj hresponse
      obtain rfl : sampleReceiptJson = result := Option.some.inj hresult
      subst hsame
      obtain ⟨digits, hdigits, hdecode⟩ := hspells
      obtain rfl : List.replicate 64 'a' = digits := (List.cons.inj (List.cons.inj hdigits).2).2
      have hhash : hash = bytesOf sampleHash := by
        rw [bytesOf, show sampleHash.drop 2 = List.replicate 64 'a' from rfl, hdecode, Option.getD_some]
      exact ⟨sampleReceipt, if_pos hhash, sampleReceipt_told⟩
    · obtain rfl := Except.ok.inj hresponse
      obtain rfl : Json.Value.null = result := Option.some.inj hresult
      cases hnull
  · intro text n response result time hquantity hresponse hresult htime
    simp only [sampleRpc] at hresponse
    split_ifs at hresponse with hsame
    · obtain rfl := Except.ok.inj hresponse
      obtain rfl : Json.Value.obj [field "timestamp" (.str "0x3e8".toList)] = result := Option.some.inj hresult
      obtain rfl : "0x3e8".toList = time := Json.Value.str.inj (Option.some.inj htime)
      subst hsame
      obtain ⟨digits, -, hdigits, hvalue⟩ := hquantity
      obtain rfl : ['5'] = digits := (List.cons.inj (List.cons.inj hdigits).2).2
      obtain rfl : 5 = n := Option.some.inj hvalue
      exact ⟨1000, rfl, "3e8".toList, by decide, rfl, by decide +kernel⟩
    · obtain rfl := Except.ok.inj hresponse
      obtain rfl : Json.Value.null = result := Option.some.inj hresult
      cases htime

def sampleDecoders : Decoders := ⟨Base64.atob, Base64.decodeStrict Base64.urlSafe, Json.parse⟩

def sampleConfig : Config := (fromEnv fun _ => none).getD ⟨[], [], [], 0, 0, [], 0, [], []⟩

/-- The hash in capitals, and again in an envelope. -/
def presentedTwice : List Event :=
  let capitals := '0' :: 'x' :: List.replicate 64 'A'
  let envelope := Base64.btoa (Utf8.encode (Json.render (.obj [field "txHash" (.str sampleHash)])))
  [.present (some capitals) sampleRpc 1200, .present (some envelope) sampleRpc 1300, .redeem 0 1210, .redeem 0 1310,
    .serve 0]

lemma presentedTwice_truthful (header : Option Text) (rpc : Rpc) (now : Int)
    (h : .present header rpc now ∈ presentedTwice) : Truthful sampleChain rpc := by
  have hrpc : rpc = sampleRpc := by
    simp only [presentedTwice, List.mem_cons, Event.present.injEq, reduceCtorEq, List.not_mem_nil, or_false] at h
    rcases h with ⟨-, rfl, -⟩ | ⟨-, rfl, -⟩ <;> rfl
  exact hrpc ▸ sampleRpc_truthful

theorem metered_once_presentedTwice :
    let s := exec (Metered.step sampleDecoders sampleConfig) .empty presentedTwice
    s.served.length ≤ (s.payments.map fun row => transactionOf row.txHash).toFinset.card ∧
      ∀ row ∈ s.payments, ∃ hash header rpc verifiedAt r, transactionOf row.txHash = some hash ∧
        .present header rpc verifiedAt ∈ presentedTwice ∧ Worth sampleChain sampleConfig hash verifiedAt r :=
  metered_once sampleDecoders (fun _ => none) sampleConfig rfl sampleChain presentedTwice presentedTwice_truthful

example : (exec (Metered.step sampleDecoders sampleConfig) .empty presentedTwice).served = [sampleHash] := by
  decide +kernel

end Sample

end Peal.Coordinator.Metered
