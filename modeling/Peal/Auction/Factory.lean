import Mathlib.Data.Nat.Digits.Lemmas
import Peal.Auction.Calls

namespace Peal.Auction
open Peal.Fallible Peal.Runs SealedBidAuction

/-! # The factory, and the auctions it creates on tokens they share -/

/-- What the chain fixes for a factory: its own environment, and the addresses its clones get, in order. -/
structure Site where
  env : Env
  clone : Nat → Nat
  self_ne_zero : env.self ≠ 0
  clone_ne_zero : ∀ n, clone n ≠ 0
  clone_ne_self : ∀ n, clone n ≠ env.self
  clone_injective : Function.Injective clone

/-- The environment of the n-th auction. -/
def Site.auction (site : Site) (n : Nat) : Env := { site.env with self := site.clone n }

/-- A transaction of an outside account: no contract of the factory sends any. -/
structure Caller (site : Site) where
  sender : Nat
  timestamp : Nat
  blockNumber : Nat
  sender_ne_zero : sender ≠ 0
  sender_ne_factory : sender ≠ site.env.self
  sender_ne_clone : ∀ n, sender ≠ site.clone n

namespace Caller

variable {site : Site} (caller : Caller site) (n : Nat)

def msg : Msg (site.auction n) :=
  ⟨caller.sender, caller.timestamp, caller.blockNumber, caller.sender_ne_zero, caller.sender_ne_clone n⟩

/-- The factory's own call of an auction, within the caller's transaction. -/
def factoryMsg : Msg (site.auction n) :=
  ⟨site.env.self, caller.timestamp, caller.blockNumber, site.self_ne_zero, (site.clone_ne_self n).symm⟩

end Caller

/-! ## The label -/

/-- The bytes of a string. -/
abbrev Str := List UInt8

/-- Up to 32 bytes as a big-endian word, padded at the end. -/
def packWord (chunk : Str) : Nat :=
  Nat.ofDigits 256 (chunk.map UInt8.toNat ++ List.replicate (32 - chunk.length) 0).reverse

def chunk (bytes : Str) (i : Nat) : Str := (bytes.drop (32 * i)).take 32

def wordsOf (bytes : Str) : List Nat := (List.range ((bytes.length + 31) / 32)).map fun i => packWord (chunk bytes i)

def stringTail (bytes : Str) : List Nat := bytes.length :: wordsOf bytes

/-- `abi.encode(name, useCase, details)`, word by word: three offsets, and what they point to. -/
def encodeLabel (name useCase details : Str) : List Nat :=
  let first := 0x60 + 32 * (stringTail name).length
  let second := first + 32 * (stringTail useCase).length
  [0x60, first, second] ++ (stringTail name ++ (stringTail useCase ++ stringTail details))

def metadataHash (keccak256 : List Nat → Nat) (name useCase details : Str) : Nat :=
  keccak256 (encodeLabel name useCase details)

/-! ## The factory -/

inductive FactoryRevert where
  | required (reason : String)
  | notFunded
  | called (reason : Revert)
  | panic (code : Nat)
  | noCode
  deriving DecidableEq, Repr

/-- The event of a new auction. -/
structure AuctionCreated where
  auction : Nat
  issuer : Nat
  saleToken : Nat
  quoteToken : Nat
  totalSupply : Nat
  startTime : Nat
  endTime : Nat
  name : Str
  useCase : Str
  details : Str
  deriving DecidableEq, Repr

structure AuctionFactory where
  auctions : List Nat
  isAuction : Nat → Bool
  byIssuer : Nat → List Nat
  logs : List AuctionCreated

/-- The arguments of `createAuction`; the configuration's `metadataHash` stands apart. -/
structure Creation where
  cfg : Config
  metadataHash : Nat
  name : Str
  useCase : Str
  details : Str
  deriving DecidableEq, Repr

structure Deployed where
  auction : SealedBidAuction
  metadataHash : Nat

/-- The factory with the clones it has made, in order, the registry and the tokens. -/
structure Market where
  factory : AuctionFactory
  deployed : List Deployed
  registry : CommitteeRegistry
  erc20 : Nat → ERC20

namespace AuctionFactory

variable (f : AuctionFactory)

def empty : AuctionFactory := ⟨[], fun _ => false, fun _ => [], []⟩

def auctionCount : Nat := f.auctions.length

def list (auction issuer : Nat) (created : AuctionCreated) : AuctionFactory where
  auctions := f.auctions ++ [auction]
  isAuction := Function.update f.isAuction auction true
  byIssuer := Function.update f.byIssuer issuer (f.byIssuer issuer ++ [auction])
  logs := f.logs ++ [created]

def auctionsPaged (offset limit : Nat) : Except FactoryRevert (List Nat) :=
  if f.auctions.length ≤ offset then .ok []
  else do
    let stop ← checked (.panic 0x11) 256 (offset + limit)
    let stop := if f.auctions.length < stop then f.auctions.length else stop
    .ok ((List.range (stop - offset)).map fun i => f.auctions.getD (offset + i) 0)

end AuctionFactory

/-- A call of another contract, whose failure takes the transaction with it. -/
def called {α : Type} (x : Except Revert α) : Except FactoryRevert α := x.mapError .called

namespace Market

variable (site : Site) (m : Market)

/-- What the n-th auction sees of the market. -/
def world (a : SealedBidAuction) : World := ⟨a, m.registry, m.erc20 a.config.saleToken, m.erc20 a.config.quoteToken⟩

def setTokens (cfg : Config) (w : World) : Market :=
  { m with erc20 := Function.update (Function.update m.erc20 cfg.saleToken w.sale) cfg.quoteToken w.quote }

def put (n : Nat) (d : Deployed) (w : World) : Market :=
  { m.setTokens d.auction.config w with deployed := m.deployed.set n { d with auction := w.auction } }

/-- `_pullExact` of the sale token, then the approval for the auction. -/
def pullAndApprove (caller : Caller site) (auction : Nat) (cfg : Config) : Except FactoryRevert ERC20 := do
  let sale := m.erc20 cfg.saleToken
  let pulled ← called (sale.transferFrom site.env.self caller.sender site.env.self cfg.totalSupply)
  let received ← checkedSub (.panic 0x11) (pulled.balanceOf site.env.self) (sale.balanceOf site.env.self)
  require (received = cfg.totalSupply) .notFunded
  .ok (pulled.approve site.env.self auction cfg.totalSupply)

/-- An auction whose window has begun is opened at once. -/
def openIfStarted (caller : Caller site) (n : Nat) (cfg : Config) (w : World) : Except FactoryRevert World :=
  if cfg.startTime ≤ caller.timestamp then
    called (w.onAuction (openCommit (site.auction n) w.auction (caller.factoryMsg n)))
  else .ok w

def createAuction (caller : Caller site) (c : Creation) : Except FactoryRevert Market := do
  require (c.metadataHash = metadataHash site.env.keccak256 c.name c.useCase c.details) (.required "metadata")
  require (c.cfg.issuer = caller.sender) (.required "issuer")
  let n := m.deployed.length
  let a ← called (initializeAuction m.registry c.cfg)
  let sale ← m.pullAndApprove site caller (site.clone n) c.cfg
  let funded ← called (World.fund (site.auction n) ⟨a, m.registry, sale, m.erc20 c.cfg.quoteToken⟩
    (caller.factoryMsg n))
  let opened ← openIfStarted site caller n c.cfg funded
  .ok { m.setTokens c.cfg opened with
    factory := m.factory.list (site.clone n) caller.sender ⟨site.clone n, caller.sender, c.cfg.saleToken,
      c.cfg.quoteToken, c.cfg.totalSupply, c.cfg.startTime, c.cfg.endTime, c.name, c.useCase, c.details⟩
    deployed := m.deployed ++ [⟨opened.auction, c.metadataHash⟩] }

end Market

/-- The calls of an auction's own functions. -/
def Call.own : Call → Bool
  | .registerCommitteeSet _ _ => false
  | .elsewhere _ _ => false
  | _ => true

/-- The transactions of a market: creations, calls of its auctions and of the registry, and whatever the holders of
the tokens do with them. -/
inductive MarketCall where
  | createAuction (c : Creation)
  | call (n : Nat) (c : Call)
  | registerCommitteeSet (threshold : Nat) (members : List Nat)
  | transfer (token recipient amount : Nat)
  | transferFrom (token sender recipient amount : Nat)
  | approve (token spender amount : Nat)
  | mint (token recipient amount : Nat)

def ERC20.mint (t : ERC20) (recipient amount : Nat) : ERC20 :=
  ⟨Function.update t.balanceOf recipient (t.balanceOf recipient + amount), t.allowance⟩

namespace Market

variable (site : Site) (m : Market)

def setToken (token : Nat) (t : ERC20) : Market := { m with erc20 := Function.update m.erc20 token t }

def step (e : Caller site × MarketCall) : Except FactoryRevert Market :=
  match e.2 with
  | .createAuction c => m.createAuction site e.1 c
  | .call n c => do
    require (c.own = true) .noCode
    let d ← expect m.deployed[n]? .noCode
    let w ← called (Auction.step (site.auction n) (m.world d.auction) (e.1.msg n, c))
    .ok (m.put n d w)
  | .registerCommitteeSet threshold members => do
    let registry ← called (m.registry.registerCommitteeSet site.env.keccak256 e.1.timestamp threshold members)
    .ok { m with registry := registry }
  | .transfer token recipient amount => do
    let t ← called ((m.erc20 token).transfer e.1.sender recipient amount)
    .ok (m.setToken token t)
  | .transferFrom token sender recipient amount => do
    let t ← called ((m.erc20 token).transferFrom e.1.sender sender recipient amount)
    .ok (m.setToken token t)
  | .approve token spender amount => .ok (m.setToken token ((m.erc20 token).approve e.1.sender spender amount))
  | .mint token recipient amount => .ok (m.setToken token ((m.erc20 token).mint recipient amount))

/-- A factory just deployed, beside tokens that none of the addresses of its clones has approved anybody to spend. -/
structure Launched : Prop where
  factory : m.factory = .empty
  deployed : m.deployed = []
  unspent : ∀ token n spender, (m.erc20 token).allowance (site.clone n) spender = 0

end Market

end Peal.Auction
