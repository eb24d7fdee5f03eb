import Peal.Links.DepositId
import Peal.Library.Fallible
import Peal.Library.Runs
import Peal.Library.Utf8
import Mathlib.Data.List.Sort

namespace Peal.Links.Directory
open Peal.Fallible Peal.Runs

/-! # The log of receiving profiles -/

structure Profile where
  version : BitVec 64
  wallet : Text
  chainId : BitVec 64
  namespaceHex : Text
  account : Text
  encKey : Text
  profileKey : Text
  displayName : Text
  recovery : Text
  nonce : Text
  issuedAt : BitVec 64
  expiry : BitVec 64
  prev : Text
  revoked : Bool
  signature : Text
  deriving DecidableEq, Repr

/-! ### The digest a wallet signs -/

def PROFILE_TYPE : String :=
  "PealLinksAccount(uint64 version,address wallet,uint256 chainId,bytes32 namespace,bytes32 account,bytes32 encKey,bytes32 profileKey,string displayName,string recovery,bytes32 nonce,uint64 issuedAt,uint64 expiry,bytes32 prev,bool revoked)"

def DOMAIN_TYPE : String := "EIP712Domain(string name,string version,uint256 chainId)"

def DOMAIN_NAME : String := "Peal Links"

def DOMAIN_VERSION : String := "1"

def wordU64 (v : BitVec 64) : Bytes := List.replicate 24 0 ++ (toLeBytes 8 v.toNat).reverse

def hex32 (s : Text) : Except String Bytes := do
  let raw ← expect (hexDecode (trimHexPrefix s)) "invalid hex"
  require (raw.length = 32) "expected 32 bytes"
  return raw

def wordAddress (addr : Text) : Except String Bytes := do
  let raw ← expect (hexDecode (trimHexPrefix addr)) "invalid hex"
  require (raw.length = 20) "address must be 20 bytes"
  return List.replicate 12 0 ++ raw

section Digest

variable (keccak : Bytes → Bytes)

def textHash (s : Text) : Bytes := keccak (Utf8.encode s)

def domainSeparator (chainId : BitVec 64) : Bytes :=
  keccak (textHash keccak DOMAIN_TYPE.toList ++ textHash keccak DOMAIN_NAME.toList ++
    textHash keccak DOMAIN_VERSION.toList ++ wordU64 chainId)

def Profile.digest (p : Profile) : Except String Bytes := do
  let wallet ← wordAddress p.wallet
  let namespaceWord ← hex32 p.namespaceHex
  let account ← hex32 p.account
  let encKey ← hex32 p.encKey
  let profileKey ← hex32 p.profileKey
  let nonce ← hex32 p.nonce
  let prev ← hex32 p.prev
  let structHash := keccak (textHash keccak PROFILE_TYPE.toList ++ wordU64 p.version ++ wallet ++
    wordU64 p.chainId ++ namespaceWord ++ account ++ encKey ++ profileKey ++ textHash keccak p.displayName ++
    textHash keccak p.recovery ++ nonce ++ wordU64 p.issuedAt ++ wordU64 p.expiry ++ prev ++
    wordU64 (if p.revoked then 1 else 0))
  return keccak ([0x19, 0x01] ++ domainSeparator keccak p.chainId ++ structHash)

end Digest

/-! ### The table -/

structure Verified where
  method : Text
  block : Option Nat
  deriving DecidableEq, Repr

/-- A row; its version is the profile's as the column's signed integer. -/
structure Row where
  namespaceHex : Text
  address : Text
  version : Int
  profile : Profile
  hash : Text
  prev : Text
  method : Text
  block : Option Nat
  createdAt : Nat
  deriving DecidableEq, Repr

structure LogEntry where
  version : BitVec 64
  hash : Text
  createdAt : Nat
  deriving DecidableEq, Repr

structure Stored where
  profile : Profile
  hash : Text
  method : Text
  block : Option Nat
  log : List LogEntry
  deriving DecidableEq, Repr

def rowsOf (rows : List Row) (namespaceHex address : Text) : List Row :=
  rows.filter fun r => r.namespaceHex = namespaceHex ∧ r.address = address

def entryOf (r : Row) : LogEntry := ⟨BitVec.ofInt 64 r.version, r.hash, r.createdAt⟩

/-- `ORDER BY version ASC`. -/
def logOf (rows : List Row) : List LogEntry := (rows.insertionSort fun r r' => r.version ≤ r'.version).map entryOf

def later (best : Option Row) (r : Row) : Option Row :=
  match best with
  | none => some r
  | some b => if b.version < r.version then some r else some b

/-- `ORDER BY version DESC LIMIT 1`. -/
def highest (rows : List Row) : Option Row := rows.foldl later none

def latest (rows : List Row) (namespaceHex address : Text) : Option Stored :=
  (highest (rowsOf rows namespaceHex address)).map fun r =>
    ⟨r.profile, r.hash, r.method, r.block, logOf (rowsOf rows namespaceHex address)⟩

def zeroHash : Text := List.replicate 64 '0'

def checkPublished (profile : Profile) : Option Stored → Except String Unit
  | some c => do
    require (c.profile.version.toNat < profile.version.toNat)
      s!"version must exceed the published version {c.profile.version.toNat}"
    require (trimHexPrefix profile.prev = c.hash) "prev must be the hash of the published version"
  | none => require (trimHexPrefix profile.prev = zeroHash) "the first version's prev must be zero"

def insertRow (rows : List Row) (row : Row) : Except String (List Row) := do
  require (∀ r ∈ rows, ¬(r.namespaceHex = row.namespaceHex ∧ r.address = row.address ∧ r.version = row.version))
    "UNIQUE constraint failed: directory.namespace, directory.address, directory.version"
  return rows ++ [row]

def append (rows : List Row) (namespaceHex : Text) (profile : Profile) (hash : Text) (verified : Verified)
    (now : Nat) : Except String (List Row) := do
  checkPublished profile (latest rows namespaceHex profile.wallet)
  insertRow rows {
    namespaceHex := namespaceHex
    address := profile.wallet
    version := profile.version.toInt
    profile := profile
    hash := hash
    prev := trimHexPrefix profile.prev
    method := verified.method
    block := verified.block
    createdAt := now }

/-- A call of `append`. -/
structure Call where
  namespaceHex : Text
  profile : Profile
  hash : Text
  verified : Verified
  now : Nat
  deriving DecidableEq, Repr

def step (rows : List Row) (call : Call) : Except String (List Row) :=
  append rows call.namespaceHex call.profile call.hash call.verified call.now

/-! ### What the log is for -/

/-- Each row names the hash of the one before it, the first one none, and the versions increase. -/
structure Chained (rows : List Row) : Prop where
  first : ∀ r ∈ rows.head?, r.prev = zeroHash
  linked : rows.IsChain fun r r' => r'.prev = r.hash
  increasing : rows.Pairwise fun r r' => r.profile.version.toNat < r'.profile.version.toNat

/-- What the address last appended, and all it appended, in order. -/
def lastAppended (rows : List Row) : Option Stored :=
  rows.getLast?.map fun r => ⟨r.profile, r.hash, r.method, r.block,
    rows.map fun r => ⟨r.profile.version, r.hash, r.createdAt⟩⟩

def Lawful (rows : List Row) : Prop :=
  ∀ namespaceHex address, Chained (rowsOf rows namespaceHex address) ∧
    latest rows namespaceHex address = lastAppended (rowsOf rows namespaceHex address)

/-- The call follows the published version, and its version is the first that does not fit the signed column. -/
def Crosses (rows : List Row) (call : Call) : Prop :=
  ∃ c ∈ latest rows call.namespaceHex call.profile.wallet,
    c.profile.version.toNat < 2 ^ 63 ∧ 2 ^ 63 ≤ call.profile.version.toNat ∧
    trimHexPrefix call.profile.prev = c.hash

/-! ### One append -/

variable {rows rows' : List Row} {call : Call}

def rowFor (call : Call) : Row where
  namespaceHex := call.namespaceHex
  address := call.profile.wallet
  version := call.profile.version.toInt
  profile := call.profile
  hash := call.hash
  prev := trimHexPrefix call.profile.prev
  method := call.verified.method
  block := call.verified.block
  createdAt := call.now

lemma step_eq_ok : step rows call = .ok rows' ↔
    checkPublished call.profile (latest rows call.namespaceHex call.profile.wallet) = .ok () ∧
    (∀ r ∈ rowsOf rows call.namespaceHex call.profile.wallet, r.version ≠ call.profile.version.toInt) ∧
    rows' = rows ++ [rowFor call] := by
  unfold step append insertRow
  simp only [bind_eq_ok, require_eq_ok, pure_eq_ok]
  constructor
  · rintro ⟨⟨⟩, hcheck, -, hunique, rfl⟩
    refine ⟨hcheck, fun r hr heq => ?_, rfl⟩
    obtain ⟨hmem, hkey⟩ := List.mem_filter.mp hr
    obtain ⟨hns, haddress⟩ := of_decide_eq_true hkey
    exact hunique r hmem ⟨hns, haddress, heq⟩
  · rintro ⟨hcheck, hunique, rfl⟩
    refine ⟨(), hcheck, (), ?_, rfl⟩
    rintro r hr ⟨hns, haddress, heq⟩
    exact hunique r (List.mem_filter.mpr ⟨hr, decide_eq_true ⟨hns, haddress⟩⟩) heq

lemma rowsOf_append_self (rows : List Row) (call : Call) :
    rowsOf (rows ++ [rowFor call]) call.namespaceHex call.profile.wallet =
      rowsOf rows call.namespaceHex call.profile.wallet ++ [rowFor call] := by
  rw [rowsOf, List.filter_append, List.filter_singleton]
  simp [rowFor, rowsOf]

lemma rowsOf_append_other {namespaceHex address : Text} (rows : List Row) (call : Call)
    (h : ¬(call.namespaceHex = namespaceHex ∧ call.profile.wallet = address)) :
    rowsOf (rows ++ [rowFor call]) namespaceHex address = rowsOf rows namespaceHex address := by
  have hskip : decide ((rowFor call).namespaceHex = namespaceHex ∧ (rowFor call).address = address) = false :=
    decide_eq_false h
  rw [rowsOf, List.filter_append, List.filter_singleton, hskip]
  simp [rowsOf]

/-! ### The highest row -/

lemma highest_concat (rows : List Row) (r : Row) : highest (rows ++ [r]) = later (highest rows) r := by
  rw [highest, List.foldl_append]
  rfl

lemma highest_eq_none (h : highest rows = none) : rows = [] := by
  cases rows using List.reverseRecOn with
  | nil => rfl
  | append_singleton rows r =>
    rw [highest_concat] at h
    unfold later at h
    split at h
    · cases h
    · split at h <;> cases h

lemma le_highest {best : Row} (h : highest rows = some best) : ∀ r ∈ rows, r.version ≤ best.version := by
  induction rows using List.reverseRecOn generalizing best with
  | nil => exact fun r hr => absurd hr List.not_mem_nil
  | append_singleton rows x ih =>
    rw [highest_concat] at h
    intro r hr
    cases hold : highest rows with
    | none =>
      obtain rfl := highest_eq_none hold
      obtain rfl := List.mem_singleton.mp hr
      obtain rfl := Option.some.inj h
      exact le_refl _
    | some b =>
      rw [hold, later] at h
      have hmax : b.version ≤ best.version ∧ x.version ≤ best.version := by
        split_ifs at h with hlt
        · obtain rfl := Option.some.inj h
          exact ⟨hlt.le, le_refl _⟩
        · obtain rfl := Option.some.inj h
          exact ⟨le_refl _, not_lt.mp hlt⟩
      rcases List.mem_append.mp hr with hr | hr
      · exact (ih hold r hr).trans hmax.1
      · obtain rfl := List.mem_singleton.mp hr
        exact hmax.2

lemma highest_mem {best : Row} (h : highest rows = some best) : best ∈ rows := by
  induction rows using List.reverseRecOn generalizing best with
  | nil => cases h
  | append_singleton rows x ih =>
    rw [highest_concat] at h
    unfold later at h
    split at h
    · obtain rfl := Option.some.inj h
      exact List.mem_append_right _ List.mem_cons_self
    · next b hold =>
      split_ifs at h with hlt
      · obtain rfl := Option.some.inj h
        exact List.mem_append_right _ List.mem_cons_self
      · obtain rfl := Option.some.inj h
        exact List.mem_append_left _ (ih hold)

/-! ### One address's rows -/

/-- Every row's version is its profile's. -/
def Faithful (rows : List Row) : Prop := ∀ r ∈ rows, r.version = r.profile.version.toInt

lemma faithful_rowsOf (h : Faithful rows) (namespaceHex address : Text) : Faithful (rowsOf rows namespaceHex address) :=
  fun r hr => h r (List.mem_filter.mp hr).1

lemma Faithful.step (h : Faithful rows) (hs : step rows call = .ok rows') : Faithful rows' := by
  obtain ⟨-, -, rfl⟩ := step_eq_ok.mp hs
  intro r hr
  rcases List.mem_append.mp hr with hr | hr
  · exact h r hr
  · obtain rfl := List.mem_singleton.mp hr
    rfl

lemma sorted_of_log (h : Faithful rows)
    (hlog : logOf rows = rows.map fun r => ⟨r.profile.version, r.hash, r.createdAt⟩) :
    rows.Pairwise fun r r' => r.version ≤ r'.version := by
  have hversions : (rows.insertionSort fun r r' => r.version ≤ r'.version).map (·.version) = rows.map (·.version) := by
    have hsorted : ((rows.insertionSort fun r r' => r.version ≤ r'.version).map (·.version)) =
        (logOf rows).map fun e => e.version.toInt := by
      rw [logOf, List.map_map]
      apply List.map_congr_left
      intro r hr
      have hr' : r ∈ rows := (List.mem_insertionSort _).mp hr
      rw [Function.comp_apply, entryOf, h r hr', BitVec.ofInt_toInt]
    rw [hsorted, hlog, List.map_map]
    exact List.map_congr_left fun r hr => (h r hr).symm
  have hpairwise := List.pairwise_insertionSort (fun r r' : Row => r.version ≤ r'.version) rows
  rw [← List.pairwise_map (f := fun r : Row => r.version) (R := fun a b : Int => a ≤ b)] at hpairwise ⊢
  rwa [hversions] at hpairwise

lemma log_of_sorted (h : Faithful rows) (hsorted : rows.Pairwise fun r r' => r.version ≤ r'.version) :
    logOf rows = rows.map fun r => ⟨r.profile.version, r.hash, r.createdAt⟩ := by
  rw [logOf, hsorted.insertionSort_eq]
  apply List.map_congr_left
  intro r hr
  rw [entryOf, h r hr, BitVec.ofInt_toInt]

lemma toInt_lt {v w : BitVec 64} (h : v.toNat < w.toNat) (hsame : w.toNat < 2 ^ 63 ∨ 2 ^ 63 ≤ v.toNat) :
    v.toInt < w.toInt := by
  have := w.isLt
  rw [BitVec.toInt_eq_toNat_cond, BitVec.toInt_eq_toNat_cond]
  split_ifs <;> omega

lemma toInt_crossed {v w : BitVec 64} (hv : v.toNat < 2 ^ 63) (hw : 2 ^ 63 ≤ w.toNat) : w.toInt < 0 ∧ 0 ≤ v.toInt := by
  have := w.isLt
  rw [BitVec.toInt_eq_toNat_cond, BitVec.toInt_eq_toNat_cond]
  split_ifs <;> omega

lemma chained_concat {r : Row} (h : Chained rows) :
    Chained (rows ++ [r]) ↔ (rows = [] → r.prev = zeroHash) ∧
      ∀ b ∈ rows.getLast?, r.prev = b.hash ∧ b.profile.version.toNat < r.profile.version.toNat := by
  cases rows using List.reverseRecOn with
  | nil =>
    constructor
    · intro hone
      exact ⟨fun _ => hone.first r rfl, fun b hb => by cases hb⟩
    · rintro ⟨hprev, -⟩
      refine ⟨fun b hb => ?_, List.isChain_singleton r, List.pairwise_singleton _ r⟩
      obtain rfl := Option.some.inj hb
      exact hprev rfl
  | append_singleton init b =>
    have hlast : (init ++ [b]).getLast? = some b := List.getLast?_concat
    rw [hlast]
    constructor
    · intro hlonger
      refine ⟨fun hnil => absurd hnil (List.append_ne_nil_of_right_ne_nil _ (List.cons_ne_nil _ _)), fun b' hb' => ?_⟩
      obtain rfl := Option.some.inj hb'
      exact ⟨(List.isChain_append.mp hlonger.linked).2.2 b hlast r rfl,
        (List.pairwise_append.mp hlonger.increasing).2.2 b (List.mem_append_right _ List.mem_cons_self) r
          List.mem_cons_self⟩
    · rintro ⟨-, hb⟩
      obtain ⟨hprev, hversion⟩ := hb b rfl
      refine ⟨fun r' hr' => h.first r' ?_, ?_, ?_⟩
      · rwa [List.head?_append_of_ne_nil _ (List.append_ne_nil_of_right_ne_nil _ (List.cons_ne_nil _ _))] at hr'
      · refine h.linked.append (List.isChain_singleton r) fun x hx y hy => ?_
        obtain rfl := Option.some.inj (hlast.symm.trans hx)
        obtain rfl := Option.some.inj hy
        exact hprev
      · refine List.pairwise_append.mpr ⟨h.increasing, List.pairwise_singleton _ r, fun x hx y hy => ?_⟩
        obtain rfl := List.mem_singleton.mp hy
        rcases List.mem_append.mp hx with hx | hx
        · exact ((List.pairwise_append.mp h.increasing).2.2 x hx b List.mem_cons_self).trans hversion
        · obtain rfl := List.mem_singleton.mp hx
          exact hversion

/-- What `latest` answers of an address, by its highest row and its log. -/
def answer (rows : List Row) : Option Stored :=
  (highest rows).map fun r => ⟨r.profile, r.hash, r.method, r.block, logOf rows⟩

lemma answer_concat_nil (r : Row) (h : Faithful [r]) : answer [r] = lastAppended [r] := by
  have hlog := log_of_sorted h (List.pairwise_singleton _ r)
  rw [answer, hlog]
  rfl

lemma answer_concat {b r : Row} (hf : Faithful (rows ++ [b] ++ [r]))
    (hanswer : answer (rows ++ [b]) = lastAppended (rows ++ [b]))
    (hversion : b.profile.version.toNat < r.profile.version.toNat) :
    answer (rows ++ [b] ++ [r]) = lastAppended (rows ++ [b] ++ [r]) ↔
      ¬(b.profile.version.toNat < 2 ^ 63 ∧ 2 ^ 63 ≤ r.profile.version.toNat) := by
  have hold : Faithful (rows ++ [b]) := fun x hx => hf x (List.mem_append_left _ hx)
  have hr : r.version = r.profile.version.toInt := hf r (List.mem_append_right _ List.mem_cons_self)
  have hlast : lastAppended (rows ++ [b]) = some ⟨b.profile, b.hash, b.method, b.block,
      (rows ++ [b]).map fun r => ⟨r.profile.version, r.hash, r.createdAt⟩⟩ := by
    rw [lastAppended, List.getLast?_concat]
    rfl
  rw [hlast] at hanswer
  obtain ⟨best, hbest, hstored⟩ := Option.map_eq_some_iff.mp hanswer
  obtain ⟨hprofile, hhash, hmethod, hblock, hlog⟩ := Stored.mk.inj hstored
  have hbestVersion : best.version = b.profile.version.toInt := by
    rw [hold best (highest_mem hbest), hprofile]
  have hhighest : highest (rows ++ [b] ++ [r]) = if best.version < r.version then some r else some best := by
    rw [highest_concat, hbest, later]
  constructor
  · rintro hsame ⟨hlow, hhigh⟩
    obtain ⟨hneg, hnonneg⟩ := toInt_crossed hlow hhigh
    rw [answer, hhighest, if_neg (by omega), lastAppended, List.getLast?_concat, Option.map_some, Option.map_some,
      Option.some.injEq] at hsame
    have hsameProfile := (Stored.mk.inj hsame).1
    rw [hprofile] at hsameProfile
    rw [hsameProfile] at hversion
    exact lt_irrefl _ hversion
  · intro hsame
    have hlt : best.version < r.version := by
      rw [hbestVersion, hr]
      exact toInt_lt hversion (by omega)
    have hsorted : (rows ++ [b] ++ [r]).Pairwise fun r r' => r.version ≤ r'.version := by
      refine List.pairwise_append.mpr ⟨sorted_of_log hold hlog, List.pairwise_singleton _ r, fun x hx y hy => ?_⟩
      obtain rfl := List.mem_singleton.mp hy
      exact (le_highest hbest x hx).trans hlt.le
    rw [answer, hhighest, if_pos hlt, log_of_sorted hf hsorted, lastAppended, List.getLast?_concat]

/-! ### Whole runs -/

lemma advance_lawful (hf : Faithful rows) (h : Lawful rows) :
    Lawful (advance step rows call) ↔ ¬Crosses rows call := by
  obtain ⟨hchain, hlatest⟩ := h call.namespaceHex call.profile.wallet
  have hown := faithful_rowsOf hf call.namespaceHex call.profile.wallet
  have hcrosses : Crosses rows call ↔ ∃ c ∈ lastAppended (rowsOf rows call.namespaceHex call.profile.wallet),
      c.profile.version.toNat < 2 ^ 63 ∧ 2 ^ 63 ≤ call.profile.version.toNat ∧
        trimHexPrefix call.profile.prev = c.hash := by
    rw [Crosses, hlatest]
  rw [hcrosses]
  generalize hold : rowsOf rows call.namespaceHex call.profile.wallet = old at hchain hlatest hown
  cases hstep : step rows call with
  | error e =>
    rw [advance_of_error step hstep]
    refine iff_of_true h ?_
    rintro ⟨c, hc, hlow, hhigh, hprev⟩
    obtain ⟨b, hb, rfl⟩ := Option.map_eq_some_iff.mp hc
    have haccept : step rows call = .ok (rows ++ [rowFor call]) := by
      refine step_eq_ok.mpr ⟨?_, ?_, rfl⟩
      · rw [hlatest, lastAppended, hb, Option.map_some, checkPublished]
        simp only [bind_eq_ok, require_eq_ok]
        exact ⟨(), lt_of_lt_of_le hlow hhigh, hprev⟩
      · rw [hold]
        intro r hr heq
        have hle : r.profile.version.toNat ≤ b.profile.version.toNat := by
          obtain ⟨init, rfl⟩ := List.getLast?_eq_some_iff.mp hb
          rcases List.mem_append.mp hr with hr | hr
          · exact ((List.pairwise_append.mp hchain.increasing).2.2 r hr b List.mem_cons_self).le
          · obtain rfl := List.mem_singleton.mp hr
            exact le_refl _
        have := toInt_crossed (lt_of_le_of_lt hle hlow) hhigh
        rw [hown r hr] at heq
        omega
    rw [haccept] at hstep
    cases hstep
  | ok rows' =>
    rw [advance_of_ok step hstep]
    obtain ⟨hcheck, -, rfl⟩ := step_eq_ok.mp hstep
    have hnext : Faithful (rows ++ [rowFor call]) := hf.step hstep
    have hself := faithful_rowsOf hnext call.namespaceHex call.profile.wallet
    rw [rowsOf_append_self, hold] at hself
    have hlawful : Lawful (rows ++ [rowFor call]) ↔
        Chained (old ++ [rowFor call]) ∧ answer (old ++ [rowFor call]) = lastAppended (old ++ [rowFor call]) := by
      constructor
      · intro hall
        have hcall := hall call.namespaceHex call.profile.wallet
        rwa [latest, rowsOf_append_self, hold] at hcall
      · intro hcall ns addr
        by_cases hkey : call.namespaceHex = ns ∧ call.profile.wallet = addr
        · obtain ⟨rfl, rfl⟩ := hkey
          rwa [latest, rowsOf_append_self, hold]
        · rw [latest, rowsOf_append_other rows call hkey]
          exact h ns addr
    have hanswer : answer old = lastAppended old := by
      rw [← hlatest, latest, hold, answer]
    rw [hlawful, chained_concat hchain]
    rw [hlatest] at hcheck
    cases old using List.reverseRecOn with
    | nil =>
      have hzero : trimHexPrefix call.profile.prev = zeroHash := require_eq_ok.mp hcheck
      refine iff_of_true ⟨⟨fun _ => hzero, fun b hb => by cases hb⟩, answer_concat_nil _ hself⟩ ?_
      rintro ⟨c, hc, -⟩
      cases hc
    | append_singleton init b =>
      have hlast : lastAppended (init ++ [b]) = some ⟨b.profile, b.hash, b.method, b.block,
          (init ++ [b]).map fun r => ⟨r.profile.version, r.hash, r.createdAt⟩⟩ := by
        rw [lastAppended, List.getLast?_concat]
        rfl
      rw [hlast, checkPublished] at hcheck
      simp only [bind_eq_ok, require_eq_ok] at hcheck
      obtain ⟨-, hversion, hprev⟩ := hcheck
      have hnonempty : init ++ [b] ≠ [] := List.append_ne_nil_of_right_ne_nil _ (List.cons_ne_nil _ _)
      have hlink : (init ++ [b] = [] → (rowFor call).prev = zeroHash) ∧
          ∀ b' ∈ (init ++ [b]).getLast?, (rowFor call).prev = b'.hash ∧
            b'.profile.version.toNat < (rowFor call).profile.version.toNat := by
        refine ⟨fun hnil => absurd hnil hnonempty, fun b' hb' => ?_⟩
        obtain rfl := Option.some.inj (List.getLast?_concat.symm.trans hb')
        exact ⟨hprev, hversion⟩
      rw [and_iff_right hlink, answer_concat hself hanswer hversion, hlast]
      constructor
      · rintro hcross ⟨c, hc, hlow, hhigh, -⟩
        obtain rfl := Option.some.inj hc
        exact hcross ⟨hlow, hhigh⟩
      · rintro hcross ⟨hlow, hhigh⟩
        exact hcross ⟨_, rfl, hlow, hhigh, hprev⟩

/-- A row's hash is its profile's digest. -/
def OwnHash (keccak : Bytes → Bytes) (profile : Profile) (hash : Text) : Prop :=
  ∃ d, profile.digest keccak = .ok d ∧ hash = hexEncode d

/-- In every run of appends, the log stays a chain whose last row is the published one exactly as long as no append
crosses; and it is a chain of digests where the calls bring digests. -/
theorem directory_log_iff (keccak : Bytes → Bytes) (calls : List Call) :
    (Throughout step Lawful [] calls ↔ Along step (fun rows call => ¬Crosses rows call) [] calls) ∧
      ((∀ call ∈ calls, OwnHash keccak call.profile call.hash) →
        ∀ r ∈ exec step [] calls, OwnHash keccak r.profile r.hash) := by
  constructor
  · refine throughout_iff_along step (I := Faithful) (fun _ _ _ hf hs => hf.step hs)
      (fun _ _ hf hl => advance_lawful hf hl) (fun r hr => absurd hr List.not_mem_nil) ?_ calls
    intro ns addr
    exact ⟨⟨fun r hr => (by cases hr), List.isChain_nil, List.Pairwise.nil⟩, rfl⟩
  · intro hcalls
    induction calls using List.reverseRecOn with
    | nil => exact fun r hr => absurd hr List.not_mem_nil
    | append_singleton calls call ih =>
      rw [exec_concat]
      have hold := ih fun c hc => hcalls c (List.mem_append_left _ hc)
      refine advance_induct step (P := fun rows => ∀ r ∈ rows, OwnHash keccak r.profile r.hash) hold
        fun rows' hs => ?_
      obtain ⟨-, -, rfl⟩ := step_eq_ok.mp hs
      intro r hr
      rcases List.mem_append.mp hr with hr | hr
      · exact hold r hr
      · obtain rfl := List.mem_singleton.mp hr
        exact hcalls call (List.mem_append_right _ List.mem_cons_self)

def sampleProfile (version : Nat) (prev : Text) : Profile where
  version := BitVec.ofNat 64 version
  wallet := "0xaa".toList
  chainId := 1
  namespaceHex := []
  account := []
  encKey := []
  profileKey := []
  displayName := ['a']
  recovery := "recovery-code".toList
  nonce := []
  issuedAt := 0
  expiry := 1
  prev := prev
  revoked := false
  signature := []

def sampleCall (version : Nat) (prev hash : Text) : Call := ⟨['5'], sampleProfile version prev, hash, ⟨"eoa".toList, none⟩, 0⟩

/-- After the version that does not fit the column, the one before it is still the published one, and the log forks. -/
def forkingCalls : List Call :=
  [sampleCall 1 zeroHash ['a'], sampleCall (2 ^ 63) ['a'] ['b'], sampleCall 2 ['a'] ['c']]

lemma forking_rows : (rowsOf (exec step [] forkingCalls) ['5'] "0xaa".toList).map
    (fun r => (r.profile.version.toNat, r.prev, r.hash)) =
      [(1, zeroHash, ['a']), (2 ^ 63, ['a'], ['b']), (2, ['a'], ['c'])] := by
  decide +kernel

theorem log_forks : ¬Throughout step Lawful [] forkingCalls := by
  intro h
  have hchain := ((h 3) ['5'] "0xaa".toList).1.increasing
  have hversions := hchain.map (S := fun a b : Nat × Text × Text => a.1 < b.1)
    (fun r : Row => (r.profile.version.toNat, r.prev, r.hash)) fun _ _ hlt => hlt
  rw [show (forkingCalls.take 3) = forkingCalls from rfl, forking_rows] at hversions
  revert hversions
  decide

end Peal.Links.Directory
