import Peal.Library.Keccak
import Peal.Library.Methods
import Peal.Library.Runs
import Peal.Links.HexText
import Peal.Links.SignedPayloads
import Peal.Links.SignInMessages
import Peal.Links.Watcher

namespace Peal.Links.Auth
open Peal.Fallible Peal.Runs Peal.Methods
open Peal.Actions (utf8)
open Peal.Coordinator (trim)

/-! # Sessions: a nonce is issued, a wallet signs a message with it, a token is handed out -/

structure NonceRow where
  nonce : Text
  expiresAt : Nat
  used : Bool
  deriving DecidableEq, Repr

structure SessionRow where
  token : Text
  address : Text
  chainId : Nat
  createdAt : Nat
  expiresAt : Nat
  deriving DecidableEq, Repr

/-- The two tables, each without two rows of one key. -/
structure Sessions where
  nonces : List NonceRow
  sessions : List SessionRow
  deriving DecidableEq, Repr

structure Session where
  address : Text
  chainId : Nat
  deriving DecidableEq, Repr

/-- A request for a nonce: the random bytes it draws, the clock each time it is read, and whether the statements
reach the store. -/
structure NonceIn where
  drawn : Bytes
  issuing : Nat
  sweeping : Nat
  insert : Except Text Unit
  sweep : Except Text Unit

structure SessionIn where
  message : Text
  signature : Text
  drawn : Bytes
  now : Nat
  consuming : Nat
  creating : Nat
  consume : Except Text Unit
  create : Except Text Unit

structure AuthConfig where
  authDomains : List Text
  sessionTtlSecs : Nat

/-- The hash, and what a signature of it recovers to: the last twenty bytes of the hash of a key. -/
structure Wallets where
  keccak256 : Bytes → Bytes
  recoverKey : Bytes → Bytes → Nat → Except String Bytes

def NONCE_TTL : Nat := 600

section Handlers

variable (k : Wallets) (cfg : AuthConfig)

def badRequest (code : String) (detail : Text) : Problem := ⟨code, detail⟩

def unauthorized (detail : Text) : Problem := ⟨"unauthorized", detail⟩

def personalDigest (message : Text) : Bytes :=
  k.keccak256 (25 :: utf8 "Ethereum Signed Message:\n".toList ++ utf8 (Nat.toDigits 10 (utf8 message).length) ++
    utf8 message)

def recoveryId : Nat → Option Nat
  | 0 => some 0
  | 27 => some 0
  | 1 => some 1
  | 28 => some 1
  | _ => none

def recover (digest : Bytes) (sigHex : Text) : Except String Text := do
  let raw ← expect (hexDecode (trimHexPrefix sigHex)) "signature is not hex"
  require (raw.length = 65) "signature must be 65 bytes"
  let v ← expect (raw[64]?.bind recoveryId) "bad recovery id"
  let address ← k.recoverKey digest (raw.take 64) v
  return '0' :: 'x' :: hexEncode address

def issueNonce (r : NonceIn) (ttl : Nat) : Method Problem Sessions (Text × Nat) := do
  let nonce := hexEncode r.drawn
  let expires := r.issuing + ttl
  lift (r.insert.mapError .internal)
  let s : Sessions ← get
  lift (require (nonce ∉ s.nonces.map NonceRow.nonce) (.internal "nonce is taken".toList))
  set { s with nonces := s.nonces ++ [NonceRow.mk nonce expires false] }
  lift (r.sweep.mapError .internal)
  modify fun s => { s with nonces := s.nonces.filter fun row => r.sweeping ≤ row.expiresAt }
  return (nonce, expires)

/-- The statement's condition. -/
def consumable (nonce : Text) (now : Nat) (row : NonceRow) : Bool :=
  row.nonce = nonce ∧ row.used = false ∧ now < row.expiresAt

def markUsed (nonce : Text) (now : Nat) (rows : List NonceRow) : List NonceRow :=
  rows.map fun row => if consumable nonce now row then { row with used := true } else row

def consumeNonce (r : SessionIn) (nonce : Text) : Method Problem Sessions Bool := do
  lift (r.consume.mapError .internal)
  let s : Sessions ← get
  set { s with nonces := markUsed nonce r.consuming s.nonces }
  return s.nonces.countP (consumable nonce r.consuming) == 1

def createSession (r : SessionIn) (address : Text) (chainId ttl : Nat) : Method Problem Sessions (Text × Nat) := do
  let token := hexEncode r.drawn
  let expires := r.creating + ttl
  lift (r.create.mapError .internal)
  let s : Sessions ← get
  lift (require (token ∉ s.sessions.map SessionRow.token) (.internal "token is taken".toList))
  set { s with sessions := s.sessions ++ [SessionRow.mk token address chainId r.creating expires] }
  return (token, expires)

def authNonce (r : NonceIn) : Method Problem Sessions (Text × Nat) := issueNonce r NONCE_TTL

def checkExpiry (now : Nat) : Option Text → Except Problem Unit
  | none => .ok ()
  | some exp => do
    let exp ← expect (parseRfc3339 exp) (badRequest "bad_siwe" "expiration time".toList)
    require (now < exp) (unauthorized "sign-in message has expired".toList)

/-- What is checked of a message before its nonce is used. -/
def checkSignIn (r : SessionIn) : Except Problem (Siwe × Text) := do
  require ((utf8 r.message).length ≤ 4096) (badRequest "malformed" "message too long".toList)
  let siwe ← (parse r.message).mapError fun e => badRequest "bad_siwe" ("sign-in message: ".toList ++ e.toList)
  require (siwe.domain ∈ cfg.authDomains) (unauthorized "sign-in message is for another domain".toList)
  let issued ← expect (parseRfc3339 siwe.issuedAt) (badRequest "bad_siwe" "issued at".toList)
  require (issued ≤ r.now + 120 ∧ r.now ≤ issued + NONCE_TTL) (unauthorized "sign-in message is not fresh".toList)
  checkExpiry r.now siwe.expirationTime
  let recovered ← (recover k (personalDigest k r.message) r.signature).mapError fun e =>
    unauthorized ("signature: ".toList ++ e.toList)
  require (recovered = toLowercase siwe.address)
    (unauthorized "signature does not recover to the address (contract wallets are not supported)".toList)
  return (siwe, recovered)

def authSession (r : SessionIn) : Method Problem Sessions (Text × Text × Nat) := do
  let checked ← lift (checkSignIn k cfg r)
  let consumed ← consumeNonce r checked.1.nonce
  lift (require (consumed = true) (unauthorized "nonce is unknown, expired or already used".toList))
  let opened ← createSession r checked.2 checked.1.chainId cfg.sessionTtlSecs
  return (opened.1, checked.2, opened.2)

end Handlers

def session (s : Sessions) (token : Text) (now : Nat) : Option Session :=
  (s.sessions.find? fun row => row.token = token ∧ now < row.expiresAt).map fun row => ⟨row.address, row.chainId⟩

def bearer (header : Option Text) : Option Text :=
  header.bind fun h => if "Bearer ".toList <+: h then some (trim (h.drop 7)) else none

def requireSession (s : Sessions) (header : Option Text) (now : Nat) : Except Problem Session := do
  let token ← expect (bearer header) (unauthorized "sign in first".toList)
  require (Ledger.textLen token = 64 ∧ token.all isHexDigit = true) (unauthorized "bad session token".toList)
  expect (session s token now) (unauthorized "session expired; sign in again".toList)

/-! ## Runs -/

inductive AuthRequest where
  | nonce (r : NonceIn)
  | session (r : SessionIn)

/-- A request leaves behind what it wrote before it failed. -/
def authStep (k : Wallets) (cfg : AuthConfig) (s : Sessions) : AuthRequest → Except Problem Sessions
  | .nonce r => .ok (outcome (authNonce r) s).2
  | .session r => .ok (outcome (authSession k cfg r) s).2

/-- The nonce a request draws. -/
def AuthRequest.drawn? : AuthRequest → Option Text
  | .nonce r => some (hexEncode r.drawn)
  | .session _ => none

/-- The request was answered with the row's session, for a message whose signer's address it is. -/
structure SignsIn (k : Wallets) (cfg : AuthConfig) (s : Sessions) (r : SessionIn) (siwe : Siwe) (row : SessionRow) :
    Prop where
  read : parse r.message = .ok siwe
  domain : siwe.domain ∈ cfg.authDomains
  fresh : ∃ issued, parseRfc3339 siwe.issuedAt = some issued ∧ issued ≤ r.now + 120 ∧ r.now ≤ issued + NONCE_TTL
  unexpired : ∀ text ∈ siwe.expirationTime, ∃ exp, parseRfc3339 text = some exp ∧ r.now < exp
  signed : recover k (personalDigest k r.message) r.signature = .ok row.address
  address : row.address = toLowercase siwe.address
  nonce : ∃ n ∈ s.nonces, n.nonce = siwe.nonce ∧ n.used = false ∧ r.consuming < n.expiresAt
  row_eq : row = ⟨hexEncode r.drawn, row.address, siwe.chainId, r.creating, r.creating + cfg.sessionTtlSecs⟩
  answered : outcome (authSession k cfg r) s = (.ok (row.token, row.address, row.expiresAt),
    ⟨markUsed siwe.nonce r.consuming s.nonces, s.sessions ++ [row]⟩)

section Effects

variable {k : Wallets} {cfg : AuthConfig} {s : Sessions} {r : SessionIn}

lemma checkSignIn_ok {siwe : Siwe} {recovered : Text} (h : checkSignIn k cfg r = .ok (siwe, recovered)) :
    parse r.message = .ok siwe ∧ siwe.domain ∈ cfg.authDomains ∧
      (∃ issued, parseRfc3339 siwe.issuedAt = some issued ∧ issued ≤ r.now + 120 ∧ r.now ≤ issued + NONCE_TTL) ∧
      (∀ text ∈ siwe.expirationTime, ∃ exp, parseRfc3339 text = some exp ∧ r.now < exp) ∧
      recover k (personalDigest k r.message) r.signature = .ok recovered ∧ recovered = toLowercase siwe.address := by
  unfold checkSignIn at h
  simp only [bind_eq_ok, require_eq_ok, expect_eq_ok, mapError_eq_ok, pure_eq_ok, Prod.mk.injEq] at h
  obtain ⟨_, -, siwe', hparse, _, hdomain, issued, hissued, _, hfresh, _, hexp, recovered', hrecover, _, haddress, rfl,
    rfl⟩ := h
  refine ⟨hparse, hdomain, ⟨issued, hissued, hfresh⟩, fun text htext => ?_, hrecover, haddress⟩
  rw [htext] at hexp
  unfold checkExpiry at hexp
  simp only [bind_eq_ok, require_eq_ok, expect_eq_ok] at hexp
  exact hexp

lemma consumed_one {nonce : Text} {now : Nat} {rows : List NonceRow} (h : rows.countP (consumable nonce now) = 1) :
    ∃ n ∈ rows, n.nonce = nonce ∧ n.used = false ∧ now < n.expiresAt := by
  obtain ⟨n, hn, hconsumable⟩ := List.countP_pos_iff.mp (by rw [h]; exact Nat.one_pos)
  exact ⟨n, hn, of_decide_eq_true hconsumable⟩

variable (k cfg s r) in
lemma authSession_effect :
    (∃ siwe row, SignsIn k cfg s r siwe row) ∨
      ∃ nonces, (outcome (authSession k cfg r) s).2 = { s with nonces := nonces } ∧
        (nonces = s.nonces ∨ ∃ nonce, nonces = markUsed nonce r.consuming s.nonces) := by
  have hrun : Meets (authSession k cfg r) s (fun out s' => ∃ siwe row, out = (row.token, row.address, row.expiresAt) ∧
      s' = ⟨markUsed siwe.nonce r.consuming s.nonces, s.sessions ++ [row]⟩ ∧
      checkSignIn k cfg r = .ok (siwe, row.address) ∧ s.nonces.countP (consumable siwe.nonce r.consuming) = 1 ∧
      row = ⟨hexEncode r.drawn, row.address, siwe.chainId, r.creating, r.creating + cfg.sessionTtlSecs⟩)
      (fun _ s' => ∃ nonces, s' = { s with nonces := nonces } ∧
        (nonces = s.nonces ∨ ∃ nonce, nonces = markUsed nonce r.consuming s.nonces)) := by
    unfold authSession consumeNonce createSession
    simp only [meets_bind, meets_lift, meets_get, meets_set, meets_pure, mapError_eq_ok, require_eq_ok]
    refine ⟨fun checked hcheck => ⟨fun _ _ => ⟨fun _ hone => ⟨fun _ _ => ⟨fun _ _ => ?_, fun _ _ => ?_⟩, fun _ _ => ?_⟩,
      fun _ _ => ?_⟩, fun _ _ => ?_⟩, fun _ _ => ?_⟩
    · exact ⟨checked.1,
        ⟨hexEncode r.drawn, checked.2, checked.1.chainId, r.creating, r.creating + cfg.sessionTtlSecs⟩, rfl, rfl,
        hcheck, beq_iff_eq.mp hone, rfl⟩
    · exact ⟨_, rfl, .inr ⟨_, rfl⟩⟩
    · exact ⟨_, rfl, .inr ⟨_, rfl⟩⟩
    · exact ⟨_, rfl, .inr ⟨_, rfl⟩⟩
    · exact ⟨_, rfl, .inl rfl⟩
    · exact ⟨_, rfl, .inl rfl⟩
  obtain ⟨hok, herror⟩ := meets_iff_outcome.mp hrun
  cases hout : outcome (authSession k cfg r) s with
  | mk result s' =>
    cases result with
    | error e => exact .inr (herror e s' hout)
    | ok out =>
      obtain ⟨siwe, row, rfl, rfl, hcheck, hone, hrow⟩ := hok out s' hout
      obtain ⟨hread, hdomain, hfresh, hunexpired, hsigned, haddress⟩ := checkSignIn_ok hcheck
      exact .inl ⟨siwe, row, hread, hdomain, hfresh, hunexpired, hsigned, haddress, consumed_one hone, hrow, hout⟩

lemma authNonce_effect {r : NonceIn} : ∃ nonces, (outcome (authNonce r) s).2 = { s with nonces := nonces } ∧
    (nonces = s.nonces ∨ hexEncode r.drawn ∉ s.nonces.map NonceRow.nonce ∧
      nonces.Sublist (s.nonces ++ [⟨hexEncode r.drawn, r.issuing + NONCE_TTL, false⟩])) := by
  have hrun : Meets (authNonce r) s (fun _ s' => ∃ nonces, s' = { s with nonces := nonces } ∧
      (nonces = s.nonces ∨ hexEncode r.drawn ∉ s.nonces.map NonceRow.nonce ∧
        nonces.Sublist (s.nonces ++ [⟨hexEncode r.drawn, r.issuing + NONCE_TTL, false⟩])))
      (fun _ s' => ∃ nonces, s' = { s with nonces := nonces } ∧
      (nonces = s.nonces ∨ hexEncode r.drawn ∉ s.nonces.map NonceRow.nonce ∧
        nonces.Sublist (s.nonces ++ [⟨hexEncode r.drawn, r.issuing + NONCE_TTL, false⟩]))) := by
    unfold authNonce issueNonce
    simp only [meets_bind, meets_lift, meets_get, meets_set, meets_modify, meets_pure, mapError_eq_ok, require_eq_ok]
    refine ⟨fun _ _ => ⟨fun _ hnew => ⟨fun _ _ => ?_, fun _ _ => ?_⟩, fun _ _ => ?_⟩, fun _ _ => ?_⟩
    · exact ⟨_, rfl, .inr ⟨hnew, List.filter_sublist⟩⟩
    · exact ⟨_, rfl, .inr ⟨hnew, List.Sublist.refl _⟩⟩
    · exact ⟨_, rfl, .inl rfl⟩
    · exact ⟨_, rfl, .inl rfl⟩
  obtain ⟨hok, herror⟩ := meets_iff_outcome.mp hrun
  cases hout : outcome (authNonce r) s with
  | mk result s' =>
    cases result with
    | error e => exact herror e s' hout
    | ok out => exact hok out s' hout

lemma markUsed_names (nonce : Text) (now : Nat) (rows : List NonceRow) :
    (markUsed nonce now rows).map NonceRow.nonce = rows.map NonceRow.nonce := by
  unfold markUsed
  rw [List.map_map]
  refine List.map_congr_left fun row _ => ?_
  simp only [Function.comp_apply]
  split_ifs <;> rfl

lemma mem_markUsed {nonce : Text} {now : Nat} {rows : List NonceRow} {row : NonceRow}
    (h : row ∈ markUsed nonce now rows) :
    ∃ old ∈ rows, row.nonce = old.nonce ∧ row.expiresAt = old.expiresAt ∧ (old.used = true → row.used = true) ∧
      (consumable nonce now old = true → row.used = true) := by
  obtain ⟨old, hold, rfl⟩ := List.mem_map.mp h
  refine ⟨old, hold, ?_⟩
  split_ifs with hconsumable
  · exact ⟨rfl, rfl, fun _ => rfl, fun _ => rfl⟩
  · exact ⟨rfl, rfl, id, fun h => absurd h hconsumable⟩

lemma session_row {token : Text} {now : Nat} {opened : Session} (h : session s token now = some opened) :
    ∃ row ∈ s.sessions, row.token = token ∧ now < row.expiresAt ∧ opened = ⟨row.address, row.chainId⟩ := by
  obtain ⟨row, hfind, hrow⟩ := Option.map_eq_some_iff.mp h
  have hfound := List.find?_some hfind
  simp only [decide_eq_true_eq] at hfound
  exact ⟨row, List.mem_of_find?_eq_some hfind, hfound.1, hfound.2, hrow.symm⟩

end Effects

section Histories

variable (k : Wallets) (cfg : AuthConfig) (events : List AuthRequest)

/-- The tables after the first `n` requests. -/
def tables (n : Nat) : Sessions := exec (authStep k cfg) ⟨[], []⟩ (events.take n)

variable {k cfg events}

lemma tables_nonce {n : Nat} {r : NonceIn} (h : events[n]? = some (.nonce r)) :
    tables k cfg events (n + 1) = (outcome (authNonce r) (tables k cfg events n)).2 := by
  unfold tables
  rw [exec_take_succ _ h]
  exact advance_of_ok _ rfl

lemma tables_session {n : Nat} {r : SessionIn} (h : events[n]? = some (.session r)) :
    tables k cfg events (n + 1) = (outcome (authSession k cfg r) (tables k cfg events n)).2 := by
  unfold tables
  rw [exec_take_succ _ h]
  exact advance_of_ok _ rfl

lemma tables_end {n : Nat} (h : events[n]? = none) : tables k cfg events (n + 1) = tables k cfg events n :=
  exec_take_end _ h

lemma tables_signed {n : Nat} {r : SessionIn} {siwe : Siwe} {row : SessionRow} (h : events[n]? = some (.session r))
    (hsigns : SignsIn k cfg (tables k cfg events n) r siwe row) : tables k cfg events (n + 1) =
      ⟨markUsed siwe.nonce r.consuming (tables k cfg events n).nonces, (tables k cfg events n).sessions ++ [row]⟩ := by
  rw [tables_session h, hsigns.answered]

lemma nonces_distinct (n : Nat) : ((tables k cfg events n).nonces.map NonceRow.nonce).Nodup := by
  induction n with
  | zero => exact List.nodup_nil
  | succ n ih =>
    cases hn : events[n]? with
    | none => rwa [tables_end hn]
    | some event =>
      cases event with
      | nonce r =>
        obtain ⟨nonces, hafter, rfl | ⟨hnew, hsub⟩⟩ := authNonce_effect (s := tables k cfg events n) (r := r)
        · rwa [tables_nonce hn, hafter]
        · rw [tables_nonce hn, hafter]
          refine List.Nodup.sublist (hsub.map NonceRow.nonce) ?_
          rw [List.map_append]
          exact ih.append (List.nodup_singleton _) (List.disjoint_singleton.mpr hnew)
      | session r =>
        obtain ⟨siwe, row, hsigns⟩ | ⟨nonces, hafter, rfl | ⟨nonce, rfl⟩⟩ :=
          authSession_effect k cfg (tables k cfg events n) r
        · rwa [tables_signed hn hsigns, markUsed_names]
        · rwa [tables_session hn, hafter]
        · rwa [tables_session hn, hafter, markUsed_names]

lemma nonce_drawn {n : Nat} : ∀ row ∈ (tables k cfg events n).nonces, ∃ j i, j < n ∧ events[j]? = some (.nonce i) ∧
    row.nonce = hexEncode i.drawn ∧ row.expiresAt = i.issuing + NONCE_TTL := by
  induction n with
  | zero =>
    intro row hrow
    cases hrow
  | succ n ih =>
    have hkept : ∀ row ∈ (tables k cfg events n).nonces, ∃ j i, j < n + 1 ∧ events[j]? = some (.nonce i) ∧
        row.nonce = hexEncode i.drawn ∧ row.expiresAt = i.issuing + NONCE_TTL := by
      intro row hrow
      obtain ⟨j, i, hj, hdrawn⟩ := ih row hrow
      exact ⟨j, i, hj.trans n.lt_succ_self, hdrawn⟩
    have hmarked : ∀ nonce now, ∀ row ∈ markUsed nonce now (tables k cfg events n).nonces, ∃ j i, j < n + 1 ∧
        events[j]? = some (.nonce i) ∧ row.nonce = hexEncode i.drawn ∧ row.expiresAt = i.issuing + NONCE_TTL := by
      intro nonce now row hrow
      obtain ⟨old, hold, hname, hexpires, -⟩ := mem_markUsed hrow
      rw [hname, hexpires]
      exact hkept old hold
    cases hn : events[n]? with
    | none => rwa [tables_end hn]
    | some event =>
      cases event with
      | nonce r =>
        obtain ⟨nonces, hafter, rfl | ⟨-, hsub⟩⟩ := authNonce_effect (s := tables k cfg events n) (r := r)
        · rwa [tables_nonce hn, hafter]
        · rw [tables_nonce hn, hafter]
          intro row hrow
          obtain hold | hnew := List.mem_append.mp (hsub.subset hrow)
          · exact hkept row hold
          · rw [List.mem_singleton.mp hnew]
            exact ⟨n, r, n.lt_succ_self, hn, rfl, rfl⟩
      | session r =>
        obtain ⟨siwe, row, hsigns⟩ | ⟨nonces, hafter, rfl | ⟨nonce, rfl⟩⟩ :=
          authSession_effect k cfg (tables k cfg events n) r
        · rw [tables_signed hn hsigns]
          exact hmarked _ _
        · rwa [tables_session hn, hafter]
        · rw [tables_session hn, hafter]
          exact hmarked _ _

lemma session_opened {n : Nat} : ∀ row ∈ (tables k cfg events n).sessions, ∃ m r siwe, m < n ∧
    events[m]? = some (.session r) ∧ SignsIn k cfg (tables k cfg events m) r siwe row := by
  induction n with
  | zero =>
    intro row hrow
    cases hrow
  | succ n ih =>
    have hkept : ∀ row ∈ (tables k cfg events n).sessions, ∃ m r siwe, m < n + 1 ∧ events[m]? = some (.session r) ∧
        SignsIn k cfg (tables k cfg events m) r siwe row := by
      intro row hrow
      obtain ⟨m, r, siwe, hm, hopened⟩ := ih row hrow
      exact ⟨m, r, siwe, hm.trans n.lt_succ_self, hopened⟩
    cases hn : events[n]? with
    | none => rwa [tables_end hn]
    | some event =>
      cases event with
      | nonce r =>
        obtain ⟨nonces, hafter, -⟩ := authNonce_effect (s := tables k cfg events n) (r := r)
        rwa [tables_nonce hn, hafter]
      | session r =>
        obtain ⟨siwe, row, hsigns⟩ | ⟨nonces, hafter, -⟩ :=
          authSession_effect k cfg (tables k cfg events n) r
        · rw [tables_signed hn hsigns]
          intro row' hrow
          obtain hold | hnew := List.mem_append.mp hrow
          · exact hkept row' hold
          · rw [List.mem_singleton.mp hnew]
            exact ⟨n, r, siwe, n.lt_succ_self, hn, hsigns⟩
        · rwa [tables_session hn, hafter]

lemma drawn_once (hdraws : (events.filterMap AuthRequest.drawn?).Nodup) {i j : Nat} {a b : NonceIn}
    (hi : events[i]? = some (.nonce a)) (hj : events[j]? = some (.nonce b))
    (h : hexEncode a.drawn = hexEncode b.drawn) : i = j := by
  obtain ⟨hilt, hia⟩ := List.getElem?_eq_some_iff.mp hi
  obtain ⟨hjlt, hjb⟩ := List.getElem?_eq_some_iff.mp hj
  have hpairwise := List.pairwise_iff_getElem.mp (List.pairwise_filterMap.mp hdraws)
  have hapart : ∀ {i j : Nat} {a b : NonceIn} (hi : i < events.length) (hj : j < events.length), i < j →
      events[i] = .nonce a → events[j] = .nonce b → hexEncode a.drawn ≠ hexEncode b.drawn := by
    intro i j a b hi hj hlt ha hb
    refine hpairwise i j hi hj hlt _ ?_ _ ?_
    · rw [ha]
      rfl
    · rw [hb]
      rfl
  obtain hlt | heq | hgt := Nat.lt_trichotomy i j
  · exact absurd h (hapart hilt hjlt hlt hia hjb)
  · exact heq
  · exact absurd h.symm (hapart hjlt hilt hgt hjb hia)

lemma nonce_spent (hdraws : (events.filterMap AuthRequest.drawn?).Nodup) {m : Nat} {r : SessionIn} {siwe : Siwe}
    {row : SessionRow} (hm : events[m]? = some (.session r)) (hsigns : SignsIn k cfg (tables k cfg events m) r siwe row)
    {n : Nat} (hmn : m + 1 ≤ n) :
    ∀ spent ∈ (tables k cfg events n).nonces, spent.nonce = siwe.nonce → spent.used = true := by
  obtain ⟨held, hheld, hname, hunused, hlive⟩ := hsigns.nonce
  obtain ⟨j, i, hj, hji, hdrawn, -⟩ := nonce_drawn held hheld
  induction n, hmn using Nat.le_induction with
  | base =>
    rw [tables_signed hm hsigns]
    intro spent hspent hnonce
    obtain ⟨old, hold, hsame, -, -, hmarks⟩ := mem_markUsed hspent
    -- the nonce has one row only, the one that is marked here
    have heq : old = held := List.inj_on_of_nodup_map (nonces_distinct m) hold hheld (by rw [← hsame, hnonce, hname])
    rw [heq] at hmarks
    exact hmarks (decide_eq_true ⟨hname, hunused, hlive⟩)
  | succ n hmn ih =>
    have hmarked : ∀ nonce now, ∀ spent ∈ markUsed nonce now (tables k cfg events n).nonces, spent.nonce = siwe.nonce →
        spent.used = true := by
      intro nonce now spent hspent hnonce
      obtain ⟨old, hold, hsame, -, hused, -⟩ := mem_markUsed hspent
      exact hused (ih old hold (hsame ▸ hnonce))
    cases hn : events[n]? with
    | none => rwa [tables_end hn]
    | some event =>
      cases event with
      | nonce i' =>
        obtain ⟨nonces, hafter, rfl | ⟨-, hsub⟩⟩ := authNonce_effect (s := tables k cfg events n) (r := i')
        · rwa [tables_nonce hn, hafter]
        · rw [tables_nonce hn, hafter]
          intro spent hspent hnonce
          obtain hold | hnew := List.mem_append.mp (hsub.subset hspent)
          · exact ih spent hold hnonce
          · rw [List.mem_singleton.mp hnew] at hnonce
            have hagain : hexEncode i'.drawn = hexEncode i.drawn := hnonce.trans (hname.symm.trans hdrawn)
            have hsame : n = j := drawn_once hdraws hn hji hagain
            omega
      | session r' =>
        obtain ⟨siwe', row', hsigns'⟩ | ⟨nonces, hafter, rfl | ⟨nonce, rfl⟩⟩ :=
          authSession_effect k cfg (tables k cfg events n) r'
        · rw [tables_signed hn hsigns']
          exact hmarked _ _
        · rwa [tables_session hn, hafter]
        · rw [tables_session hn, hafter]
          exact hmarked _ _

lemma signsIn_once (hdraws : (events.filterMap AuthRequest.drawn?).Nodup) {m n : Nat} {r r' : SessionIn}
    {siwe siwe' : Siwe} {row row' : SessionRow} (hm : events[m]? = some (.session r))
    (hsigns : SignsIn k cfg (tables k cfg events m) r siwe row) (hn : events[n]? = some (.session r'))
    (hsigns' : SignsIn k cfg (tables k cfg events n) r' siwe' row') (h : siwe'.nonce = siwe.nonce) : n = m := by
  have hapart : ∀ {m n : Nat} {r r' : SessionIn} {siwe siwe' : Siwe} {row row' : SessionRow},
      events[m]? = some (.session r) → SignsIn k cfg (tables k cfg events m) r siwe row →
      SignsIn k cfg (tables k cfg events n) r' siwe' row' → siwe'.nonce = siwe.nonce → ¬m < n := by
    intro m n r r' siwe siwe' row row' hm hsigns hsigns' h hlt
    obtain ⟨held, hheld, hname, hunused, -⟩ := hsigns'.nonce
    have hused : held.used = true := nonce_spent hdraws hm hsigns hlt held hheld (hname.trans h)
    rw [hunused] at hused
    cases hused
  have hbefore : ¬m < n := hapart hm hsigns hsigns' h
  have hafter : ¬n < m := hapart hn hsigns' hsigns h.symm
  omega

/-- A token that is let in was handed out, for a nonce drawn before and used this once, to the address whose key signed
a message for one of the node's domains. -/
theorem session_authenticates (hdraws : (events.filterMap AuthRequest.drawn?).Nodup) {n now : Nat}
    {header : Option Text} {opened : Session}
    (h : requireSession (tables k cfg events n) header now = .ok opened) :
    ∃ m r siwe row, m < n ∧ events[m]? = some (.session r) ∧ SignsIn k cfg (tables k cfg events m) r siwe row ∧
      bearer header = some row.token ∧ opened = ⟨row.address, row.chainId⟩ ∧ now < row.expiresAt ∧
      (∃ j i, j < m ∧ events[j]? = some (.nonce i) ∧ siwe.nonce = hexEncode i.drawn ∧
        r.consuming < i.issuing + NONCE_TTL) ∧
      ∀ m' r' siwe' row', events[m']? = some (.session r') → SignsIn k cfg (tables k cfg events m') r' siwe' row' →
        siwe'.nonce = siwe.nonce → m' = m := by
  unfold requireSession at h
  simp only [bind_eq_ok, expect_eq_ok, require_eq_ok] at h
  obtain ⟨token, htoken, -, -, hsession⟩ := h
  obtain ⟨row, hrow, rfl, hlive, rfl⟩ := session_row hsession
  obtain ⟨m, r, siwe, hmn, hm, hsigns⟩ := session_opened row hrow
  obtain ⟨held, hheld, hname, -, hunexpired⟩ := hsigns.nonce
  obtain ⟨j, i, hj, hji, hdrawn, hexpires⟩ := nonce_drawn held hheld
  refine ⟨m, r, siwe, row, hmn, hm, hsigns, htoken, rfl, hlive, ⟨j, i, hj, hji, ?_, ?_⟩, ?_⟩
  · rw [← hname, hdrawn]
  · rwa [hexpires] at hunexpired
  · intro m' r' siwe' row' hm' hsigns' hsame
    exact signsIn_once hdraws hm hsigns hm' hsigns' hsame

end Histories

def signatureSample : Text :=
  ["f973a0b87062c389", "d125d8199e803b83", "2b6ac6bf7867a4f6", "cd87506060fc4c58", "58b1f2cdbf7cee06", "691cf72aeab34edd",
    "b22b67a593cac30c", "a9b14a4310690624"].flatMap String.toList

/-- The wallet of the key 1, which signs this one message. -/
def walletsSample : Wallets where
  keccak256 := Keccak.keccak256
  recoverKey digest sig v :=
    if hexEncode digest = ["c6791b9f3317a6ed", "a4a0705e74c8adf5", "79aacea54ac43a28",
          "ccd3b3f78663b1d9"].flatMap String.toList ∧ hexEncode sig = signatureSample ∧ v = 1 then
      .ok ((hexDecode "7e5f4552091a69125d5dfcb7b8c2659029395bdf".toList).getD [])
    else .error "recovery failed"

def signedSample : Text :=
  ["peal.xyz wants ", "you to sign in ", "with your ", "Ethereum account:", "\n0x7e5f4552091a69", "125d5dfcb7b8c2",
    "659029395bdf\n\n", "URI: https://", "peal.xyz\n", "Version: 1\n", "Chain ID: 1\n", "Nonce: 07070707",
    "0707070707070707", "07070707\n", "Issued At: 1970-", "01-01T00:01:40Z"].flatMap String.toList

def signInSample : List AuthRequest :=
  [.nonce ⟨List.replicate 16 7, 100, 100, .ok (), .ok ()⟩,
    .session ⟨signedSample, '0' :: 'x' :: signatureSample ++ ['1', 'c'], List.replicate 32 9, 110, 110, 110, .ok (), .ok ()⟩]

theorem session_authenticates_sample :
    ∃ m r siwe row, m < 2 ∧ signInSample[m]? = some (.session r) ∧
      SignsIn walletsSample ⟨["peal.xyz".toList], 86400⟩
        (tables walletsSample ⟨["peal.xyz".toList], 86400⟩ signInSample m) r siwe row ∧
      bearer (some ("Bearer ".toList ++ hexEncode (List.replicate 32 9))) = some row.token ∧
      (⟨"0x7e5f4552091a69125d5dfcb7b8c2659029395bdf".toList, 1⟩ : Session) = ⟨row.address, row.chainId⟩ ∧
      200 < row.expiresAt ∧
      (∃ j i, j < m ∧ signInSample[j]? = some (.nonce i) ∧ siwe.nonce = hexEncode i.drawn ∧
        r.consuming < i.issuing + NONCE_TTL) ∧
      ∀ m' r' siwe' row', signInSample[m']? = some (.session r') →
        SignsIn walletsSample ⟨["peal.xyz".toList], 86400⟩
          (tables walletsSample ⟨["peal.xyz".toList], 86400⟩ signInSample m') r' siwe' row' →
        siwe'.nonce = siwe.nonce → m' = m :=
  session_authenticates (by decide) (by decide +kernel)

end Peal.Links.Auth
