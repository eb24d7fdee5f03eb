import Peal.Library.Eip712
import Peal.Library.Assoc
import Peal.Links.HexText
import Peal.Live.Previews
import Peal.Names.Contract

namespace Peal.Names
open Peal.Fallible Peal.Runs Peal.Keccak
open Peal.Coordinator (Text Preview PreviewCrates decodeTerms)
open Peal.Links (hexEncode hexDecode trimHexPrefix toLeBytes fromBeBytes)

/-! # Previews of named auctions -/

/-! ## A call of the registry -/

def RESOLVE : Bytes := (keccak256 (Utf8.encode "resolve(string)".toList)).take 4

/-- What a node answers a call with, the registry being as it is. -/
def PealNames.ethCall (s : PealNames) (data : Bytes) : Option Bytes := do
  guard (data.take 4 = RESOLVE)
  let name ← AbiBytes.decode (data.drop 4)
  return AbiBytes.encode (s.resolve name)

def u256 (n : Nat) : Bytes := List.replicate 24 0 ++ (toLeBytes 8 n).reverse

def callData (name : Text) : Bytes :=
  let arg := Utf8.encode name
  RESOLVE ++ u256 32 ++ u256 arg.length ++ (arg ++ List.replicate ((arg.length + 31) / 32 * 32 - arg.length) 0)

inductive Failure where
  | unreachable
  | badHex
  | panicked
  deriving DecidableEq, Repr

def readReply (raw : Text) : Except Failure (Option Bytes) :=
  match hexDecode (trimHexPrefix raw) with
  | none => .error .badHex
  | some bytes =>
    if bytes.length < 64 then .ok none
    else
      let len := fromBeBytes ((bytes.drop 56).take 8)
      -- the sum wraps in 64 bits
      let stop := (64 + len) % 2 ^ 64
      if len = 0 ∨ bytes.length < stop then .ok none
      else if stop < 64 then .error .panicked
      else .ok (some ((bytes.drop 64).take (stop - 64)))

/-! ## The cache -/

def MISS_TTL_MS : Int := 60000

abbrev PreviewCache := List (Text × Option Preview × Int)

namespace PreviewCache

def get (m : PreviewCache) (name : Text) (now : Int) : Option (Option Preview) :=
  match Assoc.get m name with
  | some (some p, _) => some (some p)
  | some (none, missed) => if now - missed < MISS_TTL_MS then some none else none
  | none => none

def put (m : PreviewCache) (name : Text) (value : Option Preview) (now : Int) : PreviewCache :=
  let entries := if 10000 < m.length then m.filter fun e => e.2.1.isSome else m
  Assoc.insert entries name (value, now)

end PreviewCache

/-! ## The server beside the registry -/

/-- A request on its way to the node and back. -/
structure Lookup where
  name : Text
  now : Int
  reply : Option (Except Failure Text)

structure Site where
  chain : PealNames
  cache : PreviewCache
  lookups : List Lookup
  served : List (Text × Option Preview)

def Site.start : Site := ⟨.deployed, [], [], []⟩

inductive Event where
  | claimed (c : Claim)
  | asked (name : Text) (now : Int)
  | called (i : Nat) (reached : Bool)
  | answered (i : Nat)

/-- What a registry says at the moment of the call. -/
def replyOf (s : PealNames) (name : Text) : Except Failure Text :=
  match s.ethCall (callData name) with
  | some bytes => .ok ('0' :: 'x' :: hexEncode bytes)
  | none => .error .unreachable

section Server

variable (crates : PreviewCrates)

/-- The rest of `preview_for` once the node has answered. -/
def settle (s : Site) (l : Lookup) (reply : Except Failure Text) : Site :=
  match reply.bind readReply with
  | .error _ => { s with served := s.served ++ [(l.name, none)] }
  | .ok bytes =>
    let found := bytes.bind (decodeTerms crates)
    { s with cache := s.cache.put l.name found l.now, served := s.served ++ [(l.name, found)] }

def step (s : Site) : Event → Except Unit Site
  | .claimed c => (s.chain.claim c).mapError (fun _ => ()) |>.map fun chain => { s with chain := chain }
  | .asked name now =>
    if isValidName name then
      match s.cache.get name now with
      | some cached => .ok { s with served := s.served ++ [(name, cached)] }
      | none => .ok { s with lookups := s.lookups ++ [⟨name, now, none⟩] }
    else .ok { s with served := s.served ++ [(name, none)] }
  | .called i reached =>
    match s.lookups[i]? with
    | some ⟨name, now, none⟩ =>
      let reply := if reached then replyOf s.chain name else .error .unreachable
      .ok { s with lookups := s.lookups.set i ⟨name, now, some reply⟩ }
    | _ => .error ()
  | .answered i =>
    match s.lookups[i]? with
    | some ⟨name, now, some reply⟩ =>
      .ok (settle crates { s with lookups := s.lookups.eraseIdx i } ⟨name, now, some reply⟩ reply)
    | _ => .error ()

/-- The preview that the registry holds for a name. -/
def previewOf (s : PealNames) (name : Text) : Option Preview :=
  let terms := s.resolve (Utf8.encode name)
  if terms = [] then none else decodeTerms crates terms

/-- The site after the first `n` events. -/
def moment (events : List Event) (n : Nat) : Site := exec (step crates) .start (events.take n)

end Server

/-! ## What the node answers is what the registry holds -/

lemma u256_eq {n : Nat} (h : n < 2 ^ 64) : u256 n = Eip712.word n :=
  Links.word_padded rfl (h.trans_eq (by norm_num))

lemma RESOLVE_length : RESOLVE.length = 4 := by
  rw [RESOLVE, List.length_take, keccak256_length]
  rfl

lemma callData_eq {name : Text} (h : (Utf8.encode name).length < 2 ^ 64) :
    callData name = RESOLVE ++ AbiBytes.encode (Utf8.encode name) := by
  have hpad : ((Utf8.encode name).length + 31) / 32 * 32 - (Utf8.encode name).length =
      (32 - (Utf8.encode name).length % 32) % 32 := by omega
  unfold callData AbiBytes.encode AbiBytes.pad
  dsimp only
  rw [u256_eq (by norm_num), u256_eq h, hpad, List.append_assoc, List.append_assoc]

theorem ethCall_callData (s : PealNames) {name : Text} (h : (Utf8.encode name).length < 2 ^ 64) :
    s.ethCall (callData name) = some (AbiBytes.encode (s.resolve (Utf8.encode name))) := by
  unfold PealNames.ethCall
  rw [callData_eq h, List.take_left' RESOLVE_length, List.drop_left' RESOLVE_length, AbiBytes.decode_encode h]
  rw [guard, if_pos rfl]
  rfl

lemma hexEncode_hex {bytes : Bytes} (h : ∀ b ∈ bytes, b < 256) :
    (hexEncode bytes).all (fun ch => (Links.toDigit 16 ch).isSome) = true := by
  rw [List.all_eq_true]
  intro ch hch
  obtain ⟨b, hb, hdigit⟩ := List.mem_flatMap.mp hch
  have hlt : b < 256 := h b hb
  rcases List.mem_pair.mp hdigit with rfl | rfl
  · rw [Links.toDigit_hexDigit (by omega)]
    rfl
  · rw [Links.toDigit_hexDigit (by omega)]
    rfl

theorem readReply_encode {terms : Bytes} (hlt : ∀ b ∈ terms, b < 256) (hlength : terms.length ≤ MAX_TERMS_BYTES) :
    readReply ('0' :: 'x' :: hexEncode (AbiBytes.encode terms)) = .ok (if terms = [] then none else some terms) := by
  have hshort : terms.length ≤ 512 := hlength
  have hbytes := AbiBytes.encode_lt hlt
  have htrim : trimHexPrefix ('0' :: 'x' :: hexEncode (AbiBytes.encode terms)) = hexEncode (AbiBytes.encode terms) :=
    (by rfl : _ = trimHexPrefix (hexEncode (AbiBytes.encode terms))).trans
      (Links.trimHexPrefix_hex (hexEncode_hex hbytes))
  have hlen : fromBeBytes (((AbiBytes.encode terms).drop 56).take 8) = terms.length := by
    have hword : AbiBytes.encode terms = (Eip712.word 32 ++ List.replicate 24 0) ++
        ((toLeBytes 8 terms.length).reverse ++ AbiBytes.pad terms) := by
      rw [AbiBytes.encode, ← u256_eq (n := terms.length) (by omega), u256]
      simp only [List.append_assoc]
    have hfront : (Eip712.word 32 ++ List.replicate 24 0).length = 56 := by
      rw [List.length_append, Eip712.word_length, List.length_replicate]
    have hwidth : (toLeBytes 8 terms.length).reverse.length = 8 := by
      rw [List.length_reverse, Links.toLeBytes_length]
    rw [hword, List.drop_left' hfront, List.take_left' hwidth]
    exact Links.fromLeBytes_toLeBytes (by omega : terms.length < 256 ^ 8)
  have hall := AbiBytes.encode_length terms
  have hpad := AbiBytes.length_le_pad terms
  unfold readReply
  rw [htrim, Links.hexDecode_hexEncode hbytes]
  dsimp only
  rw [if_neg (by omega), hlen, Nat.mod_eq_of_lt (by omega)]
  by_cases hempty : terms = []
  · subst hempty
    rfl
  · have hpos : terms.length ≠ 0 := fun h => hempty (List.length_eq_zero_iff.mp h)
    rw [if_neg (by omega), if_neg (by omega), if_neg hempty, AbiBytes.drop_encode, Nat.add_sub_cancel_left,
      AbiBytes.take_pad]

/-! ## The registry never takes back what it says -/

/-- What every record of the registry is. -/
structure PealNames.Good (s : PealNames) : Prop where
  free : ∀ k, (s.records k).claimedBy = 0 → (s.records k).terms = []
  short : ∀ k, (s.records k).terms.length ≤ MAX_TERMS_BYTES
  lt : ∀ k, ∀ b ∈ (s.records k).terms, b < 256

lemma deployed_good : PealNames.deployed.Good where
  free _ _ := rfl
  short _ := Nat.zero_le _
  lt _ _ hb := absurd hb List.not_mem_nil

lemma claim_good {s s' : PealNames} {c : Claim} (hs : s.Good) (h : s.claim c = .ok s') : s'.Good := by
  obtain ⟨hfits, -, rfl⟩ := claim_eq_ok.mp h
  have hshort : c.terms.length ≤ MAX_TERMS_BYTES := (of_decide_eq_true hfits).2.2
  refine ⟨fun k hk => ?_, fun k => ?_, fun k b hb => ?_⟩
  · by_cases hkey : k = c.key
    · rw [hkey] at hk
      simp only [Function.update_self] at hk
      exact absurd hk c.sender_ne
    · simp only [Function.update_of_ne hkey] at hk ⊢
      exact hs.free k hk
  · by_cases hkey : k = c.key
    · rw [hkey]
      simp only [Function.update_self]
      exact hshort
    · simp only [Function.update_of_ne hkey]
      exact hs.short k
  · by_cases hkey : k = c.key
    · rw [hkey] at hb
      simp only [Function.update_self] at hb
      exact c.terms_lt b hb
    · simp only [Function.update_of_ne hkey] at hb
      exact hs.lt k b hb

lemma claim_keeps {s s' : PealNames} {c : Claim} (hs : s.Good) (h : s.claim c = .ok s') {name : Bytes}
    (hname : s.resolve name ≠ []) : s'.resolve name = s.resolve name := by
  obtain ⟨-, hfree, rfl⟩ := claim_eq_ok.mp h
  have hkey : nameHash name ≠ c.key := by
    intro hkey
    refine hname (hs.free _ ?_)
    rw [hkey]
    exact hfree
  unfold PealNames.resolve
  simp only [Function.update_of_ne hkey]

lemma replyOf_read {s : PealNames} (hs : s.Good) {name : Text} (hname : isValidName name = true) :
    (replyOf s name).bind readReply =
      .ok (if s.resolve (Utf8.encode name) = [] then none else some (s.resolve (Utf8.encode name))) := by
  have hlength : (Utf8.encode name).length < 2 ^ 64 :=
    ((isValidName_iff name).mp hname).most.trans_lt (by decide)
  unfold replyOf
  rw [ethCall_callData s hlength]
  exact readReply_encode (hs.lt _) (hs.short _)

/-! ## Runs -/

section Run

variable {crates : PreviewCrates} {events : List Event}

lemma bind_terms (crates : PreviewCrates) (s : PealNames) (name : Text) :
    (if s.resolve (Utf8.encode name) = [] then none
      else some (s.resolve (Utf8.encode name))).bind (decodeTerms crates) = previewOf crates s name := by
  unfold previewOf
  dsimp only
  split_ifs <;> rfl

lemma mem_put {m : PreviewCache} {name : Text} {value : Option Preview} {now : Int} {e : Text × Option Preview × Int}
    (h : e ∈ m.put name value now) : e = (name, value, now) ∨ e ∈ m := by
  unfold PreviewCache.put at h
  dsimp only at h
  obtain heq | ⟨hmem, -⟩ := Assoc.mem_insert.mp h
  · exact .inl heq
  · split_ifs at hmem
    · exact .inr (List.mem_filter.mp hmem).1
    · exact .inr hmem

def PreviewCache.misses (m : PreviewCache) : Nat := m.countP fun e => e.2.1.isNone

lemma put_misses (m : PreviewCache) (name : Text) (value : Option Preview) (now : Int) :
    (m.put name value now).misses ≤ 10001 := by
  unfold PreviewCache.put PreviewCache.misses Assoc.insert Assoc.erase
  dsimp only
  rw [List.countP_cons]
  have hentries : (if 10000 < m.length then m.filter fun e => e.2.1.isSome else m).countP
      (fun e => e.2.1.isNone) ≤ 10000 := by
    split_ifs with hfull
    · refine (List.countP_eq_zero.mpr fun e he hnone => ?_).trans_le (Nat.zero_le _)
      have hsome : e.2.1.isSome = true := (List.mem_filter.mp he).2
      cases hfound : e.2.1 with
      | none =>
        rw [hfound] at hsome
        cases hsome
      | some p =>
        rw [hfound] at hnone
        cases hnone
    · exact List.countP_le_length.trans (not_lt.mp hfull)
  have hkept := (List.filter_sublist (p := fun e : Text × Option Preview × Int => decide (e.1 ≠ name))
    (l := if 10000 < m.length then m.filter fun e => e.2.1.isSome else m)).countP_le (p := fun e => e.2.1.isNone)
  have hone : (if value.isNone = true then 1 else 0) ≤ 1 := by split_ifs <;> decide
  exact Nat.add_le_add (hkept.trans hentries) hone

lemma get_eq_some {m : PreviewCache} {name : Text} {now : Int} {found : Option Preview}
    (h : m.get name now = some found) : ∃ put, (name, found, put) ∈ m ∧ (found = none → now - put < MISS_TTL_MS) := by
  unfold PreviewCache.get at h
  cases hget : Assoc.get m name with
  | none =>
    rw [hget] at h
    cases h
  | some e =>
    obtain ⟨value, put⟩ := e
    have hmem := Assoc.mem_of_get hget
    rw [hget] at h
    cases value with
    | some p =>
      obtain rfl := Option.some.inj h
      exact ⟨put, hmem, fun hnone => by cases hnone⟩
    | none =>
      dsimp only at h
      split_ifs at h with hfresh
      obtain rfl := Option.some.inj h
      exact ⟨put, hmem, fun _ => hfresh⟩

lemma moment_succ {n : Nat} {e : Event} (h : events[n]? = some e) :
    moment crates events (n + 1) = advance (step crates) (moment crates events n) e := exec_take_succ _ h

lemma moment_end {n : Nat} (h : events[n]? = none) : moment crates events (n + 1) = moment crates events n :=
  exec_take_end _ h

lemma step_chain {s s' : Site} {e : Event} (h : step crates s e = .ok s') :
    s'.chain = s.chain ∨ ∃ c, s.chain.claim c = .ok s'.chain := by
  cases e with
  | claimed c =>
    simp only [step] at h
    cases hclaim : s.chain.claim c with
    | error e =>
      rw [hclaim] at h
      cases h
    | ok chain =>
      rw [hclaim] at h
      obtain rfl := Except.ok.inj h
      exact .inr ⟨c, hclaim⟩
  | asked name now =>
    simp only [step] at h
    split_ifs at h
    · cases hget : s.cache.get name now with
      | some cached =>
        rw [hget] at h
        obtain rfl := Except.ok.inj h
        exact .inl rfl
      | none =>
        rw [hget] at h
        obtain rfl := Except.ok.inj h
        exact .inl rfl
    · obtain rfl := Except.ok.inj h
      exact .inl rfl
  | called i reached =>
    simp only [step] at h
    split at h
    · obtain rfl := Except.ok.inj h
      exact .inl rfl
    · cases h
  | answered i =>
    simp only [step] at h
    split at h
    · obtain rfl := Except.ok.inj h
      unfold settle
      split <;> exact .inl rfl
    · cases h

lemma chain_good (n : Nat) : (moment crates events n).chain.Good := by
  refine exec_invariant (step crates) (I := fun s => s.chain.Good) (fun s e s' hs h => ?_) deployed_good _
  obtain hsame | ⟨c, hclaim⟩ := step_chain h
  · rwa [hsame]
  · exact claim_good hs hclaim

lemma previewOf_kept {m n : Nat} (hmn : m ≤ n) {name : Text} {p : Preview}
    (h : previewOf crates (moment crates events m).chain name = some p) :
    previewOf crates (moment crates events n).chain name = some p := by
  refine moments_related (step crates)
    (R := fun s t => ∀ name p, previewOf crates s.chain name = some p → previewOf crates t.chain name = some p)
    (fun _ _ _ => id) (fun _ _ _ hst htu name p hp => htu name p (hst name p hp)) (fun j e _ => ?_) hmn name p h
  have hgood : (moment crates events j).chain.Good := chain_good j
  refine advance_induct (step crates)
    (P := fun t => ∀ name p, previewOf crates (moment crates events j).chain name = some p →
      previewOf crates t.chain name = some p) (fun _ _ => id) fun s' hstep name p hp => ?_
  obtain hsame | ⟨c, hclaim⟩ := step_chain hstep
  · rwa [hsame]
  · have hname : (moment crates events j).chain.resolve (Utf8.encode name) ≠ [] := by
      intro hempty
      have hp' : previewOf crates (moment crates events j).chain name = some p := hp
      unfold previewOf at hp'
      dsimp only at hp'
      rw [if_pos hempty] at hp'
      cases hp'
    unfold previewOf
    dsimp only
    rw [claim_keeps hgood hclaim hname]
    exact hp

variable (crates events) in
/-- Where what a site holds after `n` events comes from. -/
structure Sourced (n : Nat) (s : Site) : Prop where
  lookups : ∀ l ∈ s.lookups, isValidName l.name = true ∧ ∃ i < n, events[i]? = some (.asked l.name l.now) ∧
    ∀ reply ∈ l.reply, reply = .error .unreachable ∨
      ∃ j, i < j ∧ j < n ∧ reply = replyOf (moment crates events j).chain l.name
  cached : ∀ name found put, (name, found, put) ∈ s.cache → ∃ i j, i < j ∧ j < n ∧
    events[i]? = some (.asked name put) ∧ previewOf crates (moment crates events j).chain name = found
  served : ∀ name p, (name, some p) ∈ s.served → ∃ j < n, previewOf crates (moment crates events j).chain name = some p

lemma Sourced.later {n : Nat} {s : Site} (h : Sourced crates events n s) : Sourced crates events (n + 1) s := by
  refine ⟨fun l hl => ?_, fun name found put hmem => ?_, fun name p hmem => ?_⟩
  · obtain ⟨hname, i, hi, hasked, hreply⟩ := h.lookups l hl
    refine ⟨hname, i, hi.trans n.lt_succ_self, hasked, fun reply hr => (hreply reply hr).imp_right ?_⟩
    rintro ⟨j, hij, hj, hread⟩
    exact ⟨j, hij, hj.trans n.lt_succ_self, hread⟩
  · obtain ⟨i, j, hij, hj, hfound⟩ := h.cached name found put hmem
    exact ⟨i, j, hij, hj.trans n.lt_succ_self, hfound⟩
  · obtain ⟨j, hj, hp⟩ := h.served name p hmem
    exact ⟨j, hj.trans n.lt_succ_self, hp⟩

lemma Sourced.serve {n : Nat} {s : Site} (h : Sourced crates events n s) {name : Text} {found : Option Preview}
    (hfound : ∀ p ∈ found, ∃ j < n, previewOf crates (moment crates events j).chain name = some p) :
    Sourced crates events n { s with served := s.served ++ [(name, found)] } := by
  refine ⟨h.lookups, h.cached, fun name' p hmem => ?_⟩
  obtain hold | hnew := List.mem_append.mp hmem
  · exact h.served name' p hold
  · obtain ⟨rfl, rfl⟩ := Prod.mk.inj (List.mem_singleton.mp hnew)
    exact hfound p rfl

lemma sourced_asked {n : Nat} {s s' : Site} (h : Sourced crates events n s) {name : Text} {now : Int}
    (hn : events[n]? = some (.asked name now)) (hstep : step crates s (.asked name now) = .ok s') :
    Sourced crates events (n + 1) s' := by
  have hlater := h.later
  simp only [step] at hstep
  split_ifs at hstep with hvalid
  · cases hget : s.cache.get name now with
    | some cached =>
      rw [hget] at hstep
      obtain rfl := Except.ok.inj hstep
      refine hlater.serve fun p hp => ?_
      obtain rfl := Option.mem_def.mp hp
      obtain ⟨put, hmem, -⟩ := get_eq_some hget
      obtain ⟨-, j, -, hj, -, hp⟩ := hlater.cached name (some p) put hmem
      exact ⟨j, hj, hp⟩
    | none =>
      rw [hget] at hstep
      obtain rfl := Except.ok.inj hstep
      refine ⟨fun l hl => ?_, hlater.cached, hlater.served⟩
      obtain hold | hnew := List.mem_append.mp hl
      · exact hlater.lookups l hold
      · obtain rfl := List.mem_singleton.mp hnew
        exact ⟨hvalid, n, n.lt_succ_self, hn, fun reply hreply => by cases hreply⟩
  · obtain rfl := Except.ok.inj hstep
    exact hlater.serve fun p hp => by cases hp

lemma sourced_called {n i : Nat} {s' : Site} {reached : Bool} (h : Sourced crates events n (moment crates events n))
    (hstep : step crates (moment crates events n) (.called i reached) = .ok s') : Sourced crates events (n + 1) s' := by
  have hlater := h.later
  simp only [step] at hstep
  split at hstep
  · next name now hget =>
    obtain rfl := Except.ok.inj hstep
    refine ⟨fun l hl => ?_, hlater.cached, hlater.served⟩
    obtain hold | rfl := List.mem_or_eq_of_mem_set hl
    · exact hlater.lookups l hold
    · -- the node reads the registry now, after the request came
      obtain ⟨hname, m, hm, hasked, -⟩ := h.lookups _ (List.mem_of_getElem? hget)
      refine ⟨hname, m, hm.trans n.lt_succ_self, hasked, fun reply hreply => ?_⟩
      obtain rfl := Option.some.inj hreply
      cases reached with
      | false => exact .inl rfl
      | true => exact .inr ⟨n, hm, n.lt_succ_self, rfl⟩
  · cases hstep

lemma sourced_answered {n i : Nat} {s s' : Site} (h : Sourced crates events n s)
    (hstep : step crates s (.answered i) = .ok s') : Sourced crates events (n + 1) s' := by
  have hlater := h.later
  simp only [step] at hstep
  split at hstep
  · next name now reply hget =>
    obtain rfl := Except.ok.inj hstep
    obtain ⟨hname, m, hm, hasked, hreply⟩ := hlater.lookups _ (List.mem_of_getElem? hget)
    have herased : Sourced crates events (n + 1) { s with lookups := s.lookups.eraseIdx i } :=
      ⟨fun l hl => hlater.lookups l (List.mem_of_mem_eraseIdx hl), hlater.cached, hlater.served⟩
    obtain rfl | ⟨j, hmj, hj, hread⟩ := hreply reply rfl
    · exact herased.serve fun p hp => by cases hp
    · have hsaid : reply = replyOf (moment crates events j).chain name := hread
      subst hsaid
      unfold settle
      rw [replyOf_read (chain_good j) hname]
      dsimp only
      rw [bind_terms]
      have hfound : ∀ p ∈ previewOf crates (moment crates events j).chain name, ∃ j < n + 1,
          previewOf crates (moment crates events j).chain name = some p := fun p hp => ⟨j, hj, hp⟩
      have hserved := herased.serve hfound
      refine ⟨hserved.lookups, fun name' found put hmem => ?_, hserved.served⟩
      obtain heq | hold := mem_put hmem
      · obtain ⟨rfl, hrest⟩ := Prod.mk.inj heq
        obtain ⟨rfl, rfl⟩ := Prod.mk.inj hrest
        exact ⟨m, j, hmj, hj, hasked, rfl⟩
      · exact herased.cached name' found put hold
  · cases hstep

lemma sourced (n : Nat) : Sourced crates events n (moment crates events n) := by
  induction n with
  | zero =>
    refine ⟨fun l hl => ?_, fun _ _ _ hmem => ?_, fun _ _ hmem => ?_⟩
    · cases hl
    · cases hmem
    · cases hmem
  | succ n ih =>
    cases hn : events[n]? with
    | none =>
      rw [moment_end hn]
      exact ih.later
    | some e =>
      rw [moment_succ hn]
      refine advance_induct (step crates) ih.later fun s' hstep => ?_
      cases e with
      | claimed c =>
        have hlater := ih.later
        simp only [step] at hstep
        cases hclaim : (moment crates events n).chain.claim c with
        | error e =>
          rw [hclaim] at hstep
          cases hstep
        | ok chain =>
          rw [hclaim] at hstep
          obtain rfl := Except.ok.inj hstep
          exact ⟨hlater.lookups, hlater.cached, hlater.served⟩
      | asked name now => exact sourced_asked ih hn hstep
      | called i reached => exact sourced_called ih hstep
      | answered i => exact sourced_answered ih hstep

lemma step_misses {s s' : Site} {e : Event} (hs : s.cache.misses ≤ 10001) (h : step crates s e = .ok s') :
    s'.cache.misses ≤ 10001 := by
  cases e with
  | claimed c =>
    simp only [step] at h
    cases hclaim : s.chain.claim c with
    | error e =>
      rw [hclaim] at h
      cases h
    | ok chain =>
      rw [hclaim] at h
      obtain rfl := Except.ok.inj h
      exact hs
  | asked name now =>
    simp only [step] at h
    split_ifs at h
    · cases hget : s.cache.get name now with
      | some cached =>
        rw [hget] at h
        obtain rfl := Except.ok.inj h
        exact hs
      | none =>
        rw [hget] at h
        obtain rfl := Except.ok.inj h
        exact hs
    · obtain rfl := Except.ok.inj h
      exact hs
  | called i reached =>
    simp only [step] at h
    split at h
    · obtain rfl := Except.ok.inj h
      exact hs
    · cases h
  | answered i =>
    simp only [step] at h
    split at h
    · obtain rfl := Except.ok.inj h
      unfold settle
      split
      · exact hs
      · exact put_misses _ _ _ _
    · cases h

/-- A preview that is cached or served is the registry's for good; a miss that is answered from the cache was true
less than its time ago; and no flood of names fills the cache. -/
theorem previews_true (crates : PreviewCrates) (events : List Event) (n : Nat) :
    (moment crates events n).cache.misses ≤ 10001 ∧
    (∀ name p, ((∃ now, (moment crates events n).cache.get name now = some (some p)) ∨
        (name, some p) ∈ (moment crates events n).served) →
      ∀ m ≥ n, previewOf crates (moment crates events m).chain name = some p) ∧
    ∀ name now, (moment crates events n).cache.get name now = some none → ∃ i j asked, i < j ∧ j < n ∧
      events[i]? = some (.asked name asked) ∧ now - asked < MISS_TTL_MS ∧
      previewOf crates (moment crates events j).chain name = none := by
  have hsourced : Sourced crates events n (moment crates events n) := sourced n
  have hmisses : (moment crates events n).cache.misses ≤ 10001 :=
    exec_invariant (step crates) (I := fun s => s.cache.misses ≤ 10001) (fun _ _ _ => step_misses) (s := .start)
      (Nat.zero_le _) (events.take n)
  refine ⟨hmisses, fun name p hshown m hm => ?_, fun name now hget => ?_⟩
  · obtain ⟨j, hj, hp⟩ : ∃ j < n, previewOf crates (moment crates events j).chain name = some p := by
      obtain ⟨now, hget⟩ | hserved := hshown
      · obtain ⟨put, hmem, -⟩ := get_eq_some hget
        obtain ⟨-, j, -, hj, -, hp⟩ := hsourced.cached name (some p) put hmem
        exact ⟨j, hj, hp⟩
      · exact hsourced.served name p hserved
    exact previewOf_kept (hj.le.trans hm) hp
  · obtain ⟨put, hmem, hfresh⟩ := get_eq_some hget
    obtain ⟨i, j, hij, hj, hasked, hnone⟩ := hsourced.cached name none put hmem
    exact ⟨i, j, put, hij, hj, hasked, hfresh rfl, hnone⟩

end Run

end Peal.Names
