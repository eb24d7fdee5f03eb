import Peal.Library.Fallible
import Peal.Library.Keccak
import Peal.Library.Runs
import Peal.Library.WriteOnce
import Peal.Live.PageTerms

namespace Peal.Names
open Peal.Fallible Peal.Runs Peal.Keccak

/-! # The registry of short names -/

abbrev Bytes := List Nat

inductive Revert where
  | nameTaken (name : Bytes)
  | nameWrongLength
  | nameHasInvalidCharacter (index : Nat)
  | nameEdgeHyphen
  | termsEmpty
  | termsTooLong
  deriving DecidableEq, Repr

def MAX_TERMS_BYTES : Nat := 512

def MIN_NAME_BYTES : Nat := 3

def MAX_NAME_BYTES : Nat := 32

structure Record where
  claimedBy : Nat
  claimedAt : Nat
  terms : Bytes
  deriving DecidableEq, Repr

structure Claimed where
  nameHash : Bytes
  name : Bytes
  claimedBy : Nat
  terms : Bytes
  deriving DecidableEq, Repr

structure PealNames where
  records : Bytes → Record
  logs : List Claimed

/-- A call of `claim`. Every transaction has a sender. -/
structure Claim where
  sender : Nat
  sender_ne : sender ≠ 0
  timestamp : Nat
  name : Bytes
  terms : Bytes
  terms_lt : ∀ b ∈ terms, b < 256
  deriving DecidableEq

def nameHash (name : Bytes) : Bytes := keccak256 name

/-- a-z, 0-9 and the hyphen. -/
def nameByte (c : Nat) : Bool := (0x61 ≤ c && c ≤ 0x7a) || (0x30 ≤ c && c ≤ 0x39) || c == 0x2d

def requireNameBytes : Nat → Bytes → Except Revert Unit
  | _, [] => .ok ()
  | i, c :: rest => if nameByte c then requireNameBytes (i + 1) rest else .error (.nameHasInvalidCharacter i)

def requireValidName (b : Bytes) : Except Revert Unit := do
  require (MIN_NAME_BYTES ≤ b.length ∧ b.length ≤ MAX_NAME_BYTES) .nameWrongLength
  require (b.head? ≠ some 0x2d ∧ b.getLast? ≠ some 0x2d) .nameEdgeHyphen
  requireNameBytes 0 b

namespace PealNames

def deployed : PealNames := ⟨fun _ => ⟨0, 0, []⟩, []⟩

def claim (s : PealNames) (c : Claim) : Except Revert PealNames := do
  requireValidName c.name
  require (c.terms.length ≠ 0) .termsEmpty
  require (c.terms.length ≤ MAX_TERMS_BYTES) .termsTooLong
  let key := nameHash c.name
  require ((s.records key).claimedBy = 0) (.nameTaken c.name)
  return ⟨Function.update s.records key ⟨c.sender, c.timestamp % 2 ^ 64, c.terms⟩,
    s.logs ++ [⟨key, c.name, c.sender, c.terms⟩]⟩

def resolve (s : PealNames) (name : Bytes) : Bytes := (s.records (nameHash name)).terms

def ownerOf (s : PealNames) (name : Bytes) : Nat × Nat :=
  let r := s.records (nameHash name)
  (r.claimedBy, r.claimedAt)

def isTaken (s : PealNames) (name : Bytes) : Bool := (s.records (nameHash name)).claimedBy ≠ 0

end PealNames

/-! ## What a claim is accepted for -/

structure ValidName (b : Bytes) : Prop where
  least : MIN_NAME_BYTES ≤ b.length
  most : b.length ≤ MAX_NAME_BYTES
  front : b.head? ≠ some 0x2d
  back : b.getLast? ≠ some 0x2d
  bytes : ∀ c ∈ b, nameByte c = true

lemma requireNameBytes_eq_ok {i : Nat} {b : Bytes} : requireNameBytes i b = .ok () ↔ ∀ c ∈ b, nameByte c = true := by
  induction b generalizing i with
  | nil => exact ⟨fun _ c hc => absurd hc List.not_mem_nil, fun _ => rfl⟩
  | cons c rest ih =>
    rw [requireNameBytes, List.forall_mem_cons]
    split_ifs with hc
    · rw [ih]
      exact ⟨fun h => ⟨hc, h⟩, fun h => h.2⟩
    · constructor
      · intro h
        cases h
      · rintro ⟨h, -⟩
        exact absurd h hc

lemma requireValidName_eq_ok {b : Bytes} : requireValidName b = .ok () ↔ ValidName b := by
  unfold requireValidName
  simp only [bind_eq_ok, require_eq_ok, requireNameBytes_eq_ok]
  constructor
  · rintro ⟨_, ⟨hleast, hmost⟩, _, ⟨hfront, hback⟩, hbytes⟩
    exact ⟨hleast, hmost, hfront, hback, hbytes⟩
  · intro h
    exact ⟨(), ⟨h.least, h.most⟩, (), ⟨h.front, h.back⟩, h.bytes⟩

/-- A claim that only a claim before it can refuse. -/
def Claim.acceptable (c : Claim) : Bool :=
  requireValidName c.name = .ok () ∧ c.terms.length ≠ 0 ∧ c.terms.length ≤ MAX_TERMS_BYTES

def Claim.key (c : Claim) : Bytes := nameHash c.name

def Claim.log (c : Claim) : Claimed := ⟨c.key, c.name, c.sender, c.terms⟩

def recordOf : Option Claim → Record
  | none => ⟨0, 0, []⟩
  | some c => ⟨c.sender, c.timestamp % 2 ^ 64, c.terms⟩

variable {s s' : PealNames} {c : Claim} {calls : List Claim} {name : Bytes}

lemma claim_eq_ok : s.claim c = .ok s' ↔ c.acceptable = true ∧ (s.records c.key).claimedBy = 0 ∧
    s' = ⟨Function.update s.records c.key (recordOf (some c)), s.logs ++ [c.log]⟩ := by
  unfold PealNames.claim Claim.acceptable
  simp only [bind_eq_ok, require_eq_ok, pure_eq_ok, decide_eq_true_eq]
  constructor
  · rintro ⟨_, hname, _, hterms, _, hshort, _, hfree, rfl⟩
    exact ⟨⟨hname, hterms, hshort⟩, hfree, rfl⟩
  · rintro ⟨⟨hname, hterms, hshort⟩, hfree, rfl⟩
    exact ⟨(), hname, (), hterms, (), hshort, (), hfree, rfl⟩

/-! ## Runs of claims -/

/-- The registry after the first `n` calls. -/
def after (calls : List Claim) (n : Nat) : PealNames := exec PealNames.claim .deployed (calls.take n)

def table (calls : List Claim) : Bytes → Option Claim :=
  calls.foldl (WriteOnce.put Claim.key Claim.acceptable) fun _ => none

lemma recordOf_free (o : Option Claim) : (recordOf o).claimedBy = 0 ↔ o.isNone = true := by
  cases o with
  | none => exact ⟨fun _ => rfl, fun _ => rfl⟩
  | some c => exact ⟨fun h => absurd h c.sender_ne, fun h => absurd h Bool.false_ne_true⟩

/-- The registry is a table whose entries are written once. -/
theorem exec_claim (calls : List Claim) : exec PealNames.claim .deployed calls =
    ⟨fun k => recordOf (table calls k),
      (WriteOnce.taking Claim.key Claim.acceptable (fun _ => none) calls).map Claim.log⟩ := by
  induction calls using List.reverseRecOn with
  | nil => rfl
  | append_singleton calls c ih =>
    have hfold : table (calls ++ [c]) = WriteOnce.put Claim.key Claim.acceptable (table calls) c := by
      unfold table
      rw [List.foldl_append]
      rfl
    rw [exec_concat, ih, WriteOnce.taking_concat, hfold, List.map_append]
    change _ = (⟨_, _ ++ List.map Claim.log
      (if c.acceptable = true ∧ (table calls c.key).isNone = true then [c] else [])⟩ : PealNames)
    unfold WriteOnce.put
    by_cases htakes : c.acceptable = true ∧ (table calls c.key).isNone = true
    · rw [if_pos htakes, if_pos htakes]
      refine advance_of_ok _ (claim_eq_ok.mpr ⟨htakes.1, (recordOf_free _).mpr htakes.2, ?_⟩)
      congr 1
      funext k
      by_cases hk : k = c.key
      · subst hk
        rw [Function.update_self, Function.update_self]
      · rw [Function.update_of_ne hk, Function.update_of_ne hk]
    · rw [if_neg htakes, if_neg htakes]
      simp only [List.map_nil, List.append_nil]
      cases hclaim : PealNames.claim ⟨fun k => recordOf (table calls k),
          (WriteOnce.taking Claim.key Claim.acceptable (fun _ => none) calls).map Claim.log⟩ c with
      | error e => exact advance_of_error _ hclaim
      | ok s' =>
        obtain ⟨hfits, hfree, -⟩ := claim_eq_ok.mp hclaim
        exact absurd ⟨hfits, (recordOf_free _).mp hfree⟩ htakes

lemma records_after (calls : List Claim) (k : Bytes) : (exec PealNames.claim .deployed calls).records k =
    recordOf (WriteOnce.first Claim.key Claim.acceptable calls k) := by
  rw [exec_claim]
  exact congrArg recordOf (WriteOnce.foldl_put_free rfl calls)

/-- No two of the names have one hash. -/
def CollisionFree (names : List Bytes) : Prop := ∀ a ∈ names, ∀ b ∈ names, nameHash a = nameHash b → a = b

/-- The first call that claims a name as it has to be claimed. -/
def firstClaim (calls : List Claim) (name : Bytes) : Option Claim :=
  WriteOnce.first Claim.name Claim.acceptable calls name

lemma first_of_name (h : CollisionFree (name :: calls.map Claim.name)) (n : Nat) :
    WriteOnce.first Claim.key Claim.acceptable (calls.take n) (nameHash name) = firstClaim (calls.take n) name := by
  refine WriteOnce.first_congr fun c hc => ⟨fun hkey => ?_, congrArg nameHash⟩
  have hmem : c.name ∈ calls.map Claim.name := List.mem_map_of_mem (List.mem_of_mem_take hc)
  exact h _ (List.mem_cons_of_mem _ hmem) _ List.mem_cons_self hkey

lemma record_after (h : CollisionFree (name :: calls.map Claim.name)) (n : Nat) :
    (after calls n).records (nameHash name) = recordOf (firstClaim (calls.take n) name) := by
  rw [after, records_after, first_of_name h]

lemma logs_after (h : CollisionFree (calls.map Claim.name)) (n : Nat) : (after calls n).logs =
    (Firsts.newOnes Claim.name [] ((calls.take n).filter Claim.acceptable)).map Claim.log := by
  have hmem : ∀ c ∈ (calls.take n).filter Claim.acceptable, c.name ∈ calls.map Claim.name := fun c hc =>
    List.mem_map_of_mem (List.mem_of_mem_take (List.mem_filter.mp hc).1)
  rw [after, exec_claim, WriteOnce.taking_eq_newOnes (show ∀ k, k ∈ [] ↔ _ from fun k => by simp)]
  refine congrArg (List.map Claim.log) (WriteOnce.newOnes_congr (fun c _ => by simp) fun c hc d hd => ?_)
  exact ⟨h _ (hmem c hc) _ (hmem d hd), congrArg nameHash⟩

lemma firstClaim_kept {m n : Nat} (hmn : n ≤ m) {c : Claim} (h : firstClaim (calls.take n) name = some c) :
    firstClaim (calls.take m) name = some c := by
  have hsplit : calls.take m = calls.take n ++ (calls.take m).drop n := by
    conv_lhs => rw [← List.take_append_drop n (calls.take m), List.take_take, min_eq_left hmn]
  rw [hsplit]
  unfold firstClaim at h ⊢
  rw [WriteOnce.first_append, h, Option.some_or]

/-- A name belongs to whoever claims it first, and never moves. -/
theorem names_never_move (h : CollisionFree (name :: calls.map Claim.name)) (n : Nat) :
    (after calls n).resolve name = ((firstClaim (calls.take n) name).map Claim.terms).getD [] ∧
    (after calls n).ownerOf name =
      ((firstClaim (calls.take n) name).map fun c => (c.sender, c.timestamp % 2 ^ 64)).getD (0, 0) ∧
    (after calls n).isTaken name = (firstClaim (calls.take n) name).isSome ∧
    (after calls n).logs =
      (Firsts.newOnes Claim.name [] ((calls.take n).filter Claim.acceptable)).map Claim.log ∧
    (∀ c, calls[n]? = some c → c.name = name →
      ((∃ s', (after calls n).claim c = .ok s') ↔ c.acceptable = true ∧ firstClaim (calls.take n) name = none)) ∧
    ∀ m ≥ n, (after calls n).isTaken name = true → (after calls m).resolve name = (after calls n).resolve name ∧
      (after calls m).ownerOf name = (after calls n).ownerOf name := by
  have hcalls : CollisionFree (calls.map Claim.name) := fun a ha b hb =>
    h a (List.mem_cons_of_mem _ ha) b (List.mem_cons_of_mem _ hb)
  have htaken : (after calls n).isTaken name = (firstClaim (calls.take n) name).isSome := by
    unfold PealNames.isTaken
    rw [record_after h]
    cases firstClaim (calls.take n) name with
    | none => rfl
    | some c => exact decide_eq_true c.sender_ne
  refine ⟨?_, ?_, htaken, logs_after hcalls n, fun c _ hname => ?_, fun m hmn hm => ?_⟩
  · unfold PealNames.resolve
    rw [record_after h]
    cases firstClaim (calls.take n) name <;> rfl
  · unfold PealNames.ownerOf
    rw [record_after h]
    cases firstClaim (calls.take n) name <;> rfl
  · simp only [claim_eq_ok, exists_and_left, exists_eq, and_true]
    rw [Claim.key, hname, record_after h, recordOf_free, Option.isNone_iff_eq_none]
  · rw [htaken, Option.isSome_iff_exists] at hm
    obtain ⟨c, hc⟩ := hm
    unfold PealNames.resolve PealNames.ownerOf
    rw [record_after h, record_after h, hc, firstClaim_kept hmn hc]
    exact ⟨rfl, rfl⟩

def claimSamples : List Claim :=
  [⟨7, by decide, 100, [0x2d, 0x61, 0x62], [1], by decide⟩, ⟨7, by decide, 101, [0x6d, 0x75, 0x67], [1, 2], by decide⟩,
    ⟨8, by decide, 102, [0x6d, 0x75, 0x67], [3], by decide⟩,
    ⟨8, by decide, 103, [0x6d, 0x75, 0x67, 0x73], [4], by decide⟩]

example : ((after claimSamples 4).resolve [0x6d, 0x75, 0x67], (after claimSamples 4).logs.length) = ([1, 2], 2) := by
  decide +kernel

theorem names_never_move_sample :
    (after claimSamples 2).resolve [0x6d, 0x75, 0x67] =
      ((firstClaim (claimSamples.take 2) [0x6d, 0x75, 0x67]).map Claim.terms).getD [] ∧
    (after claimSamples 2).ownerOf [0x6d, 0x75, 0x67] = ((firstClaim (claimSamples.take 2) [0x6d, 0x75, 0x67]).map
      fun c => (c.sender, c.timestamp % 2 ^ 64)).getD (0, 0) ∧
    (after claimSamples 2).isTaken [0x6d, 0x75, 0x67] = (firstClaim (claimSamples.take 2) [0x6d, 0x75, 0x67]).isSome ∧
    (after claimSamples 2).logs =
      (Firsts.newOnes Claim.name [] ((claimSamples.take 2).filter Claim.acceptable)).map Claim.log ∧
    (∀ c, claimSamples[2]? = some c → c.name = [0x6d, 0x75, 0x67] → ((∃ s', (after claimSamples 2).claim c = .ok s') ↔
      c.acceptable = true ∧ firstClaim (claimSamples.take 2) [0x6d, 0x75, 0x67] = none)) ∧
    ∀ m ≥ 2, (after claimSamples 2).isTaken [0x6d, 0x75, 0x67] = true →
      (after claimSamples m).resolve [0x6d, 0x75, 0x67] = (after claimSamples 2).resolve [0x6d, 0x75, 0x67] ∧
      (after claimSamples m).ownerOf [0x6d, 0x75, 0x67] = (after claimSamples 2).ownerOf [0x6d, 0x75, 0x67] :=
  names_never_move (by unfold CollisionFree; decide +kernel) 2

end Peal.Names

namespace Peal.Names
open Peal.Live (JsString)
open Peal.Coordinator (Text)
open Peal.Live.Page (trim isBlank)

/-! # One rule for names, written three times -/

/-- The server's. -/
def isValidName (name : Text) : Bool :=
  let b := Utf8.encode name
  if b.length < 3 ∨ 32 < b.length ∨ b.head? = some 0x2d ∨ b.getLast? = some 0x2d then false else b.all nameByte

def MIN_NAME_CHARS : Nat := 3

def MAX_NAME_CHARS : Nat := 32

def RESERVED_NAMES : List JsString :=
  ["api", "assets", "static", "public", "index", "favicon", "robots", "sitemap", "manifest"].map
    fun s => Utf16.encode s.toList

def hyphen : UInt16 := 0x2d

/-- A unit the page's pattern takes. -/
def nameUnit (u : UInt16) : Bool := nameByte u.toNat

section Page

variable (toLowerCase : JsString → JsString)

def normalizeName (input : JsString) : JsString := toLowerCase (trim input)

instance lawfulBEq_jsString : LawfulBEq JsString := inferInstance

/-- The page's. -/
def nameProblem (name : JsString) : Option String :=
  if name = [] then some "pick a name for the link"
  else if name ≠ normalizeName toLowerCase name then some "lowercase only"
  else if name.length < MIN_NAME_CHARS then some s!"at least {MIN_NAME_CHARS} characters"
  else if MAX_NAME_CHARS < name.length then some s!"at most {MAX_NAME_CHARS} characters"
  else if name.head? = some hyphen ∨ name.getLast? = some hyphen then some "cannot start or end with a hyphen"
  else if ¬name.all nameUnit then some "letters, numbers and hyphens only"
  else if name ∈ RESERVED_NAMES then some "that one is reserved, try another"
  else none

end Page

/-! ## The three agree -/

lemma nameByte_lt {n : Nat} (h : nameByte n = true) : n < 0x80 := by
  simp only [nameByte, Bool.or_eq_true, Bool.and_eq_true, decide_eq_true_eq, beq_iff_eq] at h
  omega

lemma encodeChar_name {c : Char} (h : ∀ b ∈ Utf8.encodeChar c, nameByte b = true) : nameByte c.toNat = true := by
  have hsmall : c.toNat < 0x80 := by
    by_contra hlarge
    have hlead : ∃ b ∈ Utf8.encodeChar c, 0x80 ≤ b := by
      unfold Utf8.encodeChar Utf8.encodeScalar
      rw [if_neg hlarge]
      split_ifs
      · exact ⟨0xC0 + c.toNat / 0x40, List.mem_cons_self, by omega⟩
      · exact ⟨0xE0 + c.toNat / 0x1000, List.mem_cons_self, by omega⟩
      · exact ⟨0xF0 + c.toNat / 0x40000, List.mem_cons_self, by omega⟩
    obtain ⟨b, hb, hle⟩ := hlead
    have hlt : b < 0x80 := nameByte_lt (h b hb)
    omega
  refine h c.toNat ?_
  unfold Utf8.encodeChar Utf8.encodeScalar
  rw [if_pos hsmall]
  exact List.mem_singleton_self _

lemma encode_name {name : Text} (h : ∀ c ∈ name, nameByte c.toNat = true) :
    Utf8.encode name = name.map Char.toNat ∧ Utf16.encode name = name.map fun c => UInt16.ofNat c.toNat := by
  induction name with
  | nil => exact ⟨rfl, rfl⟩
  | cons c rest ih =>
    obtain ⟨hc, hrest⟩ := List.forall_mem_cons.mp h
    have hlt : c.toNat < 0x80 := nameByte_lt hc
    have hchar : Utf8.encodeChar c = [c.toNat] := by
      unfold Utf8.encodeChar Utf8.encodeScalar
      rw [if_pos hlt]
    have hunit : Utf16.encodeChar c = [UInt16.ofNat c.toNat] := if_pos (hlt.trans (by decide))
    rw [Utf8.encode_cons, Utf16.encode_cons, (ih hrest).1, (ih hrest).2, hchar, hunit]
    exact ⟨rfl, rfl⟩

lemma mem_encode {name : Text} (h : ∀ b ∈ Utf8.encode name, nameByte b = true) :
    ∀ c ∈ name, nameByte c.toNat = true := by
  intro c hc
  exact encodeChar_name fun b hb => h b (List.mem_flatMap.mpr ⟨c, hc, hb⟩)

lemma isValidName_iff (name : Text) : isValidName name = true ↔ ValidName (Utf8.encode name) := by
  unfold isValidName
  dsimp only
  constructor
  · intro h
    split_ifs at h with hout
    simp only [not_or, not_lt] at hout
    obtain ⟨hleast, hmost, hfront, hback⟩ := hout
    exact ⟨hleast, hmost, hfront, hback, List.all_eq_true.mp h⟩
  · intro h
    have hleast : 3 ≤ (Utf8.encode name).length := h.least
    have hmost : (Utf8.encode name).length ≤ 32 := h.most
    rw [if_neg, List.all_eq_true]
    · exact h.bytes
    · simp only [not_or, not_lt]
      exact ⟨hleast, hmost, h.front, h.back⟩

lemma nameUnit_not_blank {u : UInt16} (h : nameUnit u = true) : isBlank u = false := by
  have hall : ∀ n : Fin 128, nameByte n = true → JsStrings.isWhiteSpace (Utf16.single (UInt16.ofNat n)) = false := by
    decide
  have hu := hall ⟨u.toNat, nameByte_lt h⟩ h
  rw [UInt16.ofNat_toNat] at hu
  exact hu

lemma trim_name {s : JsString} (h : ∀ u ∈ s, nameUnit u = true) : trim s = s := by
  have hkeep : ∀ t : JsString, (∀ u ∈ t, nameUnit u = true) → t.dropWhile isBlank = t := by
    intro t ht
    cases t with
    | nil => rfl
    | cons u rest =>
      rw [List.dropWhile_cons_of_neg]
      rw [nameUnit_not_blank (ht u List.mem_cons_self)]
      exact Bool.false_ne_true
  unfold trim
  rw [hkeep s h, hkeep s.reverse fun u hu => h u (List.mem_reverse.mp hu), List.reverse_reverse]

lemma exists_text {s : JsString} (h : ∀ u ∈ s, nameUnit u = true) :
    ∃ name : Text, s = Utf16.encode name ∧ Utf8.encode name = s.map UInt16.toNat ∧
      ∀ c ∈ name, nameByte c.toNat = true := by
  have hchar : ∀ u ∈ s, (Char.ofNat u.toNat).toNat = u.toNat := by
    intro u hu
    refine Utf8.toNat_ofNat (.inl ?_)
    have hlt : u.toNat < 0x80 := nameByte_lt (h u hu)
    omega
  have hnames : ∀ c ∈ s.map fun u => Char.ofNat u.toNat, nameByte c.toNat = true := by
    intro c hc
    obtain ⟨u, hu, rfl⟩ := List.mem_map.mp hc
    rw [hchar u hu]
    exact h u hu
  obtain ⟨hbytes, hunits⟩ := encode_name hnames
  refine ⟨s.map fun u => Char.ofNat u.toNat, ?_, ?_, hnames⟩
  · rw [hunits, List.map_map]
    refine (List.map_id s).symm.trans (List.map_congr_left fun u hu => ?_)
    rw [Function.comp_apply, hchar u hu, UInt16.ofNat_toNat, id]
  · rw [hbytes, List.map_map]
    exact List.map_congr_left fun u hu => hchar u hu

lemma toNat_eq_hyphen {u : UInt16} : u.toNat = 0x2d ↔ u = hyphen :=
  ⟨fun h => UInt16.toNat_inj.mp h, fun h => by rw [h]; rfl⟩

/-- What the page lets through is what the contract takes, its own paths apart, and the server looks up what the
contract takes. -/
theorem name_rules_agree (toLowerCase : JsString → JsString)
    (hlower : ∀ s : JsString, (∀ u ∈ s, nameUnit u = true) → toLowerCase s = s) :
    (∀ name : Text, isValidName name = true ↔ requireValidName (Utf8.encode name) = .ok ()) ∧
      ∀ s : JsString, nameProblem toLowerCase s = none ↔
        ∃ name : Text, s = Utf16.encode name ∧ requireValidName (Utf8.encode name) = .ok () ∧ s ∉ RESERVED_NAMES := by
  refine ⟨fun name => (isValidName_iff name).trans requireValidName_eq_ok.symm, fun s => ?_⟩
  simp only [requireValidName_eq_ok]
  have hends : ∀ o : Option UInt16, o = some hyphen ↔ o.map UInt16.toNat = some 0x2d := by
    intro o
    cases o with
    | none => simp
    | some u => rw [Option.some.injEq, Option.map_some, Option.some.injEq, toNat_eq_hyphen]
  unfold nameProblem
  constructor
  · intro h
    split_ifs at h with hempty hlowered hleast hmost hedge hunits hreserved
    have hall : ∀ u ∈ s, nameUnit u = true := List.all_eq_true.mp hunits
    obtain ⟨name, hs, hbytes, hname⟩ := exists_text hall
    rw [not_or, hends, hends] at hedge
    refine ⟨name, hs, ⟨?_, ?_, ?_, ?_, ?_⟩, hreserved⟩
    · rw [hbytes, List.length_map]
      exact not_lt.mp hleast
    · rw [hbytes, List.length_map]
      exact not_lt.mp hmost
    · rw [hbytes, List.head?_map]
      exact hedge.1
    · rw [hbytes, List.getLast?_map]
      exact hedge.2
    · rw [(encode_name hname).1]
      exact List.forall_mem_map.mpr hname
  · rintro ⟨name, rfl, hvalid, hreserved⟩
    have hname : ∀ c ∈ name, nameByte c.toNat = true := mem_encode hvalid.bytes
    obtain ⟨hbytes, hunits⟩ := encode_name hname
    have hall : ∀ u ∈ Utf16.encode name, nameUnit u = true := by
      rw [hunits]
      refine List.forall_mem_map.mpr fun c hc => ?_
      unfold nameUnit
      rw [Utf16.toNat_ofNat ((nameByte_lt (hname c hc)).trans (by decide))]
      exact hname c hc
    have hsame : Utf8.encode name = (Utf16.encode name).map UInt16.toNat := by
      rw [hbytes, hunits, List.map_map]
      refine List.map_congr_left fun c hc => ?_
      rw [Function.comp_apply, Utf16.toNat_ofNat ((nameByte_lt (hname c hc)).trans (by decide))]
    have hleast : MIN_NAME_CHARS ≤ (Utf8.encode name).length := hvalid.least
    have hmost : (Utf8.encode name).length ≤ MAX_NAME_CHARS := hvalid.most
    have hfront := hvalid.front
    have hback := hvalid.back
    rw [hsame, List.length_map] at hleast hmost
    rw [hsame, List.head?_map, Ne, ← hends] at hfront
    rw [hsame, List.getLast?_map, Ne, ← hends] at hback
    have hne : Utf16.encode name ≠ [] := by
      intro hnil
      rw [hnil] at hleast
      exact absurd hleast (by decide)
    have hnormal : Utf16.encode name = normalizeName toLowerCase (Utf16.encode name) := by
      unfold normalizeName
      rw [trim_name hall, hlower _ hall]
    rw [if_neg hne, if_neg (not_not.mpr hnormal), if_neg (not_lt.mpr hleast), if_neg (not_lt.mpr hmost),
      if_neg (not_or.mpr ⟨hfront, hback⟩), if_neg (not_not.mpr (List.all_eq_true.mpr hall)), if_neg hreserved]

/-- Lower case of the Latin letters without marks. -/
def asciiLower (s : JsString) : JsString := s.map fun u => if 0x41 ≤ u.toNat ∧ u.toNat ≤ 0x5a then u + 32 else u

lemma asciiLower_name (s : JsString) (h : ∀ u ∈ s, nameUnit u = true) : asciiLower s = s := by
  refine (List.map_congr_left fun u hu => ?_).trans (List.map_id s)
  rw [if_neg, id]
  have hu := h u hu
  simp only [nameUnit, nameByte, Bool.or_eq_true, Bool.and_eq_true, decide_eq_true_eq, beq_iff_eq] at hu
  omega

theorem name_rules_agree_sample :
    (∀ name : Text, isValidName name = true ↔ requireValidName (Utf8.encode name) = .ok ()) ∧
    ∀ s : JsString, nameProblem asciiLower s = none ↔
      ∃ name : Text, s = Utf16.encode name ∧ requireValidName (Utf8.encode name) = .ok () ∧ s ∉ RESERVED_NAMES :=
  name_rules_agree asciiLower asciiLower_name

end Peal.Names
