import Peal.Library.Fallible
import Peal.Library.Utf16
import Peal.Live.Record

open Peal.Coordinator (Text Bytes)
open Peal.Fallible Peal.Encoding
open Peal.Links (fromBeBytes toLeBytes)

namespace Peal.Live

/-! # Writing a record, and reading it back -/

/-- Strings as a page has them, which may hold half of a surrogate pair. -/
abbrev JsString := List UInt16

structure JsOrigin where
  code : JsString
  amountMinor : ℚ
  decimals : ℚ
  deriving DecidableEq

/-- A bid on the page: numbers are any finite ones, and the contact an array of bytes. -/
structure Bid where
  auctionId : JsString
  amountMinor : ℚ
  name : JsString
  contact : Option Bytes
  origin : Option JsOrigin
  deriving DecidableEq

def BidOrigin.onPage (o : BidOrigin) : JsOrigin := ⟨Utf16.encode o.code, o.amountMinor, o.decimals⟩

/-- What the decoder hands to the page. -/
def BidRecord.onPage (b : BidRecord) : Bid where
  auctionId := Utf16.encode b.auctionId
  amountMinor := b.amountMinor
  name := Utf16.encode b.name
  contact := b.contact
  origin := b.origin.map BidOrigin.onPage

/-- `TextEncoder`. -/
def textEncode (s : JsString) : Bytes := Utf8.encode (Utf16.decode s)

/-- `setBigUint64`. -/
def beWord (n : Nat) : Bytes := (toLeBytes 8 n).reverse

def checkOrigin (o : JsOrigin) : Except String Unit := do
  require (o.code.length = 3 ∧ o.code.all fun c => 0x41 ≤ c.toNat && c.toNat ≤ 0x5A)
    "a currency code is three uppercase letters"
  require (o.amountMinor.isInt ∧ 0 < o.amountMinor) "the amount you typed must be a positive integer of minor units"
  require (o.amountMinor ≤ MAX_AMOUNT_MINOR) s!"amount exceeds {MAX_AMOUNT_MINOR}"
  require (o.decimals.isInt ∧ 0 ≤ o.decimals ∧ o.decimals ≤ 4) "decimals must be an integer from 0 to 4"

def originBlock : Option JsOrigin → Bytes
  | none => List.replicate ORIGIN_BYTES 0
  | some o => o.code.map UInt16.toNat ++ beWord o.amountMinor.num.toNat ++ [o.decimals.num.toNat]

/-- Each variable field after its length, then zeros up to the last block. -/
def layout (amount : Nat) (id name contact block : Bytes) : Bytes :=
  RECORD_V3 :: beWord amount ++ id.length :: id ++ name.length :: name ++ contact.length :: contact ++
    List.replicate (ORIGIN_AT - (12 + id.length + name.length + contact.length)) 0 ++ block

def encodeBid (bid : Bid) : Except String Bytes := do
  require bid.amountMinor.isInt "amount must be an integer of minor units"
  require (0 < bid.amountMinor) "amount must be positive"
  require (bid.amountMinor ≤ MAX_AMOUNT_MINOR) s!"amount exceeds {MAX_AMOUNT_MINOR}"
  require (¬Utf16.loneSurrogate bid.auctionId) "auction id is not valid text"
  require (¬Utf16.loneSurrogate bid.name) "that name contains an unpaired character"
  let id := textEncode bid.auctionId
  let name := textEncode bid.name
  require (id.length ≠ 0) "auction id is required"
  require (id.length ≤ MAX_AUCTION_ID_BYTES) "auction id is too long"
  require (name.length ≤ MAX_NAME_BYTES) s!"name exceeds {MAX_NAME_BYTES} bytes"
  let contact := bid.contact.getD []
  require (contact.length ≤ 255) "sealed contact is too long"
  bid.origin.forM checkOrigin
  let used := 10 + id.length + 1 + name.length + 1 + contact.length
  require (used ≤ ORIGIN_AT) s!"record needs {used} bytes, the format holds {ORIGIN_AT}"
  return layout bid.amountMinor.num.toNat id name contact (originBlock bid.origin)

/-! ### The layout -/

/-- What the lengths of a record allow. -/
structure Fits (amount : Nat) (id name contact : Bytes) : Prop where
  positive : amount ≠ 0 ∧ amount ≤ MAX_AMOUNT_MINOR
  named : id ≠ [] ∧ id.length ≤ MAX_AUCTION_ID_BYTES
  short : name.length ≤ MAX_NAME_BYTES
  used : 12 + id.length + name.length + contact.length ≤ ORIGIN_AT

variable {amount : Nat} {id name contact block bytes : Bytes}

lemma beWord_length (n : Nat) : (beWord n).length = 8 := by
  rw [beWord, List.length_reverse, Links.toLeBytes_length]

lemma fromBeBytes_beWord {n : Nat} (h : n ≤ MAX_AMOUNT_MINOR) : fromBeBytes (beWord n) = n := by
  have hle : Links.fromLeBytes (toLeBytes 8 n) = n :=
    Links.fromLeBytes_toLeBytes (lt_of_le_of_lt h (by decide))
  rwa [Links.fromLeBytes] at hle

lemma beWord_fromBeBytes {a : Bytes} (hlength : a.length = 8) (h : ∀ b ∈ a, b < 256) : beWord (fromBeBytes a) = a := by
  have hreverse : ∀ b ∈ a.reverse, b < 256 := fun b hb => h b (List.mem_reverse.mp hb)
  have hback := Links.toLeBytes_fromLeBytes hreverse
  rw [Links.fromLeBytes, List.reverse_reverse, List.length_reverse, hlength] at hback
  rw [beWord, hback, List.reverse_reverse]

lemma layout_length (h : Fits amount id name contact) (hblock : block.length = ORIGIN_BYTES) :
    (layout amount id name contact block).length = RECORD_BYTES_V3 := by
  have hused := h.used
  simp only [layout, List.length_append, List.length_cons, List.length_replicate, beWord_length, hblock]
  unfold ORIGIN_AT RECORD_BYTES_V3 ORIGIN_BYTES at *
  omega

lemma slice_append {front mid back : Bytes} {k m : Nat} (hk : front.length = k) (hm : k + mid.length = m) :
    slice (front ++ mid ++ back) k m = mid := by
  rw [slice, List.append_assoc, List.drop_left' hk, List.take_left' (by omega)]

lemma field_append {front : Bytes} (field back : Bytes) (x : Nat) {k : Nat} (hk : front.length = k) :
    (front ++ x :: field ++ back)[k]? = some x ∧
      slice (front ++ x :: field ++ back) (k + 1) (k + 1 + field.length) = field := by
  constructor
  · rw [List.append_assoc, List.getElem?_append_right hk.le, hk, Nat.sub_self]
    rfl
  · have hshift : front ++ x :: field ++ back = (front ++ [x]) ++ field ++ back := by simp
    rw [hshift]
    exact slice_append (by rw [List.length_append, hk]; rfl) rfl

lemma layout_parts (h : Fits amount id name contact) (hb : bytes = layout amount id name contact block) :
    bytes.head? = some RECORD_V3 ∧ slice bytes 1 9 = beWord amount ∧ bytes[9]? = some id.length ∧
    slice bytes 10 (10 + id.length) = id ∧ bytes[10 + id.length]? = some name.length ∧
    slice bytes (10 + id.length + 1) (10 + id.length + 1 + name.length) = name ∧
    bytes[10 + id.length + 1 + name.length]? = some contact.length ∧
    slice bytes (10 + id.length + 1 + name.length + 1) (10 + id.length + 1 + name.length + 1 + contact.length) =
      contact ∧
    slice bytes (10 + id.length + 1 + name.length + 1 + contact.length) ORIGIN_AT =
      List.replicate (ORIGIN_AT - (12 + id.length + name.length + contact.length)) 0 ∧
    bytes.drop ORIGIN_AT = block := by
  have hw := beWord_length amount
  have hused := h.used
  let zeros := List.replicate (ORIGIN_AT - (12 + id.length + name.length + contact.length)) 0
  let first := RECORD_V3 :: beWord amount
  let second := first ++ id.length :: id
  let third := second ++ name.length :: name
  let fourth := third ++ contact.length :: contact
  have h1 : first.length = 9 := by simp only [first, List.length_cons, hw]
  have h2 : second.length = 10 + id.length := by
    simp only [second, List.length_append, List.length_cons, h1]
    omega
  have h3 : third.length = 10 + id.length + 1 + name.length := by
    simp only [third, List.length_append, List.length_cons, h2]
    omega
  have h4 : fourth.length = 10 + id.length + 1 + name.length + 1 + contact.length := by
    simp only [fourth, List.length_append, List.length_cons, h3]
    omega
  have hb1 : bytes = first ++ id.length :: id ++ (name.length :: name ++ (contact.length :: contact ++ (zeros ++ block))) := by
    rw [hb]
    simp only [layout, first, zeros, List.append_assoc, List.cons_append]
  have hb2 : bytes = second ++ name.length :: name ++ (contact.length :: contact ++ (zeros ++ block)) := by
    rw [hb]
    simp only [layout, first, second, zeros, List.append_assoc, List.cons_append]
  have hb3 : bytes = third ++ contact.length :: contact ++ (zeros ++ block) := by
    rw [hb]
    simp only [layout, first, second, third, zeros, List.append_assoc, List.cons_append]
  obtain ⟨hid, hidField⟩ := field_append id (name.length :: name ++ (contact.length :: contact ++ (zeros ++ block)))
    id.length h1
  obtain ⟨hname, hnameField⟩ := field_append name (contact.length :: contact ++ (zeros ++ block)) name.length h2
  obtain ⟨hcontact, hcontactField⟩ := field_append contact (zeros ++ block) contact.length h3
  rw [← hb1] at hid hidField
  rw [← hb2] at hname hnameField
  rw [← hb3] at hcontact hcontactField
  have hzeros : (fourth ++ zeros).length = ORIGIN_AT := by
    simp only [List.length_append, h4, zeros, List.length_replicate]
    omega
  refine ⟨by rw [hb1]; rfl, ?_, hid, hidField, hname, hnameField, hcontact, hcontactField, ?_, ?_⟩
  · have hb0 : bytes = [RECORD_V3] ++ beWord amount ++
        (id.length :: id ++ (name.length :: name ++ (contact.length :: contact ++ (zeros ++ block)))) := by
      rw [hb1]
      simp only [first, List.append_assoc, List.cons_append, List.nil_append]
    rw [hb0]
    exact slice_append rfl (by rw [hw])
  · rw [show bytes = fourth ++ zeros ++ block from hb]
    refine slice_append h4 ?_
    rw [← h4, ← List.length_append]
    exact hzeros
  · rw [show bytes = fourth ++ zeros ++ block from hb]
    exact List.drop_left' hzeros

lemma at_length {front back : Bytes} {x y k : Nat} (hk : front.length = k) (h : (front ++ x :: back)[k]? = some y) :
    x = y := by
  rw [List.getElem?_append_right hk.le, hk, Nat.sub_self] at h
  exact Option.some.inj h

lemma layout_exists (hhead : bytes.head? = some RECORD_V3) (hlength : bytes.length = RECORD_BYTES_V3)
    (hbytes : ∀ b ∈ bytes, b < 256) {idLen nameLen contactLen : Nat} (hid : bytes[9]? = some idLen)
    (hname : bytes[10 + idLen]? = some nameLen) (hcontact : bytes[10 + idLen + 1 + nameLen]? = some contactLen)
    (hused : 12 + idLen + nameLen + contactLen ≤ ORIGIN_AT)
    (hzeros : (slice bytes (10 + idLen + 1 + nameLen + 1 + contactLen) ORIGIN_AT).all (· = 0)) :
    ∃ id name contact block, id.length = idLen ∧ name.length = nameLen ∧ contact.length = contactLen ∧
      block.length = ORIGIN_BYTES ∧ bytes = layout (fromBeBytes (slice bytes 1 9)) id name contact block := by
  unfold ORIGIN_AT RECORD_BYTES_V3 ORIGIN_BYTES at *
  obtain ⟨front, r, hfront, hb⟩ := cut_at (b := bytes) (k := 9) (by omega)
  have hr : r.length = 311 := by
    rw [hb, List.length_append, hfront] at hlength
    omega
  obtain ⟨v, a, rfl⟩ := List.exists_cons_of_length_pos (l := front) (by omega)
  obtain ⟨i, r, rfl⟩ := List.exists_cons_of_length_pos (l := r) (by omega)
  obtain rfl : v = RECORD_V3 := by
    rw [hb] at hhead
    exact Option.some.inj hhead
  obtain rfl := at_length hfront (hb ▸ hid)
  rw [List.length_cons] at hr hfront
  obtain ⟨id, r, hidLength, rfl⟩ := cut_at (b := r) (k := i) (by omega)
  rw [List.length_append] at hr
  obtain ⟨n, r, rfl⟩ := List.exists_cons_of_length_pos (l := r) (by omega)
  rw [List.length_cons] at hr
  have hb2 : bytes = (RECORD_V3 :: a ++ i :: id) ++ n :: r := by
    rw [hb]
    simp only [List.append_assoc, List.cons_append]
  have hfront2 : (RECORD_V3 :: a ++ i :: id).length = 10 + i := by
    rw [List.length_append, List.length_cons, List.length_cons, hfront, hidLength]
    omega
  obtain rfl := at_length hfront2 (hb2 ▸ hname)
  obtain ⟨name, r, hnameLength, rfl⟩ := cut_at (b := r) (k := n) (by omega)
  rw [List.length_append] at hr
  obtain ⟨c, r, rfl⟩ := List.exists_cons_of_length_pos (l := r) (by omega)
  rw [List.length_cons] at hr
  have hb3 : bytes = (RECORD_V3 :: a ++ i :: id ++ n :: name) ++ c :: r := by
    rw [hb2]
    simp only [List.append_assoc, List.cons_append]
  have hfront3 : (RECORD_V3 :: a ++ i :: id ++ n :: name).length = 10 + i + 1 + n := by
    rw [List.length_append, hfront2, List.length_cons, hnameLength]
    omega
  obtain rfl := at_length hfront3 (hb3 ▸ hcontact)
  obtain ⟨contact, r, hcontactLength, rfl⟩ := cut_at (b := r) (k := c) (by omega)
  rw [List.length_append] at hr
  obtain ⟨zeros, block, hzerosLength, rfl⟩ := cut_at (b := r) (k := 320 - 12 - (12 + i + n + c)) (by omega)
  rw [List.length_append] at hr
  have hb4 : bytes = (RECORD_V3 :: a ++ i :: id ++ n :: name ++ c :: contact) ++ zeros ++ block := by
    rw [hb3]
    simp only [List.append_assoc, List.cons_append]
  have hfront4 : (RECORD_V3 :: a ++ i :: id ++ n :: name ++ c :: contact).length = 10 + i + 1 + n + 1 + c := by
    rw [List.length_append, hfront3, List.length_cons, hcontactLength]
    omega
  have hzerosEq : zeros = List.replicate (320 - 12 - (12 + i + n + c)) 0 := by
    rw [hb4, slice_append hfront4 (by omega), List.all_eq_true] at hzeros
    exact List.eq_replicate_iff.mpr ⟨hzerosLength, fun b hb => of_decide_eq_true (hzeros b hb)⟩
  have hword : beWord (fromBeBytes (slice bytes 1 9)) = a := by
    have hb0 : bytes = [RECORD_V3] ++ a ++ (i :: id ++ n :: name ++ c :: contact ++ zeros ++ block) := by
      rw [hb4]
      simp only [List.append_assoc, List.cons_append, List.nil_append]
    have hslice : slice bytes 1 9 = a := by
      rw [hb0]
      exact slice_append rfl (by omega)
    rw [hslice]
    refine beWord_fromBeBytes (by omega) fun b hb' => hbytes b ?_
    rw [hb0]
    exact List.mem_append_left _ (List.mem_append_right _ hb')
  refine ⟨id, name, contact, block, hidLength, hnameLength, hcontactLength, by omega, ?_⟩
  rw [layout, hword, hidLength, hnameLength, hcontactLength]
  rw [hzerosEq] at hb4
  exact hb4

/-! ### The block of the currency -/

lemma isInt_natCast (n : Nat) : (n : ℚ).isInt = true := by
  rw [Rat.isInt, Rat.den_natCast]
  rfl

lemma num_natCast (n : Nat) : (n : ℚ).num.toNat = n := by
  rw [Rat.num_natCast]
  rfl

lemma eq_natCast {q : ℚ} (h : q.isInt = true) (hq : 0 ≤ q) : q = (q.num.toNat : ℚ) := by
  rw [Rat.isInt, beq_iff_eq] at h
  have hnum : ((q.num.toNat : Int) : ℚ) = q := by
    rw [Int.toNat_of_nonneg (Rat.num_nonneg.mpr hq)]
    exact Rat.coe_int_num_of_den_eq_one h
  exact_mod_cast hnum.symm

def isUpper (n : Nat) : Bool := 0x41 ≤ n && n ≤ 0x5A

lemma upper_units {code : Text} (h : ∀ c ∈ code, isUpper c.toNat = true) :
    Utf16.encode code = code.map fun c => UInt16.ofNat c.toNat := by
  induction code with
  | nil => rfl
  | cons c code ih =>
    obtain ⟨hc, hrest⟩ := List.forall_mem_cons.mp h
    rw [isUpper, Bool.and_eq_true, decide_eq_true_eq, decide_eq_true_eq] at hc
    rw [Utf16.encode_cons, ih hrest, (Utf16.encodeChar_small (show c.toNat < 0x10000 by omega)).1]
    rfl

lemma upper_toNat {code : Text} (h : ∀ c ∈ code, isUpper c.toNat = true) :
    (Utf16.encode code).map UInt16.toNat = code.map Char.toNat := by
  rw [upper_units h, List.map_map]
  refine List.map_congr_left fun c hc => ?_
  have hcode := h c hc
  rw [isUpper, Bool.and_eq_true, decide_eq_true_eq, decide_eq_true_eq] at hcode
  exact Utf16.toNat_ofNat (by omega)

/-- What the block of a bid may hold. -/
structure BidOrigin.Allowed (o : BidOrigin) : Prop where
  code : o.code.length = 3 ∧ ∀ c ∈ o.code, isUpper c.toNat = true
  amount : o.amountMinor ≠ 0 ∧ o.amountMinor ≤ MAX_AMOUNT_MINOR
  decimals : o.decimals ≤ 4

lemma upper_decode {u : JsString} (h : ∀ c ∈ u, isUpper c.toNat = true) : Utf16.encode (Utf16.decode u) = u ∧
    (Utf16.decode u).length = u.length ∧ ∀ c ∈ Utf16.decode u, isUpper c.toNat = true := by
  have hback : ∀ c ∈ u, (Char.ofNat c.toNat).toNat = c.toNat := by
    intro c hc
    have hcode := h c hc
    rw [isUpper, Bool.and_eq_true, decide_eq_true_eq, decide_eq_true_eq] at hcode
    rw [Char.ofNat, dif_pos (show c.toNat.isValidChar from .inl (by omega))]
    rfl
  have hall : ∀ d ∈ u.map (fun c => Char.ofNat c.toNat), isUpper d.toNat = true := by
    intro d hd
    obtain ⟨c, hc, rfl⟩ := List.mem_map.mp hd
    rw [hback c hc]
    exact h c hc
  have hencode : Utf16.encode (u.map fun c => Char.ofNat c.toNat) = u := by
    rw [upper_units hall, List.map_map]
    refine (List.map_congr_left fun c hc => ?_).trans (List.map_id u)
    show UInt16.ofNat (Char.ofNat c.toNat).toNat = c
    rw [hback c hc, UInt16.ofNat_toNat]
  have hdecode : Utf16.decode u = u.map fun c => Char.ofNat c.toNat := by
    conv_lhs => rw [← hencode]
    exact Utf16.decode_encode _
  rw [hdecode]
  exact ⟨hencode, List.length_map .., hall⟩

lemma checkOrigin_eq_ok {o : JsOrigin} : checkOrigin o = .ok () ↔
    (o.code.length = 3 ∧ ∀ c ∈ o.code, isUpper c.toNat = true) ∧ (o.amountMinor.isInt = true ∧ 0 < o.amountMinor) ∧
      o.amountMinor ≤ MAX_AMOUNT_MINOR ∧ o.decimals.isInt = true ∧ 0 ≤ o.decimals ∧ o.decimals ≤ 4 := by
  simp only [checkOrigin, bind_eq_ok, require_eq_ok, exists_const, List.all_eq_true, isUpper]

lemma allowed_amount {n : Nat} : 0 < (n : ℚ) ∧ (n : ℚ) ≤ MAX_AMOUNT_MINOR ↔ n ≠ 0 ∧ n ≤ MAX_AMOUNT_MINOR := by
  rw [Nat.cast_pos, Nat.cast_le, Nat.pos_iff_ne_zero]

lemma checkOrigin_onPage {o : BidOrigin} : checkOrigin o.onPage = .ok () ↔ o.Allowed := by
  rw [checkOrigin_eq_ok]
  constructor
  · rintro ⟨⟨hlength, hupper⟩, ⟨-, hpos⟩, hmax, -, -, hdecimals⟩
    obtain ⟨-, hlen, hall⟩ := upper_decode hupper
    rw [BidOrigin.onPage, Utf16.decode_encode] at hlen hall
    have hfour : (o.decimals : ℚ) ≤ 4 := hdecimals
    exact ⟨⟨hlen.trans hlength, hall⟩, allowed_amount.mp ⟨hpos, hmax⟩, by exact_mod_cast hfour⟩
  · rintro ⟨⟨hlength, hupper⟩, hamount, hdecimals⟩
    obtain ⟨hpos, hmax⟩ := allowed_amount.mpr hamount
    have hunits := upper_units hupper
    refine ⟨⟨?_, ?_⟩, ⟨isInt_natCast _, hpos⟩, hmax, isInt_natCast _, Nat.cast_nonneg _, ?_⟩
    · rw [BidOrigin.onPage, hunits, List.length_map, hlength]
    · have hmap := upper_toNat hupper
      intro c hc
      have hmem := List.mem_map_of_mem (f := UInt16.toNat) hc
      rw [BidOrigin.onPage, hmap] at hmem
      obtain ⟨d, hd, heq⟩ := List.mem_map.mp hmem
      rw [← heq]
      exact hupper d hd
    · show (o.decimals : ℚ) ≤ 4
      exact_mod_cast hdecimals

lemma checkOrigin_ok {o : JsOrigin} (h : checkOrigin o = .ok ()) : ∃ b : BidOrigin, b.onPage = o := by
  obtain ⟨⟨-, hupper⟩, ⟨hint, hpos⟩, -, hdec, hnonneg, -⟩ := checkOrigin_eq_ok.mp h
  refine ⟨⟨Utf16.decode o.code, o.amountMinor.num.toNat, o.decimals.num.toNat⟩, ?_⟩
  rw [BidOrigin.onPage, (upper_decode hupper).1, ← eq_natCast hint hpos.le, ← eq_natCast hdec hnonneg]

lemma originBlock_some {o : BidOrigin} (h : o.Allowed) :
    originBlock (some o.onPage) = o.code.map Char.toNat ++ beWord o.amountMinor ++ [o.decimals] := by
  rw [originBlock, BidOrigin.onPage]
  dsimp only
  rw [upper_toNat h.code.2, num_natCast, num_natCast]

lemma originBlock_length {o : Option BidOrigin} (h : ∀ x ∈ o, x.Allowed) :
    (originBlock (o.map BidOrigin.onPage)).length = ORIGIN_BYTES := by
  cases o with
  | none => rfl
  | some x =>
    have hx := h x rfl
    rw [Option.map_some, originBlock_some hx, List.length_append, List.length_append, List.length_map, hx.code.1, beWord_length]
    rfl

lemma upper_bytes {code : Bytes} (h : ∀ c ∈ code, isUpper c = true) :
    (code.map Char.ofNat).map Char.toNat = code ∧ ∀ c ∈ code.map Char.ofNat, isUpper c.toNat = true := by
  have hback : ∀ n ∈ code, (Char.ofNat n).toNat = n := by
    intro n hn
    have hcode := h n hn
    rw [isUpper, Bool.and_eq_true, decide_eq_true_eq, decide_eq_true_eq] at hcode
    rw [Char.ofNat, dif_pos (show n.isValidChar from .inl (by omega))]
    rfl
  constructor
  · rw [List.map_map]
    exact (List.map_congr_left hback).trans (List.map_id code)
  · intro c hc
    obtain ⟨n, hn, rfl⟩ := List.mem_map.mp hc
    rw [hback n hn]
    exact h n hn

lemma guard_eq_some {p : Prop} [Decidable p] {u : Unit} : (guard p : Option Unit) = some u ↔ p := by
  unfold guard
  split_ifs with h
  · exact ⟨fun _ => h, fun _ => rfl⟩
  · exact ⟨(fun heq => by cases heq), fun hp => absurd hp h⟩

lemma readOrigin_cases {code word : Bytes} {d : Nat} {o : Option BidOrigin}
    (hdrop : bytes.drop ORIGIN_AT = code ++ word ++ [d]) (hcode : code.length = 3) (hword : word.length = 8) :
    readOrigin bytes = some o ↔
      (code = [0, 0, 0] ∧ (∀ b ∈ word ++ [d], b = 0) ∧ o = none) ∨
      (code ≠ [0, 0, 0] ∧ (∀ c ∈ code, isUpper c = true) ∧
        (fromBeBytes word ≠ 0 ∧ fromBeBytes word ≤ MAX_AMOUNT_MINOR) ∧ d ≤ 4 ∧
        o = some ⟨code.map Char.ofNat, fromBeBytes word, d⟩) := by
  have hfirst : slice bytes ORIGIN_AT (ORIGIN_AT + 3) = code := by
    rw [slice, hdrop, Nat.add_sub_cancel_left, List.append_assoc, List.take_left' hcode]
  have hrest : bytes.drop (ORIGIN_AT + 3) = word ++ [d] := by
    rw [← List.drop_drop, hdrop, List.append_assoc, List.drop_left' hcode]
  have hamount : slice bytes (ORIGIN_AT + 3) (ORIGIN_AT + 11) = word := by
    rw [slice, hrest]
    exact List.take_left' hword
  have hlast : bytes[ORIGIN_AT + 11]? = some d := by
    rw [← List.getElem?_drop, hdrop, List.getElem?_append_right (by rw [List.length_append]; omega), List.length_append,
      hcode, hword]
    rfl
  unfold readOrigin
  rw [hfirst, hrest, hamount, hlast]
  dsimp only
  by_cases hzero : code = [0, 0, 0]
  · rw [if_pos hzero]
    by_cases hall : ∀ b ∈ word ++ [d], b = 0
    · rw [if_pos (List.all_eq_true.mpr fun b hb => decide_eq_true (hall b hb))]
      constructor
      · intro h
        exact .inl ⟨hzero, hall, (Option.some.inj h).symm⟩
      · rintro (⟨-, -, rfl⟩ | ⟨hne, -⟩)
        · rfl
        · exact absurd hzero hne
    · rw [if_neg fun hno => hall fun b hb => of_decide_eq_true (List.all_eq_true.mp hno b hb)]
      constructor
      · intro h
        cases h
      · rintro (⟨-, hyes, -⟩ | ⟨hne, -⟩)
        · exact absurd hyes hall
        · exact absurd hzero hne
  · rw [if_neg hzero]
    simp only [Option.bind_eq_bind, Option.bind_eq_some_iff, guard_eq_some, exists_const, Option.some.injEq,
      exists_eq_left', Option.pure_def, List.all_eq_true]
    constructor
    · rintro ⟨hupper, hok, hd, rfl⟩
      exact .inr ⟨hzero, hupper, hok, hd, rfl⟩
    · rintro (⟨hyes, -⟩ | ⟨-, hupper, hok, hd, rfl⟩)
      · exact absurd hyes hzero
      · exact ⟨hupper, hok, hd, rfl⟩

lemma readOrigin_eq_some {o : Option BidOrigin} (hdrop : bytes.drop ORIGIN_AT = block)
    (hlength : block.length = ORIGIN_BYTES) (hblock : ∀ b ∈ block, b < 256) :
    readOrigin bytes = some o ↔ block = originBlock (o.map BidOrigin.onPage) ∧ ∀ x ∈ o, x.Allowed := by
  obtain ⟨code, r, hcode, rfl⟩ := cut_at (b := block) (k := 3) (by rw [hlength]; decide)
  rw [List.length_append, hcode] at hlength
  unfold ORIGIN_BYTES at hlength
  obtain ⟨word, r, hword, rfl⟩ := cut_at (b := r) (k := 8) (by omega)
  rw [List.length_append, hword] at hlength
  obtain ⟨d, rfl⟩ := List.length_eq_one_iff.mp (show r.length = 1 by omega)
  rw [← List.append_assoc] at hdrop hblock ⊢
  have hbytes : ∀ b ∈ word, b < 256 := fun b hb => hblock b (List.mem_append_left _ (List.mem_append_right _ hb))
  rw [readOrigin_cases hdrop hcode hword]
  constructor
  · rintro (⟨rfl, hzero, rfl⟩ | ⟨-, hupper, hamount, hd, rfl⟩)
    · refine ⟨?_, fun x hx => by cases hx⟩
      have hrest : word ++ [d] = List.replicate 9 0 :=
        List.eq_replicate_iff.mpr ⟨by rw [List.length_append, hword]; rfl, hzero⟩
      rw [List.append_assoc, hrest]
      rfl
    · obtain ⟨hback, hletters⟩ := upper_bytes hupper
      have hallowed : BidOrigin.Allowed ⟨code.map Char.ofNat, fromBeBytes word, d⟩ :=
        ⟨⟨(List.length_map ..).trans hcode, hletters⟩, hamount, hd⟩
      refine ⟨?_, fun x hx => Option.some.inj hx ▸ hallowed⟩
      rw [Option.map_some, originBlock_some hallowed, hback, beWord_fromBeBytes hword hbytes]
  · rintro ⟨hblock', hallowed⟩
    cases o with
    | none =>
      have hzeros : code ++ (word ++ [d]) = [0, 0, 0] ++ List.replicate 9 0 := (List.append_assoc ..).symm.trans hblock'
      obtain ⟨hfirst, hrest⟩ := List.append_inj hzeros hcode
      refine .inl ⟨hfirst, fun b hb => ?_, rfl⟩
      rw [hrest] at hb
      exact List.eq_of_mem_replicate hb
    | some x =>
      have hx := hallowed x rfl
      rw [Option.map_some, originBlock_some hx] at hblock'
      obtain ⟨hfront, hlast⟩ := List.append_inj' hblock' rfl
      obtain ⟨hfirst, hsecond⟩ := List.append_inj hfront (by rw [hcode, List.length_map, hx.code.1])
      obtain rfl := (List.cons.inj hlast).1
      subst hfirst hsecond
      have hupper : ∀ c ∈ x.code.map Char.toNat, isUpper c = true := fun c hc => by
        obtain ⟨l, hl, rfl⟩ := List.mem_map.mp hc
        exact hx.code.2 l hl
      have hletters : (x.code.map Char.toNat).map Char.ofNat = x.code := by
        rw [List.map_map]
        exact (List.map_congr_left fun c _ => Char.ofNat_toNat c).trans (List.map_id _)
      refine .inr ⟨?_, hupper, ?_, hx.decimals, ?_⟩
      · intro hzero
        have hbad := hupper 0 (by rw [hzero]; exact List.mem_cons_self)
        cases hbad
      · rw [fromBeBytes_beWord hx.amount.2]
        exact hx.amount
      · rw [hletters, fromBeBytes_beWord hx.amount.2]

/-! ### Reading a record -/

lemma decodeBidWith_steps {text : Bytes → Option Text} {r : BidRecord} (hhead : bytes.head? = some RECORD_V3) :
    decodeBidWith text bytes = some r ↔ bytes.length = RECORD_BYTES_V3 ∧
      (fromBeBytes (slice bytes 1 9) ≠ 0 ∧ fromBeBytes (slice bytes 1 9) ≤ MAX_AMOUNT_MINOR) ∧
      ∃ idLen, bytes[9]? = some idLen ∧ (idLen ≠ 0 ∧ idLen ≤ MAX_AUCTION_ID_BYTES) ∧ 10 + idLen < ORIGIN_AT ∧
      ∃ nameLen, bytes[10 + idLen]? = some nameLen ∧
        (nameLen ≤ MAX_NAME_BYTES ∧ 10 + idLen + 1 + nameLen < ORIGIN_AT) ∧
      ∃ contactLen, bytes[10 + idLen + 1 + nameLen]? = some contactLen ∧
        10 + idLen + 1 + nameLen + 1 + contactLen ≤ ORIGIN_AT ∧
        (slice bytes (10 + idLen + 1 + nameLen + 1 + contactLen) ORIGIN_AT).all (· = 0) = true ∧
      ∃ origin, readOrigin bytes = some origin ∧
      ∃ auctionId, text (slice bytes 10 (10 + idLen)) = some auctionId ∧
      ∃ name, text (slice bytes (10 + idLen + 1) (10 + idLen + 1 + nameLen)) = some name ∧
        (⟨auctionId, fromBeBytes (slice bytes 1 9), name, if contactLen = 0 then none
          else some (slice bytes (10 + idLen + 1 + nameLen + 1) (10 + idLen + 1 + nameLen + 1 + contactLen)),
          origin⟩ : BidRecord) = r := by
  have hne : (some RECORD_V3 = some RECORD_V2) = False := by decide
  unfold decodeBidWith
  simp only [Option.bind_eq_bind, Option.bind_eq_some_iff, guard_eq_some, exists_const, Option.pure_def,
    decide_eq_true_eq, hhead, hne, true_and, false_and, false_or, if_false, Option.some.injEq]

/-- What the decoder makes of a record of the current version. -/
theorem decodeBidWith_eq_some {text : Bytes → Option Text} {r : BidRecord} (hhead : bytes.head? = some RECORD_V3)
    (hbytes : ∀ b ∈ bytes, b < 256) : decodeBidWith text bytes = some r ↔ ∃ id name contact,
      bytes = layout r.amountMinor id name contact (originBlock (r.origin.map BidOrigin.onPage)) ∧
      Fits r.amountMinor id name contact ∧ (∀ x ∈ r.origin, x.Allowed) ∧ text id = some r.auctionId ∧
      text name = some r.name ∧ r.contact = if contact = [] then none else some contact := by
  rw [decodeBidWith_steps hhead]
  constructor
  · rintro ⟨hlength, hamount, idLen, hid, hidLen, -, nameLen, hname, ⟨hnameLen, -⟩, contactLen, hcontact, hstop, hzeros,
      origin, horigin, auctionId, hidText, nameText, hnameText, rfl⟩
    obtain ⟨id, name, contact, block, rfl, rfl, rfl, hblock, hb⟩ :=
      layout_exists hhead hlength hbytes hid hname hcontact (by omega) hzeros
    have hfits : Fits (fromBeBytes (slice bytes 1 9)) id name contact :=
      ⟨hamount, ⟨fun hnil => hidLen.1 (by rw [hnil]; rfl), hidLen.2⟩, hnameLen, by omega⟩
    obtain ⟨-, -, -, hidSlice, -, hnameSlice, -, hcontactSlice, -, hdrop⟩ := layout_parts hfits hb
    have hblockBytes : ∀ b ∈ block, b < 256 := fun b hmem => hbytes b (List.mem_of_mem_drop (hdrop ▸ hmem))
    obtain ⟨rfl, hallowed⟩ := (readOrigin_eq_some hdrop hblock hblockBytes).mp horigin
    refine ⟨id, name, contact, hb, hfits, hallowed, hidSlice ▸ hidText, hnameSlice ▸ hnameText, ?_⟩
    simp only [hcontactSlice, List.length_eq_zero_iff]
  · rintro ⟨id, name, contact, hb, hfits, hallowed, hidText, hnameText, hcontact⟩
    obtain ⟨-, hword, hid, hidSlice, hname, hnameSlice, hcontactAt, hcontactSlice, hzeros, hdrop⟩ := layout_parts hfits hb
    have hblock := originBlock_length hallowed
    have hlength : bytes.length = RECORD_BYTES_V3 := hb ▸ layout_length hfits hblock
    have hblockBytes : ∀ b ∈ originBlock (r.origin.map BidOrigin.onPage), b < 256 := fun b hmem =>
      hbytes b (List.mem_of_mem_drop (hdrop ▸ hmem))
    have hused := hfits.used
    refine ⟨hlength, ?_, id.length, hid, ⟨fun hnil => hfits.named.1 (List.length_eq_zero_iff.mp hnil), hfits.named.2⟩,
      by omega, name.length, hname, ⟨hfits.short, by omega⟩, contact.length, hcontactAt, by omega, ?_, r.origin,
      (readOrigin_eq_some hdrop hblock hblockBytes).mpr ⟨rfl, hallowed⟩, r.auctionId, by rw [hidSlice]; exact hidText,
      r.name, by rw [hnameSlice]; exact hnameText, ?_⟩
    · rw [hword, fromBeBytes_beWord hfits.positive.2]
      exact hfits.positive
    · rw [hzeros, List.all_eq_true]
      exact fun b hmem => decide_eq_true (List.eq_of_mem_replicate hmem)
    · rw [hword, fromBeBytes_beWord hfits.positive.2, hcontactSlice]
      simp only [List.length_eq_zero_iff]
      rw [← hcontact]

/-! ### Writing a record -/

lemma forM_eq_ok {α ε : Type} {o : Option α} {f : α → Except ε Unit} {u : Unit} :
    o.forM f = .ok u ↔ ∀ x ∈ o, f x = .ok () := by
  cases o with
  | none => exact ⟨fun _ x hx => (by cases hx), fun _ => rfl⟩
  | some x => exact ⟨fun h y hy => Option.some.inj hy ▸ h, fun h => h x rfl⟩

lemma textEncode_encode (s : Text) : textEncode (Utf16.encode s) = Utf8.encode s := by
  rw [textEncode, Utf16.decode_encode]

lemma encodeBid_eq_ok {bid : Bid} : encodeBid bid = .ok bytes ↔
    bid.amountMinor.isInt = true ∧ 0 < bid.amountMinor ∧ bid.amountMinor ≤ MAX_AMOUNT_MINOR ∧
      Utf16.loneSurrogate bid.auctionId = false ∧ Utf16.loneSurrogate bid.name = false ∧
      (textEncode bid.auctionId).length ≠ 0 ∧ (textEncode bid.auctionId).length ≤ MAX_AUCTION_ID_BYTES ∧
      (textEncode bid.name).length ≤ MAX_NAME_BYTES ∧ (bid.contact.getD []).length ≤ 255 ∧
      (∀ o ∈ bid.origin, checkOrigin o = .ok ()) ∧
      10 + (textEncode bid.auctionId).length + 1 + (textEncode bid.name).length + 1 + (bid.contact.getD []).length ≤
        ORIGIN_AT ∧
      layout bid.amountMinor.num.toNat (textEncode bid.auctionId) (textEncode bid.name) (bid.contact.getD [])
        (originBlock bid.origin) = bytes := by
  simp only [encodeBid, bind_eq_ok, require_eq_ok, pure_eq_ok, exists_const, forM_eq_ok, Bool.not_eq_true]

lemma encodeBid_onPage {r : BidRecord} : encodeBid r.onPage = .ok bytes ↔
    Fits r.amountMinor (Utf8.encode r.auctionId) (Utf8.encode r.name) (r.contact.getD []) ∧
      (r.contact.getD []).length ≤ 255 ∧ (∀ x ∈ r.origin, x.Allowed) ∧
      layout r.amountMinor (Utf8.encode r.auctionId) (Utf8.encode r.name) (r.contact.getD [])
        (originBlock (r.origin.map BidOrigin.onPage)) = bytes := by
  have horigin : (∀ o ∈ r.origin.map BidOrigin.onPage, checkOrigin o = .ok ()) ↔ ∀ x ∈ r.origin, x.Allowed := by
    constructor
    · exact fun h x hx => checkOrigin_onPage.mp (h _ (Option.mem_map_of_mem _ hx))
    · intro h o ho
      obtain ⟨x, hx, rfl⟩ := Option.mem_map.mp ho
      exact checkOrigin_onPage.mpr (h x hx)
  rw [encodeBid_eq_ok]
  simp only [BidRecord.onPage, Utf16.loneSurrogate_encode, textEncode_encode, num_natCast, horigin, isInt_natCast]
  constructor
  · rintro ⟨-, hpos, hmax, -, -, hid, hidLength, hname, hcontact, hallowed, hused, hbytes⟩
    exact ⟨⟨allowed_amount.mp ⟨hpos, hmax⟩, ⟨fun hnil => hid (by rw [hnil]; rfl), hidLength⟩, hname, by omega⟩, hcontact,
      hallowed, hbytes⟩
  · rintro ⟨⟨hamount, ⟨hid, hidLength⟩, hname, hused⟩, hcontact, hallowed, hbytes⟩
    obtain ⟨hpos, hmax⟩ := allowed_amount.mpr hamount
    exact ⟨trivial, hpos, hmax, trivial, trivial, fun hzero => hid (List.length_eq_zero_iff.mp hzero), hidLength, hname,
      hcontact, hallowed, by omega, hbytes⟩

lemma encodeBid_ok {bid : Bid} (h : encodeBid bid = .ok bytes) : ∃ r : BidRecord, r.onPage = bid := by
  obtain ⟨hint, hpos, -, hid, hname, -, -, -, -, horigin, -⟩ := encodeBid_eq_ok.mp h
  obtain ⟨id, hidUnits⟩ := Utf16.loneSurrogate_iff.mp hid
  obtain ⟨name, hnameUnits⟩ := Utf16.loneSurrogate_iff.mp hname
  obtain ⟨origin, horiginPage⟩ : ∃ o : Option BidOrigin, o.map BidOrigin.onPage = bid.origin := by
    cases hbid : bid.origin with
    | none => exact ⟨none, rfl⟩
    | some o =>
      obtain ⟨b, rfl⟩ := checkOrigin_ok (horigin o hbid)
      exact ⟨some b, rfl⟩
  refine ⟨⟨id, bid.amountMinor.num.toNat, name, bid.contact, origin⟩, ?_⟩
  rw [BidRecord.onPage, hidUnits, hnameUnits, horiginPage, ← eq_natCast hint hpos.le]

/-! ### One encoding of a bid -/

/-- A string that a decoder would take the mark away from. -/
def Marked (s : JsString) : Prop := s.head? = some 0xFEFF

instance (s : JsString) : Decidable (Marked s) := inferInstanceAs (Decidable (s.head? = some 0xFEFF))

/-- A field that begins with the bytes of the mark. -/
def MarkedBytes (field : Bytes) : Prop := [0xEF, 0xBB, 0xBF] <+: field

instance (field : Bytes) : Decidable (MarkedBytes field) := inferInstanceAs (Decidable (_ <+: field))

lemma marked_encode {s : Text} : Marked (Utf16.encode s) ↔ s.head? = some Utf8.bom := by
  cases s with
  | nil => exact ⟨fun h => (by cases h), fun h => (by cases h)⟩
  | cons c s =>
    rw [Marked, Utf16.encode_cons, List.head?_cons, Option.some.injEq]
    by_cases hc : c.toNat < 0x10000
    · rw [(Utf16.encodeChar_small hc).1, List.singleton_append, List.head?_cons, Option.some.injEq]
      constructor
      · intro h
        have hnat := congrArg UInt16.toNat h
        rw [Utf16.toNat_ofNat hc] at hnat
        exact Char.toNat_inj.mp hnat
      · rintro rfl
        rfl
    · obtain ⟨u, v, hunits, hhigh, -, -⟩ := Utf16.encodeChar_large hc
      rw [hunits, List.cons_append, List.head?_cons, Option.some.injEq]
      constructor
      · rintro rfl
        exact absurd hhigh (by decide)
      · rintro rfl
        exact absurd (show Utf8.bom.toNat < 0x10000 by decide) hc

lemma markedBytes_encode {s : Text} : MarkedBytes (Utf8.encode s) ↔ s.head? = some Utf8.bom := by
  rw [MarkedBytes, ← Utf8.encode_bom]
  cases s with
  | nil =>
    constructor
    · rintro ⟨rest, h⟩
      exact absurd (congrArg List.length h) (by rw [Utf8.encode_bom]; simp [Utf8.encode])
    · intro h
      cases h
  | cons c s =>
    rw [Utf8.encode_cons, List.head?_cons, Option.some.injEq]
    constructor
    · rintro ⟨rest, h⟩
      exact (Utf8.encodeChar_prefixFree trivial trivial h).1.symm
    · rintro rfl
      exact ⟨_, rfl⟩

/-- The auction id of a record, and the name after it. -/
def idField (bytes : Bytes) : Bytes := slice bytes 10 (10 + bytes.getD 9 0)

def nameField (bytes : Bytes) : Bytes :=
  let lengthAt := 10 + bytes.getD 9 0
  slice bytes (lengthAt + 1) (lengthAt + 1 + bytes.getD lengthAt 0)

def contactField (bytes : Bytes) : Bytes :=
  let lengthAt := 10 + bytes.getD 9 0
  let nameEnd := lengthAt + 1 + bytes.getD lengthAt 0
  slice bytes (nameEnd + 1) (nameEnd + 1 + bytes.getD nameEnd 0)

lemma layout_fields (h : Fits amount id name contact) (hb : bytes = layout amount id name contact block) :
    idField bytes = id ∧ nameField bytes = name ∧ contactField bytes = contact := by
  obtain ⟨-, -, hid, hidSlice, hname, hnameSlice, hcontact, hcontactSlice, -, -⟩ := layout_parts h hb
  have hidLength : bytes.getD 9 0 = id.length := by rw [List.getD_eq_getElem?_getD, hid]; rfl
  have hnameLength : bytes.getD (10 + id.length) 0 = name.length := by rw [List.getD_eq_getElem?_getD, hname]; rfl
  have hcontactLength : bytes.getD (10 + id.length + 1 + name.length) 0 = contact.length := by
    rw [List.getD_eq_getElem?_getD, hcontact]; rfl
  refine ⟨?_, ?_, ?_⟩
  · rw [idField, hidLength, hidSlice]
  · rw [nameField, hidLength, hnameLength, hnameSlice]
  · rw [contactField, hidLength, hnameLength, hcontactLength, hcontactSlice]

lemma beWord_lt (n : Nat) : ∀ b ∈ beWord n, b < 256 := fun b hb =>
  Links.toLeBytes_lt 8 n b (List.mem_reverse.mp hb)

lemma originBlock_lt {o : Option BidOrigin} (h : ∀ x ∈ o, x.Allowed) :
    ∀ b ∈ originBlock (o.map BidOrigin.onPage), b < 256 := by
  cases o with
  | none => exact fun b hb => lt_of_eq_of_lt (List.eq_of_mem_replicate hb) (by decide)
  | some x =>
    have hx := h x rfl
    rw [Option.map_some, originBlock_some hx]
    intro b hb
    rcases List.mem_append.mp hb with hb | hb
    · rcases List.mem_append.mp hb with hb | hb
      · obtain ⟨c, hc, rfl⟩ := List.mem_map.mp hb
        have hcode := hx.code.2 c hc
        rw [isUpper, Bool.and_eq_true, decide_eq_true_eq, decide_eq_true_eq] at hcode
        omega
      · exact beWord_lt _ b hb
    · have hd := hx.decimals
      rw [List.mem_singleton] at hb
      omega

lemma layout_lt (h : Fits amount id name contact) (hcontactLength : contact.length ≤ 255)
    (hid : ∀ b ∈ id, b < 256) (hname : ∀ b ∈ name, b < 256) (hcontact : ∀ b ∈ contact, b < 256)
    (hblock : ∀ b ∈ block, b < 256) : ∀ b ∈ layout amount id name contact block, b < 256 := by
  have hidLength := h.named.2
  have hnameLength := h.short
  unfold MAX_AUCTION_ID_BYTES at hidLength
  unfold MAX_NAME_BYTES at hnameLength
  intro b hb
  simp only [layout, List.append_assoc, List.cons_append, List.mem_cons, List.mem_append] at hb
  rcases hb with rfl | hb | rfl | hb | rfl | hb | rfl | hb | hb | hb
  · decide
  · exact beWord_lt _ b hb
  · omega
  · exact hid b hb
  · omega
  · exact hname b hb
  · omega
  · exact hcontact b hb
  · exact lt_of_eq_of_lt (List.eq_of_mem_replicate hb) (by decide)
  · exact hblock b hb

lemma onPage_injective : Function.Injective BidRecord.onPage := by
  have horigin : Function.Injective BidOrigin.onPage := by
    intro o o' h
    obtain ⟨hcode, hamount, hdecimals⟩ := JsOrigin.mk.inj h
    obtain ⟨code, amount, decimals⟩ := o
    obtain ⟨code', amount', decimals'⟩ := o'
    obtain rfl := Utf16.encode_injective hcode
    obtain rfl := Nat.cast_injective hamount
    obtain rfl := Nat.cast_injective hdecimals
    rfl
  intro r r' h
  obtain ⟨hid, hamount, hname, hcontact, hblock⟩ := Bid.mk.inj h
  obtain ⟨id, amount, name, contact, origin⟩ := r
  obtain ⟨id', amount', name', contact', origin'⟩ := r'
  obtain rfl := Utf16.encode_injective hid
  obtain rfl := Nat.cast_injective hamount
  obtain rfl := Utf16.encode_injective hname
  obtain rfl := Option.map_injective horigin hblock
  obtain rfl : contact = contact' := hcontact
  rfl

lemma decodeUnmarked_encode {s : Text} : Utf8.decodeUnmarked (Utf8.encode s) = some s ↔ ¬Marked (Utf16.encode s) := by
  rw [Utf8.decodeUnmarked_eq, Utf8.decode_encode, Option.map_some, Option.some.injEq, Utf8.dropBom_eq_self, marked_encode]

lemma contact_kept {contact : Option Bytes} :
    (contact = if contact.getD [] = [] then none else some (contact.getD [])) ↔ contact ≠ some [] := by
  cases contact with
  | none => exact ⟨fun _ h => (by cases h), fun _ => rfl⟩
  | some c => cases c <;> simp

lemma written_back {r : BidRecord} (h : encodeBid r.onPage = .ok bytes) (hcontact : ∀ c ∈ r.contact, ∀ b ∈ c, b < 256) :
    decodeBid bytes = some r ↔
      ¬Marked (Utf16.encode r.auctionId) ∧ ¬Marked (Utf16.encode r.name) ∧ r.contact ≠ some [] := by
  obtain ⟨hfits, hlength, hallowed, rfl⟩ := encodeBid_onPage.mp h
  have hbytes : ∀ b ∈ layout r.amountMinor (Utf8.encode r.auctionId) (Utf8.encode r.name) (r.contact.getD [])
      (originBlock (r.origin.map BidOrigin.onPage)), b < 256 := by
    refine layout_lt hfits hlength (Utf8.encode_lt _) (Utf8.encode_lt _) ?_ (originBlock_lt hallowed)
    cases hc : r.contact with
    | none => exact fun b hb => absurd hb List.not_mem_nil
    | some c => exact hcontact c hc
  rw [decodeBid, decodeBidWith_eq_some rfl hbytes, ← decodeUnmarked_encode, ← decodeUnmarked_encode, ← contact_kept]
  constructor
  · rintro ⟨id, name, contact, hb, hfits', -, hid, hname, hkept⟩
    obtain ⟨rfl, rfl, rfl⟩ := layout_fields hfits' hb
    obtain ⟨hidField, hnameField, hcontactField⟩ := layout_fields hfits rfl
    rw [hidField] at hid
    rw [hnameField] at hname
    rw [hcontactField] at hkept
    exact ⟨hid, hname, hkept⟩
  · rintro ⟨hid, hname, hkept⟩
    exact ⟨_, _, _, rfl, hfits, hallowed, hid, hname, hkept⟩

lemma read_back {r : BidRecord} (hhead : bytes.head? = some RECORD_V3) (hbytes : ∀ b ∈ bytes, b < 256)
    (h : decodeBid bytes = some r) :
    encodeBid r.onPage = .ok bytes ↔ ¬MarkedBytes (idField bytes) ∧ ¬MarkedBytes (nameField bytes) := by
  obtain ⟨id, name, contact, hb, hfits, hallowed, hid, hname, hkept⟩ := (decodeBidWith_eq_some hhead hbytes).mp h
  obtain ⟨hidField, hnameField, -⟩ := layout_fields hfits hb
  rw [Utf8.decodeUnmarked_eq, Option.map_eq_some_iff] at hid hname
  obtain ⟨s, hs, hauction⟩ := hid
  obtain ⟨t, ht, hcalled⟩ := hname
  rw [Utf8.decode_eq_some] at hs ht
  subst hs ht
  have hgetD : r.contact.getD [] = contact := by
    rw [hkept]
    split_ifs with hnil
    · exact hnil.symm
    · rfl
  have hshort : contact.length ≤ 255 := by
    have hat := (layout_parts hfits hb).2.2.2.2.2.2.1
    exact Nat.le_of_lt_succ (hbytes _ (List.mem_of_getElem? hat))
  rw [hidField, hnameField, markedBytes_encode, markedBytes_encode, ← Ne, ← Ne, ← Utf8.dropBom_eq_self, ← Utf8.dropBom_eq_self,
    hauction, hcalled, encodeBid_onPage, hgetD]
  constructor
  · rintro ⟨hfits', -, -, hsame⟩
    obtain ⟨hidSame, hnameSame, -⟩ := layout_fields hfits' hsame.symm
    rw [hidField] at hidSame
    rw [hnameField] at hnameSame
    exact ⟨Utf8.encode_injective hidSame.symm, Utf8.encode_injective hnameSame.symm⟩
  · rintro ⟨hidSame, hnameSame⟩
    rw [hidSame, hnameSame]
    exact ⟨hfits, hshort, hallowed, hb.symm⟩

/-- Records and bids answer to each other, apart from leading marks and an empty contact. -/
theorem record_codec (bytes : Bytes) :
    (∀ bid, encodeBid bid = .ok bytes → (∀ c ∈ bid.contact, ∀ b ∈ c, b < 256) →
      bytes.length = RECORD_BYTES_V3 ∧ ((decodeBid bytes).map BidRecord.onPage = some bid ↔
        ¬Marked bid.auctionId ∧ ¬Marked bid.name ∧ bid.contact ≠ some [])) ∧
    ∀ r, bytes.head? = some RECORD_V3 → (∀ b ∈ bytes, b < 256) → decodeBid bytes = some r →
      (encodeBid r.onPage = .ok bytes ↔ ¬MarkedBytes (idField bytes) ∧ ¬MarkedBytes (nameField bytes)) := by
  constructor
  · intro bid h hcontact
    obtain ⟨r, rfl⟩ := encodeBid_ok h
    obtain ⟨hfits, -, hallowed, hb⟩ := encodeBid_onPage.mp h
    refine ⟨hb ▸ layout_length hfits (originBlock_length hallowed), ?_⟩
    rw [← Option.map_some, (Option.map_injective onPage_injective).eq_iff]
    exact written_back h hcontact
  · exact fun r hhead hbytes h => read_back hhead hbytes h

def sampleBid (auctionId : JsString) : Bid := ⟨auctionId, 100, [], none, some ⟨[0x45, 0x55, 0x52], 250, 2⟩⟩

def sampleRecord (id : Bytes) : Bytes := layout 100 id [] [] [0x45, 0x55, 0x52, 0, 0, 0, 0, 0, 0, 0, 250, 2]

theorem plain_id_kept :
    (encodeBid (sampleBid [0x61]) = .ok (sampleRecord [0x61]) ∧
      (decodeBid (sampleRecord [0x61])).map BidRecord.onPage = some (sampleBid [0x61])) ∧
    ∃ r, decodeBid (sampleRecord [0x61]) = some r ∧ encodeBid r.onPage = .ok (sampleRecord [0x61]) := by
  have hwritten : encodeBid (sampleBid [0x61]) = .ok (sampleRecord [0x61]) := by decide +kernel
  have hbytes : ∀ b ∈ sampleRecord [0x61], b < 256 := by decide +kernel
  have hread : decodeBid (sampleRecord [0x61]) = some ⟨['a'], 100, [], none, some ⟨['E', 'U', 'R'], 250, 2⟩⟩ := by
    decide +kernel
  exact ⟨⟨hwritten, ((record_codec _).1 _ hwritten (fun c hc => by cases hc)).2.mpr ⟨by decide, by decide, by decide⟩⟩,
    _, hread, ((record_codec _).2 _ rfl hbytes hread).mpr ⟨by decide +kernel, by decide +kernel⟩⟩

/-- The auction's id loses its mark, so that two records are one bid's. -/
theorem marked_id_lost :
    encodeBid (sampleBid [0xFEFF, 0x61]) = .ok (sampleRecord [0xEF, 0xBB, 0xBF, 0x61]) ∧
    (decodeBid (sampleRecord [0xEF, 0xBB, 0xBF, 0x61])).map BidRecord.onPage = some (sampleBid [0x61]) ∧
    sampleBid [0x61] ≠ sampleBid [0xFEFF, 0x61] ∧
    encodeBid (sampleBid [0x61]) ≠ .ok (sampleRecord [0xEF, 0xBB, 0xBF, 0x61]) := by
  decide +kernel

end Peal.Live
