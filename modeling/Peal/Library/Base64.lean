import Mathlib.Tactic

namespace Peal.Base64

/-! # Base64 -/

def standard : List Char := "ABCDEFGHIJKLMNOPQRSTUVWXYZabcdefghijklmnopqrstuvwxyz0123456789+/".toList

def urlSafe : List Char := "ABCDEFGHIJKLMNOPQRSTUVWXYZabcdefghijklmnopqrstuvwxyz0123456789-_".toList

section Codec

variable (alphabet : List Char)

def symbol (n : Nat) : Char := alphabet.getD n 'A'

def value (c : Char) : Option Nat := if c ∈ alphabet then some (alphabet.idxOf c) else none

/-- Without padding. -/
def encode : List Nat → List Char
  | a :: b :: c :: rest =>
    symbol alphabet (a / 4) :: symbol alphabet (a % 4 * 16 + b / 16) :: symbol alphabet (b % 16 * 4 + c / 64) ::
      symbol alphabet (c % 64) :: encode rest
  | [a, b] => [symbol alphabet (a / 4), symbol alphabet (a % 4 * 16 + b / 16), symbol alphabet (b % 16 * 4)]
  | [a] => [symbol alphabet (a / 4), symbol alphabet (a % 4 * 16)]
  | [] => []

/-- The bytes of a list of six-bit values; the bits after the last byte are dropped. -/
def joinSixes : List Nat → Option (List Nat)
  | p :: q :: r :: s :: rest =>
    (joinSixes rest).map fun bytes => (p * 4 + q / 16) :: (q % 16 * 16 + r / 4) :: (r % 4 * 64 + s) :: bytes
  | [p, q, r] => some [p * 4 + q / 16, q % 16 * 16 + r / 4]
  | [p, q] => some [p * 4 + q / 16]
  | [_] => none
  | [] => some []

def decode (text : List Char) : Option (List Nat) := (text.mapM (value alphabet)).bind joinSixes

/-- The bits after the last byte must be zero. -/
def decodeStrict (text : List Char) : Option (List Nat) :=
  (decode alphabet text).filter fun bytes => encode alphabet bytes = text

end Codec

/-! ### Decoding what was encoded -/

/-- Sixty-four characters, each once. -/
structure Lawful (alphabet : List Char) : Prop where
  length : alphabet.length = 64
  nodup : alphabet.Nodup

lemma standard_lawful : Lawful standard := ⟨by decide, by decide⟩

lemma urlSafe_lawful : Lawful urlSafe := ⟨by decide, by decide⟩

variable {alphabet : List Char}

lemma symbol_eq {n : Nat} (hn : n < alphabet.length) : symbol alphabet n = alphabet[n] := by
  rw [symbol, List.getD_eq_getElem?_getD, List.getElem?_eq_getElem hn, Option.getD_some]

lemma value_symbol (h : Lawful alphabet) {n : Nat} (hn : n < 64) : value alphabet (symbol alphabet n) = some n := by
  have hlt : n < alphabet.length := h.length ▸ hn
  rw [symbol_eq hlt, value, if_pos (List.getElem_mem hlt), h.nodup.idxOf_getElem]

lemma symbol_mem (h : Lawful alphabet) {n : Nat} (hn : n < 64) : symbol alphabet n ∈ alphabet := by
  have hlt : n < alphabet.length := h.length ▸ hn
  rw [symbol_eq hlt]
  exact List.getElem_mem hlt

/-- The six-bit values of bytes. -/
def splitSixes : List Nat → List Nat
  | a :: b :: c :: rest => a / 4 :: (a % 4 * 16 + b / 16) :: (b % 16 * 4 + c / 64) :: c % 64 :: splitSixes rest
  | [a, b] => [a / 4, a % 4 * 16 + b / 16, b % 16 * 4]
  | [a] => [a / 4, a % 4 * 16]
  | [] => []

lemma encode_eq_map (alphabet : List Char) (bytes : List Nat) :
    encode alphabet bytes = (splitSixes bytes).map (symbol alphabet) := by
  induction bytes using splitSixes.induct with
  | case1 a b c rest ih => simp [encode, splitSixes, ih]
  | case2 a b => rfl
  | case3 a => rfl
  | case4 => rfl

lemma splitSixes_lt {bytes : List Nat} (h : ∀ b ∈ bytes, b < 256) : ∀ n ∈ splitSixes bytes, n < 64 := by
  induction bytes using splitSixes.induct with
  | case1 a b c rest ih =>
    simp only [List.forall_mem_cons, splitSixes] at h ⊢
    obtain ⟨ha, hb, hc, hrest⟩ := h
    exact ⟨by omega, by omega, by omega, by omega, ih hrest⟩
  | case2 a b =>
    simp only [List.forall_mem_cons, splitSixes, List.not_mem_nil, IsEmpty.forall_iff, implies_true, and_true] at h ⊢
    omega
  | case3 a =>
    simp only [List.forall_mem_cons, splitSixes, List.not_mem_nil, IsEmpty.forall_iff, implies_true, and_true] at h ⊢
    omega
  | case4 => exact fun n hn => absurd hn List.not_mem_nil

lemma joinSixes_splitSixes {bytes : List Nat} (h : ∀ b ∈ bytes, b < 256) :
    joinSixes (splitSixes bytes) = some bytes := by
  induction bytes using splitSixes.induct with
  | case1 a b c rest ih =>
    simp only [List.forall_mem_cons] at h
    obtain ⟨ha, hb, hc, hrest⟩ := h
    rw [splitSixes, joinSixes, ih hrest, Option.map_some, Option.some.injEq, List.cons.injEq, List.cons.injEq,
      List.cons.injEq]
    exact ⟨by omega, by omega, by omega, rfl⟩
  | case2 a b =>
    simp only [List.forall_mem_cons, List.not_mem_nil, IsEmpty.forall_iff, implies_true, and_true] at h
    rw [splitSixes, joinSixes, Option.some.injEq, List.cons.injEq, List.cons.injEq]
    exact ⟨by omega, by omega, rfl⟩
  | case3 a =>
    simp only [List.forall_mem_cons, List.not_mem_nil, IsEmpty.forall_iff, implies_true, and_true] at h
    rw [splitSixes, joinSixes, Option.some.injEq, List.cons.injEq]
    exact ⟨by omega, rfl⟩
  | case4 => rfl

lemma mapM_value (h : Lawful alphabet) {sixes : List Nat} (hsixes : ∀ n ∈ sixes, n < 64) :
    (sixes.map (symbol alphabet)).mapM (value alphabet) = some sixes := by
  induction sixes with
  | nil => rfl
  | cons n sixes ih =>
    obtain ⟨hn, hrest⟩ := List.forall_mem_cons.mp hsixes
    rw [List.map_cons, List.mapM_cons, value_symbol h hn, ih hrest]
    rfl

theorem decode_encode (h : Lawful alphabet) {bytes : List Nat} (hbytes : ∀ b ∈ bytes, b < 256) :
    decode alphabet (encode alphabet bytes) = some bytes := by
  rw [decode, encode_eq_map, mapM_value h (splitSixes_lt hbytes), Option.bind_some, joinSixes_splitSixes hbytes]

lemma decodeStrict_encode (h : Lawful alphabet) {bytes : List Nat} (hbytes : ∀ b ∈ bytes, b < 256) :
    decodeStrict alphabet (encode alphabet bytes) = some bytes := by
  rw [decodeStrict, decode_encode h hbytes, Option.filter_some, if_pos (decide_eq_true rfl)]

lemma encode_mem (h : Lawful alphabet) {bytes : List Nat} (hbytes : ∀ b ∈ bytes, b < 256) :
    ∀ c ∈ encode alphabet bytes, c ∈ alphabet := by
  intro c hc
  rw [encode_eq_map] at hc
  obtain ⟨n, hn, rfl⟩ := List.mem_map.mp hc
  exact symbol_mem h (splitSixes_lt hbytes n hn)

lemma encode_length (alphabet : List Char) (bytes : List Nat) : (encode alphabet bytes).length % 4 ≠ 1 := by
  rw [encode_eq_map, List.length_map]
  induction bytes using splitSixes.induct with
  | case1 a b c rest ih =>
    simp only [splitSixes, List.length_cons]
    omega
  | case2 a b => simp [splitSixes]
  | case3 a => simp [splitSixes]
  | case4 => simp [splitSixes]

/-! ### As a browser reads and writes it -/

/-- The padding to a multiple of four. -/
def padding (n : Nat) : List Char := List.replicate ((4 - n % 4) % 4) '='

def btoa (bytes : List Nat) : List Char := encode standard bytes ++ padding (encode standard bytes).length

def isAsciiSpace (c : Char) : Bool := c.toNat ∈ [9, 10, 12, 13, 32]

/-- The text without the one or two signs it may end in. -/
def dropPadding (text : List Char) : List Char :=
  if text.length % 4 = 0 then
    match text.reverse with
    | '=' :: '=' :: rest => rest.reverse
    | '=' :: rest => rest.reverse
    | _ => text
  else text

/-- White space is skipped and trailing bits are dropped. -/
def atob (text : List Char) : Option (List Nat) :=
  decode standard (dropPadding (text.filter fun c => !isAsciiSpace c))

lemma standard_plain : ∀ c ∈ standard, c ≠ '=' ∧ isAsciiSpace c = false := by
  have hall : standard.all (fun c => decide (c ≠ '=' ∧ isAsciiSpace c = false)) = true := by decide
  exact fun c hc => of_decide_eq_true (List.all_eq_true.mp hall c hc)

lemma dropPadding_append {text : List Char} (hplain : ∀ c ∈ text, c ≠ '=') (hlength : text.length % 4 ≠ 1) :
    dropPadding (text ++ padding text.length) = text := by
  have hlt := Nat.mod_lt text.length (show 0 < 4 by decide)
  have hfour : (text ++ padding text.length).length % 4 = 0 := by
    rw [List.length_append, padding, List.length_replicate]
    omega
  have hcases : text.length % 4 = 0 ∨ text.length % 4 = 2 ∨ text.length % 4 = 3 := by omega
  rw [dropPadding, if_pos hfour]
  rcases hcases with h | h | h
  · have hpad : padding text.length = [] := by rw [padding, h]; rfl
    rw [hpad, List.append_nil]
    cases hrev : text.reverse with
    | nil => rfl
    | cons c rest =>
      have hc : c ≠ '=' := hplain c (List.mem_reverse.mp (hrev ▸ List.mem_cons_self))
      split
      · rename_i heq
        exact absurd (List.cons.inj heq).1 hc
      · rename_i heq
        exact absurd (List.cons.inj heq).1 hc
      · rfl
  · have hpad : padding text.length = ['=', '='] := by rw [padding, h]; rfl
    rw [hpad, List.reverse_append]
    exact List.reverse_reverse text
  · have hpad : padding text.length = ['='] := by rw [padding, h]; rfl
    rw [hpad, List.reverse_append, List.reverse_singleton, List.singleton_append]
    cases hrev : text.reverse with
    | nil =>
      rw [List.reverse_eq_nil_iff] at hrev
      subst hrev
      cases h
    | cons c rest =>
      have hc : c ≠ '=' := hplain c (List.mem_reverse.mp (hrev ▸ List.mem_cons_self))
      split
      · rename_i heq
        exact absurd (List.cons.inj (List.cons.inj heq).2).1 hc
      · rename_i heq
        rw [← (List.cons.inj heq).2, ← hrev, List.reverse_reverse]
      · rename_i hnone
        exact absurd rfl (hnone _)

lemma decode_eq_none {alphabet text : List Char} {c : Char} (hc : c ∈ text) (h : c ∉ alphabet) :
    decode alphabet text = none := by
  have hmap : text.mapM (value alphabet) = none := by
    induction text with
    | nil => exact absurd hc List.not_mem_nil
    | cons d text ih =>
      rw [List.mapM_cons]
      rcases List.mem_cons.mp hc with rfl | hc
      · rw [value, if_neg h]
        rfl
      · rw [ih hc]
        cases value alphabet d <;> rfl
  rw [decode, hmap]
  rfl

lemma decodeStrict_eq_none {alphabet text : List Char} {c : Char} (hc : c ∈ text) (h : c ∉ alphabet) :
    decodeStrict alphabet text = none := by
  rw [decodeStrict, decode_eq_none hc h]
  rfl

lemma dropPadding_signs {text : List Char} (hplain : ∀ c ∈ text, c ≠ '=') (k : Nat) :
    ∃ j, dropPadding (text ++ List.replicate k '=') = text ++ List.replicate j '=' := by
  rw [dropPadding]
  split_ifs
  · rw [List.reverse_append, List.reverse_replicate]
    match k with
    | 0 =>
      refine ⟨0, ?_⟩
      have hhead : ∀ c ∈ text.reverse, c ≠ '=' := fun c hc => hplain c (List.mem_reverse.mp hc)
      rw [List.replicate_zero, List.nil_append, List.append_nil]
      cases hrev : text.reverse with
      | nil => rfl
      | cons c rest =>
        have hc : c ≠ '=' := hhead c (hrev ▸ List.mem_cons_self)
        split
        · rename_i h
          exact absurd (List.cons.inj h).1 hc
        · rename_i h
          exact absurd (List.cons.inj h).1 hc
        · rfl
    | 1 =>
      refine ⟨0, ?_⟩
      rw [List.replicate_one, List.singleton_append, List.replicate_zero, List.append_nil]
      split
      · rename_i rest h
        have hmem : '=' ∈ text.reverse := by
          rw [(List.cons.inj h).2]
          exact List.mem_cons_self
        exact absurd rfl (hplain _ (List.mem_reverse.mp hmem))
      · rename_i h
        rw [← (List.cons.inj h).2, List.reverse_reverse]
      · rename_i h
        exact absurd rfl (h _)
    | k + 2 =>
      refine ⟨k, ?_⟩
      rw [List.replicate_succ, List.replicate_succ, List.cons_append, List.cons_append]
      show (List.replicate k '=' ++ text.reverse).reverse = _
      rw [List.reverse_append, List.reverse_reverse, List.reverse_replicate]
  · exact ⟨k, rfl⟩

lemma atob_signs {bytes : List Nat} (hbytes : ∀ b ∈ bytes, b < 256) (k : Nat) :
    atob (encode standard bytes ++ List.replicate k '=') = some bytes ∨
      atob (encode standard bytes ++ List.replicate k '=') = none := by
  have hplain : ∀ c ∈ encode standard bytes, c ≠ '=' ∧ isAsciiSpace c = false := fun c hc =>
    standard_plain c (encode_mem standard_lawful hbytes c hc)
  have hfilter : (encode standard bytes ++ List.replicate k '=').filter (fun c => !isAsciiSpace c) =
      encode standard bytes ++ List.replicate k '=' := by
    refine List.filter_eq_self.mpr fun c hc => ?_
    rcases List.mem_append.mp hc with hc | hc
    · rw [(hplain c hc).2]
      rfl
    · rw [List.eq_of_mem_replicate hc]
      rfl
  obtain ⟨j, hj⟩ := dropPadding_signs (fun c hc => (hplain c hc).1) k
  rw [atob, hfilter, hj]
  cases j with
  | zero =>
    rw [List.replicate_zero, List.append_nil]
    exact .inl (decode_encode standard_lawful hbytes)
  | succ j =>
    refine .inr (decode_eq_none (List.mem_append_right _ (List.mem_cons_self (a := '='))) ?_)
    exact fun hmem => absurd rfl (standard_plain _ hmem).1

theorem atob_btoa {bytes : List Nat} (hbytes : ∀ b ∈ bytes, b < 256) : atob (btoa bytes) = some bytes := by
  have hmem := encode_mem standard_lawful hbytes
  have hspace : (btoa bytes).filter (fun c => !isAsciiSpace c) = btoa bytes := by
    refine List.filter_eq_self.mpr fun c hc => ?_
    rcases List.mem_append.mp hc with hold | hpad
    · rw [(standard_plain c (hmem c hold)).2]
      rfl
    · obtain rfl := (List.mem_replicate.mp hpad).2
      rfl
  rw [atob, hspace, btoa, dropPadding_append (fun c hc => (standard_plain c (hmem c hc)).1) (encode_length _ _),
    decode_encode standard_lawful hbytes]

end Peal.Base64
