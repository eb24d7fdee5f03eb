import Peal.Bte.Wire

namespace Peal.Bte
open Peal.Fallible Peal.Encoding Peal.Sha256
open Peal.Links (toLeBytes fromLeBytes toLeBytes_length toLeBytes_lt toLeBytes_fromLeBytes fromLeBytes_toLeBytes)

/-! # What the decoders accept -/

lemma toLe_length (width n : Nat) : (toLe width n).length = width := by rw [toLe, List.length_map, toLeBytes_length]

lemma fromLe_toLe {width n : Nat} (h : n < 256 ^ width) : fromLe (toLe width n) = n := by
  have hbytes : ((toLeBytes width n).map UInt8.ofNat).map UInt8.toNat = toLeBytes width n := by
    rw [List.map_map]
    conv_rhs => rw [← List.map_id (toLeBytes width n)]
    apply List.map_congr_left
    intro b hb
    exact UInt8.toNat_ofNat_of_lt' (toLeBytes_lt width n b hb)
  rw [fromLe, toLe, hbytes, fromLeBytes_toLeBytes h]

lemma toLe_fromLe (bytes : Bytes) : toLe bytes.length (fromLe bytes) = bytes := by
  have hread : toLeBytes bytes.length (fromLeBytes (bytes.map UInt8.toNat)) = bytes.map UInt8.toNat := by
    have hlt : ∀ b ∈ bytes.map UInt8.toNat, b < 256 := by
      intro b hb
      obtain ⟨x, -, rfl⟩ := List.mem_map.mp hb
      exact x.toNat_lt
    have := toLeBytes_fromLeBytes hlt
    rwa [List.length_map] at this
  rw [toLe, fromLe, hread, List.map_map]
  conv_rhs => rw [← List.map_id bytes]
  apply List.map_congr_left
  intro b _
  exact UInt8.ofNat_toNat

lemma fromLe_lt (bytes : Bytes) : fromLe bytes < 256 ^ bytes.length := by
  induction bytes with
  | nil => exact Nat.one_pos
  | cons b bytes ih =>
    have hcons : fromLe (b :: bytes) = 256 * fromLe bytes + b.toNat := Peal.Links.fromLeBytes_cons _ _
    have hb : b.toNat < 256 := b.toNat_lt
    rw [hcons, List.length_cons, pow_succ]
    omega

namespace Reader

lemma rest_length (r : Reader) : r.rest.length = r.buf.length - r.pos := List.length_drop

lemma rest_skip (r : Reader) {n : Nat} (h : ¬r.buf.length - r.pos < n) : (r.skip n h).rest = r.rest.drop n :=
  List.drop_drop.symm

lemma rest_start (buf : Bytes) : (start buf).rest = buf := rfl

lemma take_exact (n : Nat) : Exact rest (fun bytes => bytes.length = n) id (take n) := by
  refine ⟨fun r x tail hx hrest => ?_, fun r x r' hrun => ?_⟩
  · have hroom : ¬r.buf.length - r.pos < n := by
      rw [← rest_length, hrest, List.length_append, id, hx]
      omega
    refine ⟨r.skip n hroom, ?_, ?_⟩
    · change take n r = _
      rw [take, dif_neg hroom, ← rest, hrest, id, List.take_left' hx]
    · rw [rest_skip, hrest, id, List.drop_left' hx]
  · change take n r = _ at hrun
    unfold take at hrun
    split_ifs at hrun with hroom
    obtain ⟨rfl, rfl⟩ := Prod.mk.inj (Except.ok.inj hrun)
    rw [rest_skip]
    refine ⟨?_, (List.take_append_drop n r.rest).symm⟩
    rw [List.length_take, List.length_drop]
    omega

lemma takeArray_exact (n : Nat) : Exact rest (fun _ => True) Vector.toList (takeArray n) := by
  refine ⟨fun r x tail _ hrest => ?_, fun r x r' hrun => ?_⟩
  · obtain ⟨r', hread, htail⟩ := (take_exact n).complete r x.toList tail (by simp) hrest
    refine ⟨r', ?_, htail⟩
    change take n r = _ at hread
    change takeArray n r = _
    unfold take at hread
    unfold takeArray
    split_ifs at hread with hroom
    rw [dif_neg hroom]
    obtain ⟨hx, rfl⟩ := Prod.mk.inj (Except.ok.inj hread)
    congr
  · change takeArray n r = _ at hrun
    unfold takeArray at hrun
    split_ifs at hrun with hroom
    obtain ⟨rfl, rfl⟩ := Prod.mk.inj (Except.ok.inj hrun)
    rw [rest_skip]
    refine ⟨trivial, ?_⟩
    exact (List.take_append_drop n r.rest).symm

lemma u8_exact : Exact rest (fun _ => True) (fun b : UInt8 => [b]) u8 := by
  have hmap := (take_exact 1).map (f := fun bytes => bytes.headD 0) (g := fun b => [b]) (fun _ => rfl) fun bytes h => by
    obtain ⟨b, rfl⟩ := List.length_eq_one_iff.mp h
    rfl
  exact hmap.congr (fun b => ⟨fun _ => rfl, fun _ => trivial⟩) fun _ => rfl

lemma u16_exact : Exact rest (fun _ => True) (fun n : UInt16 => toLe 2 n.toNat) u16 := by
  have hmap := (take_exact 2).map (f := fun bytes => UInt16.ofNat (fromLe bytes)) (g := fun n => toLe 2 n.toNat)
    (fun n => by rw [fromLe_toLe n.toNat_lt, UInt16.ofNat_toNat]) fun bytes h => by
      have hlt : fromLe bytes < 256 ^ 2 := h ▸ fromLe_lt bytes
      rw [UInt16.toNat_ofNat_of_lt' hlt, ← h, toLe_fromLe]
  exact hmap.congr (fun n => ⟨fun _ => toLe_length 2 n.toNat, fun _ => trivial⟩) fun _ => rfl

lemma u32_exact : Exact rest (fun _ => True) (fun n : UInt32 => toLe 4 n.toNat) u32 := by
  have hmap := (take_exact 4).map (f := fun bytes => UInt32.ofNat (fromLe bytes)) (g := fun n => toLe 4 n.toNat)
    (fun n => by rw [fromLe_toLe n.toNat_lt, UInt32.ofNat_toNat]) fun bytes h => by
      have hlt : fromLe bytes < 256 ^ 4 := h ▸ fromLe_lt bytes
      rw [UInt32.toNat_ofNat_of_lt' hlt, ← h, toLe_fromLe]
  exact hmap.congr (fun n => ⟨fun _ => toLe_length 4 n.toNat, fun _ => trivial⟩) fun _ => rfl

lemma element_exact {G : Type} {width : Nat} (codec : Canonical G width) (what : String) :
    Exact rest (fun _ => True) codec.serialize (element codec what) := by
  refine ⟨fun r x tail _ hrest => ?_, fun r x r' hrun => ?_⟩
  · obtain ⟨r', hread, htail⟩ := (take_exact width).complete r (codec.serialize x) tail (codec.serialize_length x) hrest
    refine ⟨r', run_bind_eq_ok.mpr ⟨_, r', hread, run_lift_eq_ok.mpr ⟨?_, rfl⟩⟩, htail⟩
    exact expect_eq_ok.mpr (codec.deserialize_serialize x)
  · obtain ⟨bytes, mid, hread, hlift⟩ := run_bind_eq_ok.mp hrun
    obtain ⟨hdecoded, rfl⟩ := run_lift_eq_ok.mp hlift
    rw [codec.serialize_of_deserialize bytes x (expect_eq_ok.mp hdecoded)]
    exact ⟨trivial, ((take_exact width).sound r bytes mid hread).2⟩

lemma header_exact (ty : UInt8) : Exact rest (fun _ => True) (fun _ : Unit => writeHeader ty) (header ty) := by
  refine ⟨fun r x tail _ hrest => ?_, fun r x r' hrun => ?_⟩
  · rw [writeHeader, List.append_assoc] at hrest
    obtain ⟨r₁, hmagic, hrest⟩ := (take_exact 4).complete r BTE_WIRE_V0 _ rfl hrest
    obtain ⟨r₂, hty, hrest⟩ := u8_exact.complete r₁ ty tail trivial hrest
    refine ⟨r₂, ?_, hrest⟩
    simp only [header, run_bind_eq_ok, run_lift_eq_ok, require_eq_ok]
    exact ⟨_, _, hmagic, (), r₁, ⟨rfl, rfl⟩, ty, r₂, hty, rfl, rfl⟩
  · simp only [header, run_bind_eq_ok, run_lift_eq_ok, require_eq_ok] at hrun
    obtain ⟨magic, r₁, hmagic, ⟨⟩, _, ⟨rfl, rfl⟩, ty', r₂, hty, rfl, rfl⟩ := hrun
    have h₁ := ((take_exact 4).sound r _ _ hmagic).2
    have h₂ := (u8_exact.sound _ _ _ hty).2
    refine ⟨trivial, ?_⟩
    rw [h₁, h₂, writeHeader, List.append_assoc]
    rfl

variable {α : Type} {ok : α → Prop} {write : α → Bytes} {fields : Read α}

/-- A decoder accepts exactly the encodings of the values that pass its checks. -/
theorem whole_eq_ok (h : Exact rest ok write fields) {ty : UInt8} {bytes : Bytes} {x : α} :
    whole ty fields bytes = .ok x ↔ ok x ∧ bytes = writeHeader ty ++ write x := by
  have hdone : ∀ r : Reader, r.pos = r.buf.length ↔ r.rest = [] := by
    intro r
    have := r.inside
    rw [rest, List.drop_eq_nil_iff]
    omega
  simp only [whole, bind_eq_ok, finish, require_eq_ok, pure_eq_ok, hdone]
  constructor
  · rintro ⟨⟨y, r⟩, hrun, ⟨⟩, hend, rfl⟩
    obtain ⟨⟨⟩, r₁, hheader, hfields⟩ := run_bind_eq_ok.mp hrun
    obtain ⟨hok, hrest⟩ := h.sound _ _ _ hfields
    refine ⟨hok, ?_⟩
    rw [← rest_start bytes, ((header_exact ty).sound _ _ _ hheader).2, hrest, hend, List.append_nil]
  · rintro ⟨hok, rfl⟩
    obtain ⟨r₁, hheader, hrest⟩ := (header_exact ty).complete (start _) () _ trivial (rest_start _)
    obtain ⟨r₂, hfields, hend⟩ := h.complete r₁ x [] hok (hrest.trans (List.append_nil _).symm)
    exact ⟨(x, r₂), run_bind_eq_ok.mpr ⟨(), r₁, hheader, hfields⟩, (), hend, rfl⟩

end Reader

open Reader

lemma toNat_count {n : Nat} (h : n < 2 ^ 32) : (UInt32.ofNat n).toNat = n := UInt32.toNat_ofNat_of_lt' h

/-! ### Each type -/

variable {c : Curve}

/-- What the decoder checks of a ciphertext. -/
def SealedCiphertext.Valid (x : SealedCiphertext c) : Prop := x.ct2.length ≤ MAX_PAYLOAD_BYTES

lemma SealedCiphertext.fields_exact : Exact rest SealedCiphertext.Valid
    (fun x : SealedCiphertext c => c.g1.serialize x.ct0 ++ (x.ct1.toList ++ (toLe 4 x.ct2.length ++ x.ct2))) fields := by
  refine ⟨fun r x tail hx hrest => ?_, fun r x r' hrun => ?_⟩
  · have hcount : (UInt32.ofNat x.ct2.length).toNat = x.ct2.length :=
      toNat_count (hx.trans_lt (by decide))
    simp only [List.append_assoc] at hrest
    obtain ⟨r₁, hct0, hrest⟩ := (element_exact c.g1 "invalid G1 point").complete _ _ _ trivial hrest
    obtain ⟨r₂, hct1, hrest⟩ := (takeArray_exact 16).complete _ _ _ trivial hrest
    rw [← hcount] at hrest
    obtain ⟨r₃, hlen, hrest⟩ := u32_exact.complete _ _ _ trivial hrest
    obtain ⟨r₄, hct2, hrest⟩ := (take_exact (UInt32.ofNat x.ct2.length).toNat).complete r₃ x.ct2 tail hcount.symm hrest
    refine ⟨r₄, ?_, hrest⟩
    simp only [fields, run_bind_eq_ok, run_lift_eq_ok, run_pure_eq_ok, require_eq_ok]
    exact ⟨_, r₁, hct0, _, r₂, hct1, _, r₃, hlen, (), r₃, ⟨hcount.symm ▸ hx, rfl⟩, _, r₄, hct2, rfl, rfl⟩
  · simp only [fields, run_bind_eq_ok, run_lift_eq_ok, run_pure_eq_ok, require_eq_ok] at hrun
    obtain ⟨ct0, r₁, hct0, ct1, r₂, hct1, len, r₃, hlen, ⟨⟩, _, ⟨hmax, rfl⟩, ct2, r₄, hct2, rfl, rfl⟩ := hrun
    obtain ⟨hlength, h₄⟩ := (take_exact len.toNat).sound _ _ _ hct2
    rw [((element_exact c.g1 _).sound _ _ _ hct0).2, ((takeArray_exact 16).sound _ _ _ hct1).2,
      (u32_exact.sound _ _ _ hlen).2, h₄]
    refine ⟨hlength.trans_le hmax, ?_⟩
    simp only [hlength, List.append_assoc, id]

lemma Share.fields_exact : Exact rest (fun _ => True)
    (fun x : Share c => toLe 2 x.partyIndex.toNat ++ c.g1.serialize x.value) fields := by
  refine ⟨fun r x tail _ hrest => ?_, fun r x r' hrun => ?_⟩
  · rw [List.append_assoc] at hrest
    obtain ⟨r₁, hindex, hrest⟩ := u16_exact.complete _ _ _ trivial hrest
    obtain ⟨r₂, hvalue, hrest⟩ := (element_exact c.g1 "invalid G1 point").complete _ _ _ trivial hrest
    refine ⟨r₂, ?_, hrest⟩
    simp only [fields, run_bind_eq_ok, run_pure_eq_ok]
    exact ⟨_, r₁, hindex, _, r₂, hvalue, rfl, rfl⟩
  · simp only [fields, run_bind_eq_ok, run_pure_eq_ok] at hrun
    obtain ⟨index, r₁, hindex, value, r₂, hvalue, rfl, rfl⟩ := hrun
    rw [(u16_exact.sound _ _ _ hindex).2, ((element_exact c.g1 _).sound _ _ _ hvalue).2]
    exact ⟨trivial, (List.append_assoc _ _ _).symm⟩

/-- What the decoder checks of public parameters; the digest is always that of the bytes. -/
structure PublicParams.Valid (x : PublicParams c) : Prop where
  committee : ¬(x.n = 0 ∨ x.t = 0 ∨ x.t > x.n ∨ x.b = 0)
  powers : x.powersOfH.length = 2 * x.b.toNat + 1
  counted : 2 * x.b.toNat + 1 < 2 ^ 32
  parties : x.verificationKeys.length = x.n.toNat
  slots : ∀ party ∈ x.verificationKeys, party.length = x.b.toNat
  digest : x.digest = sha256 (x.toBytes.map UInt8.toNat)

lemma PublicParams.fields_exact : Exact rest PublicParams.Valid
    (fun x : PublicParams c => toLe 2 x.n.toNat ++ (toLe 2 x.t.toNat ++ (toLe 4 x.b.toNat ++ (c.gt.serialize x.ek.e ++
      (toLe 4 x.powersOfH.length ++ (x.powersOfH.flatMap c.g2.serialize ++
        x.verificationKeys.flatMap fun party => party.flatMap c.g2.serialize)))))) fields := by
  have hg2 := element_exact c.g2 "invalid G2 point"
  refine ⟨fun r x tail hx hrest => ?_, fun r x r' hrun => ?_⟩
  · have hcount : (UInt32.ofNat x.powersOfH.length).toNat = x.powersOfH.length :=
      toNat_count (hx.powers ▸ hx.counted)
    simp only [List.append_assoc] at hrest
    obtain ⟨r₁, hn, hrest⟩ := u16_exact.complete _ _ _ trivial hrest
    obtain ⟨r₂, ht, hrest⟩ := u16_exact.complete _ _ _ trivial hrest
    obtain ⟨r₃, hb, hrest⟩ := u32_exact.complete _ _ _ trivial hrest
    obtain ⟨r₄, he, hrest⟩ := (element_exact c.gt "invalid G_T element").complete _ _ _ trivial hrest
    rw [← hcount] at hrest
    obtain ⟨r₅, hh, hrest⟩ := u32_exact.complete _ _ _ trivial hrest
    obtain ⟨r₆, hpowers, hrest⟩ := (hg2.many (UInt32.ofNat x.powersOfH.length).toNat).complete r₅ x.powersOfH _
      ⟨hcount.symm, fun _ _ => trivial⟩ hrest
    obtain ⟨r₇, hkeys, hrest⟩ := ((hg2.many x.b.toNat).many x.n.toNat).complete r₆ x.verificationKeys tail
      ⟨hx.parties, fun party hparty => ⟨hx.slots party hparty, fun _ _ => trivial⟩⟩ hrest
    refine ⟨r₇, ?_, hrest⟩
    simp only [fields, run_bind_eq_ok, run_lift_eq_ok, run_pure_eq_ok, require_eq_ok]
    refine ⟨_, r₁, hn, _, r₂, ht, _, r₃, hb, (), r₃, ⟨hx.committee, rfl⟩, _, r₄, he, _, r₅, hh, (), r₅,
      ⟨hcount.trans hx.powers, rfl⟩, _, r₆, hpowers, _, r₇, hkeys, ?_, rfl⟩
    obtain ⟨n, t, b, ek, powers, keys, digest⟩ := x
    have hdigest : digest = sha256 (toBytes ⟨n, t, b, ek, powers, keys, digest⟩ |>.map UInt8.toNat) := hx.digest
    rw [hdigest]
    rfl
  · simp only [fields, run_bind_eq_ok, run_lift_eq_ok, run_pure_eq_ok, require_eq_ok] at hrun
    obtain ⟨n, r₁, hn, t, r₂, ht, b, r₃, hb, ⟨⟩, _, ⟨hcommittee, rfl⟩, e, r₄, he, count, r₅, hh, ⟨⟩, _, ⟨hcount, rfl⟩,
      powers, r₆, hpowers, keys, r₇, hkeys, rfl, rfl⟩ := hrun
    obtain ⟨⟨hlength, -⟩, h₆⟩ := (hg2.many count.toNat).sound _ _ _ hpowers
    obtain ⟨⟨hparties, hslots⟩, h₇⟩ := ((hg2.many b.toNat).many n.toNat).sound _ _ _ hkeys
    refine ⟨⟨hcommittee, hlength.trans hcount, hcount ▸ count.toNat_lt, hparties, fun party hparty => (hslots party hparty).1,
      rfl⟩, ?_⟩
    rw [(u16_exact.sound _ _ _ hn).2, (u16_exact.sound _ _ _ ht).2, (u32_exact.sound _ _ _ hb).2,
      ((element_exact c.gt _).sound _ _ _ he).2, (u32_exact.sound _ _ _ hh).2, h₆, h₇]
    simp only [PublicParams.assemble, hlength, List.append_assoc]

/-- What the decoder checks of an operator's secret, and what its count can say. -/
structure OperatorSecret.Valid (x : OperatorSecret c) : Prop where
  oneBased : ¬x.partyIndex = 0
  counted : x.shares.length < 2 ^ 32

lemma OperatorSecret.fields_exact : Exact rest OperatorSecret.Valid
    (fun x : OperatorSecret c => toLe 2 x.partyIndex.toNat ++ (toLe 4 x.shares.length ++
      x.shares.flatMap c.scalar.serialize)) fields := by
  have hscalar := element_exact c.scalar "invalid scalar"
  refine ⟨fun r x tail hx hrest => ?_, fun r x r' hrun => ?_⟩
  · have hcount : (UInt32.ofNat x.shares.length).toNat = x.shares.length := toNat_count hx.counted
    simp only [List.append_assoc] at hrest
    obtain ⟨r₁, hindex, hrest⟩ := u16_exact.complete _ _ _ trivial hrest
    rw [← hcount] at hrest
    obtain ⟨r₂, hlen, hrest⟩ := u32_exact.complete _ _ _ trivial hrest
    obtain ⟨r₃, hshares, hrest⟩ := (hscalar.many (UInt32.ofNat x.shares.length).toNat).complete r₂ x.shares tail
      ⟨hcount.symm, fun _ _ => trivial⟩ hrest
    refine ⟨r₃, ?_, hrest⟩
    simp only [fields, run_bind_eq_ok, run_lift_eq_ok, run_pure_eq_ok, require_eq_ok]
    exact ⟨_, r₁, hindex, (), r₁, ⟨hx.oneBased, rfl⟩, _, r₂, hlen, _, r₃, hshares, rfl, rfl⟩
  · simp only [fields, run_bind_eq_ok, run_lift_eq_ok, run_pure_eq_ok, require_eq_ok] at hrun
    obtain ⟨index, r₁, hindex, ⟨⟩, _, ⟨hone, rfl⟩, count, r₂, hlen, shares, r₃, hshares, rfl, rfl⟩ := hrun
    obtain ⟨⟨hlength, -⟩, h₃⟩ := (hscalar.many count.toNat).sound _ _ _ hshares
    refine ⟨⟨hone, hlength ▸ count.toNat_lt⟩, ?_⟩
    rw [(u16_exact.sound _ _ _ hindex).2, (u32_exact.sound _ _ _ hlen).2, h₃]
    simp only [hlength, List.append_assoc]

/-! ### Canonicity -/

/-- A wire format without slack: what is decoded is what was encoded, of the values that pass the decoder's checks
alone, and no byte may be missing or added. -/
structure Tight {α : Type} (Valid : α → Prop) (toBytes : α → Bytes) (fromBytes : Bytes → Except BteError α) : Prop where
  roundTrip : ∀ x, fromBytes (toBytes x) = .ok x ↔ Valid x
  canonical : ∀ bytes x, fromBytes bytes = .ok x → toBytes x = bytes
  truncated : ∀ start rest x, fromBytes (start ++ rest) = .ok x → rest ≠ [] → ∃ e, fromBytes start = .error e
  extended : ∀ bytes more x, fromBytes bytes = .ok x → more ≠ [] → ∃ e, fromBytes (bytes ++ more) = .error e

lemma tight_of_exact {α : Type} {Valid : α → Prop} {toBytes write : α → Bytes} {fields : Read α} {ty : UInt8}
    (h : Exact rest Valid write fields) (hbytes : ∀ x, toBytes x = writeHeader ty ++ write x) :
    Tight Valid toBytes (whole ty fields) := by
  have hfree : PrefixFree Valid write := h.prefixFree fun input => ⟨start input, rest_start input⟩
  -- two accepted byte strings, one after the start of the other, are the same
  have hsame : ∀ bytes more x y, whole ty fields bytes = .ok x → whole ty fields (bytes ++ more) = .ok y → more = [] := by
    intro bytes more x y hx hy
    obtain ⟨hvx, rfl⟩ := (whole_eq_ok h).mp hx
    obtain ⟨hvy, heq⟩ := (whole_eq_ok h).mp hy
    rw [List.append_assoc, List.append_cancel_left_eq] at heq
    exact (hfree hvx hvy (heq.trans (List.append_nil _).symm)).2
  have hfails : ∀ bytes, (∀ x, whole ty fields bytes ≠ .ok x) → ∃ e, whole ty fields bytes = .error e := by
    intro bytes hno
    cases hrun : whole ty fields bytes with
    | ok x => exact absurd hrun (hno x)
    | error e => exact ⟨e, rfl⟩
  refine ⟨fun x => ?_, fun bytes x hx => ?_, fun first more x hx hmore => ?_, fun bytes more x hx hmore => ?_⟩
  · rw [whole_eq_ok h, hbytes]
    exact and_iff_left rfl
  · obtain ⟨-, heq⟩ := (whole_eq_ok h).mp hx
    rw [hbytes, heq]
  · exact hfails first fun y hy => hmore (hsame first more y x hy hx)
  · exact hfails _ fun y hy => hmore (hsame bytes more x y hx hy)

lemma whole_type {α : Type} {Valid : α → Prop} {write : α → Bytes} {fields : Read α} {ty : UInt8}
    (h : Exact rest Valid write fields) {bytes : Bytes} {x : α} (hx : whole ty fields bytes = .ok x) :
    bytes.take 5 = writeHeader ty := by
  obtain ⟨-, rfl⟩ := (whole_eq_ok h).mp hx
  exact List.take_left' rfl

inductive WireType where
  | sealedCiphertext
  | share
  | publicParams
  | operatorSecret

/-- The type byte of each wire type. -/
def WireType.byte : WireType → UInt8
  | .sealedCiphertext => TYPE_SEALED_CIPHERTEXT
  | .share => TYPE_SHARE
  | .publicParams => TYPE_PUBLIC_PARAMS
  | .operatorSecret => TYPE_OPERATOR_SECRET

/-- The decoder of the type accepts the bytes. -/
def Accepts (c : Curve) (bytes : Bytes) : WireType → Prop
  | .sealedCiphertext => ∃ x : SealedCiphertext c, SealedCiphertext.fromBytes bytes = .ok x
  | .share => ∃ x : Share c, Share.fromBytes bytes = .ok x
  | .publicParams => ∃ x : PublicParams c, PublicParams.fromBytes bytes = .ok x
  | .operatorSecret => ∃ x : OperatorSecret c, OperatorSecret.fromBytes bytes = .ok x

lemma Accepts.take_header {bytes : Bytes} {ty : WireType} (h : Accepts c bytes ty) :
    bytes.take 5 = writeHeader ty.byte := by
  cases ty with
  | sealedCiphertext =>
    obtain ⟨x, hx⟩ := h
    exact whole_type SealedCiphertext.fields_exact hx
  | share =>
    obtain ⟨x, hx⟩ := h
    exact whole_type Share.fields_exact hx
  | publicParams =>
    obtain ⟨x, hx⟩ := h
    exact whole_type PublicParams.fields_exact hx
  | operatorSecret =>
    obtain ⟨x, hx⟩ := h
    exact whole_type OperatorSecret.fields_exact hx

lemma WireType.byte_injective {a b : WireType} (h : writeHeader a.byte = writeHeader b.byte) : a = b := by
  cases a <;> cases b <;> first | rfl | exact absurd h (by decide)

/-- Each of the four formats is tight, and no byte string is a value of two of them. -/
theorem wire_formats (c : Curve) :
    Tight SealedCiphertext.Valid (SealedCiphertext.toBytes (c := c)) SealedCiphertext.fromBytes ∧
      Tight (fun _ => True) (Share.toBytes (c := c)) Share.fromBytes ∧
      Tight PublicParams.Valid (PublicParams.toBytes (c := c)) PublicParams.fromBytes ∧
      Tight OperatorSecret.Valid (OperatorSecret.toBytes (c := c)) OperatorSecret.fromBytes ∧
      ∀ bytes a b, Accepts c bytes a → Accepts c bytes b → a = b := by
  refine ⟨tight_of_exact SealedCiphertext.fields_exact fun x => ?_, tight_of_exact Share.fields_exact fun x => ?_,
    tight_of_exact PublicParams.fields_exact fun x => ?_, tight_of_exact OperatorSecret.fields_exact fun x => ?_, ?_⟩
  · simp only [SealedCiphertext.toBytes, List.append_assoc]
  · simp only [Share.toBytes, List.append_assoc]
  · simp only [PublicParams.toBytes, List.append_assoc]
  · simp only [OperatorSecret.toBytes, List.append_assoc]
  · intro bytes a b ha hb
    exact WireType.byte_injective (ha.take_header.symm.trans hb.take_header)

/-! ### A value that the types allow and the decoder refuses -/

def rawDeserialize (width : Nat) (bytes : Bytes) : Option (Vector UInt8 width) :=
  if h : bytes.toArray.size = width then some ⟨bytes.toArray, h⟩ else none

lemma raw_length {width : Nat} (x : Vector UInt8 width) : x.toList.length = width := by simp

lemma raw_deserialize_serialize {width : Nat} (x : Vector UInt8 width) : rawDeserialize width x.toList = some x := by
  unfold rawDeserialize
  rw [dif_pos (by simp)]
  rfl

lemma raw_serialize_of_deserialize {width : Nat} (bytes : Bytes) (x : Vector UInt8 width)
    (h : rawDeserialize width bytes = some x) : x.toList = bytes := by
  unfold rawDeserialize at h
  split_ifs at h
  obtain rfl := Option.some.inj h
  rfl

/-- Elements that are their own encodings. -/
def rawCodec (width : Nat) : Canonical (Vector UInt8 width) width :=
  ⟨Vector.toList, rawDeserialize width, raw_length, raw_deserialize_serialize, raw_serialize_of_deserialize⟩

def sampleCurve : Curve := ⟨_, _, _, _, rawCodec _, rawCodec _, rawCodec _, rawCodec _⟩

/-- A body one byte longer than any payload. -/
def oversized : SealedCiphertext sampleCurve :=
  ⟨Vector.replicate 48 0, Vector.replicate 16 0, List.replicate (MAX_PAYLOAD_BYTES + 1) 0⟩

theorem oversized_refused : SealedCiphertext.fromBytes (SealedCiphertext.toBytes oversized) ≠ .ok oversized := by
  intro h
  obtain ⟨hvalid, -⟩ := (whole_eq_ok SealedCiphertext.fields_exact).mp h
  have hlength : oversized.ct2.length = MAX_PAYLOAD_BYTES + 1 := List.length_replicate
  have hle : oversized.ct2.length ≤ MAX_PAYLOAD_BYTES := hvalid
  omega

end Peal.Bte
