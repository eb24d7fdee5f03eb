import Mathlib.Tactic

namespace Peal.Sha256

/-! # SHA-256 on byte lists, words being numbers below `2 ^ 32` -/

def addWord (a b : Nat) : Nat := (a + b) % 2 ^ 32

def rotateRight (n x : Nat) : Nat := (x >>> n) ||| ((x <<< (32 - n)) % 2 ^ 32)

def notWord (x : Nat) : Nat := 2 ^ 32 - 1 - x

def constants : List Nat := [
  0x428a2f98, 0x71374491, 0xb5c0fbcf, 0xe9b5dba5, 0x3956c25b, 0x59f111f1, 0x923f82a4, 0xab1c5ed5,
  0xd807aa98, 0x12835b01, 0x243185be, 0x550c7dc3, 0x72be5d74, 0x80deb1fe, 0x9bdc06a7, 0xc19bf174,
  0xe49b69c1, 0xefbe4786, 0x0fc19dc6, 0x240ca1cc, 0x2de92c6f, 0x4a7484aa, 0x5cb0a9dc, 0x76f988da,
  0x983e5152, 0xa831c66d, 0xb00327c8, 0xbf597fc7, 0xc6e00bf3, 0xd5a79147, 0x06ca6351, 0x14292967,
  0x27b70a85, 0x2e1b2138, 0x4d2c6dfc, 0x53380d13, 0x650a7354, 0x766a0abb, 0x81c2c92e, 0x92722c85,
  0xa2bfe8a1, 0xa81a664b, 0xc24b8b70, 0xc76c51a3, 0xd192e819, 0xd6990624, 0xf40e3585, 0x106aa070,
  0x19a4c116, 0x1e376c08, 0x2748774c, 0x34b0bcb5, 0x391c0cb3, 0x4ed8aa4a, 0x5b9cca4f, 0x682e6ff3,
  0x748f82ee, 0x78a5636f, 0x84c87814, 0x8cc70208, 0x90befffa, 0xa4506ceb, 0xbef9a3f7, 0xc67178f2]

structure Registers where
  a : Nat
  b : Nat
  c : Nat
  d : Nat
  e : Nat
  f : Nat
  g : Nat
  h : Nat

def initial : Registers :=
  ⟨0x6a09e667, 0xbb67ae85, 0x3c6ef372, 0xa54ff53a, 0x510e527f, 0x9b05688c, 0x1f83d9ab, 0x5be0cd19⟩

def round (s : Registers) (kw : Nat) : Registers :=
  let s1 := rotateRight 6 s.e ^^^ rotateRight 11 s.e ^^^ rotateRight 25 s.e
  let choice := (s.e &&& s.f) ^^^ (notWord s.e &&& s.g)
  let t1 := addWord (addWord (addWord s.h s1) choice) kw
  let s0 := rotateRight 2 s.a ^^^ rotateRight 13 s.a ^^^ rotateRight 22 s.a
  let majority := (s.a &&& s.b) ^^^ (s.a &&& s.c) ^^^ (s.b &&& s.c)
  ⟨addWord t1 (addWord s0 majority), s.a, s.b, s.c, addWord s.d t1, s.e, s.f, s.g⟩

/-- The message schedule, the latest word first. -/
def extend : Nat → List Nat → List Nat
  | 0, ws => ws
  | n + 1, ws =>
    let w2 := ws.getD 1 0
    let w15 := ws.getD 14 0
    let s0 := rotateRight 7 w15 ^^^ rotateRight 18 w15 ^^^ (w15 >>> 3)
    let s1 := rotateRight 17 w2 ^^^ rotateRight 19 w2 ^^^ (w2 >>> 10)
    extend n (addWord (addWord (ws.getD 15 0) s0) (addWord (ws.getD 6 0) s1) :: ws)

def compress (s : Registers) (block : List Nat) : Registers :=
  let ws := (extend 48 block.reverse).reverse
  let r := (List.zipWith addWord constants ws).foldl round s
  ⟨addWord s.a r.a, addWord s.b r.b, addWord s.c r.c, addWord s.d r.d, addWord s.e r.e, addWord s.f r.f,
    addWord s.g r.g, addWord s.h r.h⟩

def toBytes : Nat → Nat → List Nat
  | 0, _ => []
  | width + 1, n => (n / 256 ^ width) % 256 :: toBytes width n

def pad (m : List Nat) : List Nat :=
  m ++ 0x80 :: List.replicate ((119 - m.length % 64) % 64) 0 ++ toBytes 8 (8 * m.length)

def words : List Nat → List Nat
  | a :: b :: c :: d :: rest => (((a * 256 + b) * 256 + c) * 256 + d) :: words rest
  | _ => []

def absorb : Nat → Registers → List Nat → Registers
  | 0, s, _ => s
  | n + 1, s, ws => absorb n (compress s (ws.take 16)) (ws.drop 16)

def sha256 (m : List Nat) : List Nat :=
  let ws := words (pad m)
  let r := absorb (ws.length / 16) initial ws
  [r.a, r.b, r.c, r.d, r.e, r.f, r.g, r.h].flatMap (toBytes 4)

lemma toBytes_length (width n : Nat) : (toBytes width n).length = width := by
  induction width with
  | zero => rfl
  | succ width ih => rw [toBytes, List.length_cons, ih]

lemma toBytes_lt {width n b : Nat} (h : b ∈ toBytes width n) : b < 256 := by
  induction width with
  | zero => exact absurd h List.not_mem_nil
  | succ width ih =>
    rcases List.mem_cons.mp h with rfl | hrest
    · exact Nat.mod_lt _ (by decide)
    · exact ih hrest

theorem sha256_length (m : List Nat) : (sha256 m).length = 32 := by
  simp [sha256, toBytes_length]

theorem sha256_lt (m : List Nat) : ∀ b ∈ sha256 m, b < 256 := by
  intro b hb
  obtain ⟨word, -, hword⟩ := List.mem_flatMap.mp hb
  exact toBytes_lt hword

example : (sha256 [97, 98, 99]).take 4 = [0xba, 0x78, 0x16, 0xbf] := by decide +kernel

end Peal.Sha256
