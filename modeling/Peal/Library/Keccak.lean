import Peal.Library.Sha256

namespace Peal.Keccak
open Peal.Sha256 (toBytes toBytes_length toBytes_lt)

/-! # Keccak-256 on byte lists, lanes being numbers below `2 ^ 64` -/

def rotateLeft (n x : Nat) : Nat := ((x <<< n) % 2 ^ 64) ||| (x >>> (64 - n))

structure Plane where
  a : Nat
  b : Nat
  c : Nat
  d : Nat
  e : Nat

/-- The planes of a state from the lowest to the highest. -/
structure State where
  p : Plane
  q : Plane
  r : Plane
  s : Plane
  t : Plane

def constants : List Nat := [
  0x0000000000000001, 0x0000000000008082, 0x800000000000808a, 0x8000000080008000, 0x000000000000808b,
  0x0000000080000001, 0x8000000080008081, 0x8000000000008009, 0x000000000000008a, 0x0000000000000088,
  0x0000000080008009, 0x000000008000000a, 0x000000008000808b, 0x800000000000008b, 0x8000000000008089,
  0x8000000000008003, 0x8000000000008002, 0x8000000000000080, 0x000000000000800a, 0x800000008000000a,
  0x8000000080008081, 0x8000000000008080, 0x0000000080000001, 0x8000000080008008]

def Plane.xor (x y : Plane) : Plane := ⟨x.a ^^^ y.a, x.b ^^^ y.b, x.c ^^^ y.c, x.d ^^^ y.d, x.e ^^^ y.e⟩

def theta (x : State) : State :=
  let c := (((x.p.xor x.q).xor x.r).xor x.s).xor x.t
  let d : Plane := ⟨c.e ^^^ rotateLeft 1 c.b, c.a ^^^ rotateLeft 1 c.c, c.b ^^^ rotateLeft 1 c.d,
    c.c ^^^ rotateLeft 1 c.e, c.d ^^^ rotateLeft 1 c.a⟩
  ⟨x.p.xor d, x.q.xor d, x.r.xor d, x.s.xor d, x.t.xor d⟩

def rhoPi (x : State) : State where
  p := ⟨x.p.a, rotateLeft 44 x.q.b, rotateLeft 43 x.r.c, rotateLeft 21 x.s.d, rotateLeft 14 x.t.e⟩
  q := ⟨rotateLeft 28 x.p.d, rotateLeft 20 x.q.e, rotateLeft 3 x.r.a, rotateLeft 45 x.s.b, rotateLeft 61 x.t.c⟩
  r := ⟨rotateLeft 1 x.p.b, rotateLeft 6 x.q.c, rotateLeft 25 x.r.d, rotateLeft 8 x.s.e, rotateLeft 18 x.t.a⟩
  s := ⟨rotateLeft 27 x.p.e, rotateLeft 36 x.q.a, rotateLeft 10 x.r.b, rotateLeft 15 x.s.c, rotateLeft 56 x.t.d⟩
  t := ⟨rotateLeft 62 x.p.c, rotateLeft 55 x.q.d, rotateLeft 39 x.r.e, rotateLeft 41 x.s.a, rotateLeft 2 x.t.b⟩

def mix (x y z : Nat) : Nat := x ^^^ ((2 ^ 64 - 1 - y) &&& z)

def Plane.chi (x : Plane) : Plane :=
  ⟨mix x.a x.b x.c, mix x.b x.c x.d, mix x.c x.d x.e, mix x.d x.e x.a, mix x.e x.a x.b⟩

def round (x : State) (constant : Nat) : State :=
  let y := rhoPi (theta x)
  let first := y.p.chi
  ⟨{ first with a := first.a ^^^ constant }, y.q.chi, y.r.chi, y.s.chi, y.t.chi⟩

def permute (x : State) : State := constants.foldl round x

/-- A block of 136 bytes at a time. -/
def pad (m : List Nat) : List Nat :=
  let room := 135 - m.length % 136
  if room = 0 then m ++ [0x81] else m ++ 0x01 :: List.replicate (room - 1) 0 ++ [0x80]

def lanes : List Nat → List Nat
  | a :: b :: c :: d :: e :: f :: g :: h :: rest =>
    (((((((h * 256 + g) * 256 + f) * 256 + e) * 256 + d) * 256 + c) * 256 + b) * 256 + a) :: lanes rest
  | _ => []

/-- The rate: the lowest seventeen lanes. -/
def xorBlock (x : State) (ws : List Nat) : State :=
  let w := fun i => ws.getD i 0
  ⟨x.p.xor ⟨w 0, w 1, w 2, w 3, w 4⟩, x.q.xor ⟨w 5, w 6, w 7, w 8, w 9⟩, x.r.xor ⟨w 10, w 11, w 12, w 13, w 14⟩,
    x.s.xor ⟨w 15, w 16, 0, 0, 0⟩, x.t⟩

def absorb : Nat → State → List Nat → State
  | 0, x, _ => x
  | n + 1, x, ws => absorb n (permute (xorBlock x ws)) (ws.drop 17)

def initial : State := ⟨⟨0, 0, 0, 0, 0⟩, ⟨0, 0, 0, 0, 0⟩, ⟨0, 0, 0, 0, 0⟩, ⟨0, 0, 0, 0, 0⟩, ⟨0, 0, 0, 0, 0⟩⟩

@[irreducible] def keccak256 (m : List Nat) : List Nat :=
  let ws := lanes (pad m)
  let x := absorb (ws.length / 17) initial ws
  [x.p.a, x.p.b, x.p.c, x.p.d].flatMap fun lane => (toBytes 8 lane).reverse

theorem keccak256_length (m : List Nat) : (keccak256 m).length = 32 := by
  unfold keccak256
  simp [toBytes_length]

theorem keccak256_lt (m : List Nat) : ∀ b ∈ keccak256 m, b < 256 := by
  intro b hb
  unfold keccak256 at hb
  obtain ⟨lane, -, hlane⟩ := List.mem_flatMap.mp hb
  exact toBytes_lt (List.mem_reverse.mp hlane)

example : (keccak256 []).take 4 = [0xc5, 0xd2, 0x46, 0x01] := by decide +kernel

end Peal.Keccak
