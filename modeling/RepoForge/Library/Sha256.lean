import Mathlib.Algebra.Group.Nat.Defs
import RepoForge.Library.PyText

/-!
# SHA-256

FIPS 180-4 over natural numbers below `2 ^ 32`: a concrete function for the places where a digest
is a parameter.
-/
namespace RepoForge.Sha256

def wordSize : Nat := 2 ^ 32

def rotr (x n : Nat) : Nat := (x >>> n ||| x <<< (32 - n)) % wordSize

def constants : List Nat := [
  0x428a2f98, 0x71374491, 0xb5c0fbcf, 0xe9b5dba5, 0x3956c25b, 0x59f111f1, 0x923f82a4, 0xab1c5ed5,
  0xd807aa98, 0x12835b01, 0x243185be, 0x550c7dc3, 0x72be5d74, 0x80deb1fe, 0x9bdc06a7, 0xc19bf174,
  0xe49b69c1, 0xefbe4786, 0x0fc19dc6, 0x240ca1cc, 0x2de92c6f, 0x4a7484aa, 0x5cb0a9dc, 0x76f988da,
  0x983e5152, 0xa831c66d, 0xb00327c8, 0xbf597fc7, 0xc6e00bf3, 0xd5a79147, 0x06ca6351, 0x14292967,
  0x27b70a85, 0x2e1b2138, 0x4d2c6dfc, 0x53380d13, 0x650a7354, 0x766a0abb, 0x81c2c92e, 0x92722c85,
  0xa2bfe8a1, 0xa81a664b, 0xc24b8b70, 0xc76c51a3, 0xd192e819, 0xd6990624, 0xf40e3585, 0x106aa070,
  0x19a4c116, 0x1e376c08, 0x2748774c, 0x34b0bcb5, 0x391c0cb3, 0x4ed8aa4a, 0x5b9cca4f, 0x682e6ff3,
  0x748f82ee, 0x78a5636f, 0x84c87814, 0x8cc70208, 0x90befffa, 0xa4506ceb, 0xbef9a3f7, 0xc67178f2]

structure State where
  a : Nat
  b : Nat
  c : Nat
  d : Nat
  e : Nat
  f : Nat
  g : Nat
  h : Nat

def initial : State :=
  ⟨0x6a09e667, 0xbb67ae85, 0x3c6ef372, 0xa54ff53a, 0x510e527f, 0x9b05688c, 0x1f83d9ab, 0x5be0cd19⟩

def State.words (s : State) : List Nat := [s.a, s.b, s.c, s.d, s.e, s.f, s.g, s.h]

def State.add (s t : State) : State :=
  ⟨(s.a + t.a) % wordSize, (s.b + t.b) % wordSize, (s.c + t.c) % wordSize, (s.d + t.d) % wordSize,
    (s.e + t.e) % wordSize, (s.f + t.f) % wordSize, (s.g + t.g) % wordSize, (s.h + t.h) % wordSize⟩

/-- One round, with its word and its constant. -/
def round (s : State) (input : Nat × Nat) : State :=
  let sum1 := rotr s.e 6 ^^^ rotr s.e 11 ^^^ rotr s.e 25
  let choice := s.e &&& s.f ^^^ (wordSize - 1 - s.e) &&& s.g
  let first := s.h + sum1 + choice + input.1 + input.2
  let sum0 := rotr s.a 2 ^^^ rotr s.a 13 ^^^ rotr s.a 22
  let majority := s.a &&& s.b ^^^ s.a &&& s.c ^^^ s.b &&& s.c
  ⟨(first + sum0 + majority) % wordSize, s.a, s.b, s.c, (s.d + first) % wordSize, s.e, s.f, s.g⟩

/-- More words of the schedule, the last first. -/
def extend : Nat → List Nat → List Nat
  | 0, words => words
  | more + 1, words =>
    let at' (n : Nat) := words.getD n 0
    let small0 := rotr (at' 14) 7 ^^^ rotr (at' 14) 18 ^^^ at' 14 >>> 3
    let small1 := rotr (at' 1) 17 ^^^ rotr (at' 1) 19 ^^^ at' 1 >>> 10
    extend more ((at' 15 + small0 + at' 6 + small1) % wordSize :: words)

def compress (s : State) (block : List Nat) : State :=
  s.add (((extend 48 block.reverse).reverse.zip constants).foldl round s)

/-- Big-endian words of four bytes. -/
def wordsOf : Bytes → List Nat
  | a :: b :: c :: d :: rest =>
    (((a.toNat * 256 + b.toNat) * 256 + c.toNat) * 256 + d.toNat) :: wordsOf rest
  | _ => []

def pad (data : Bytes) : Bytes :=
  data ++ [(0x80 : UInt8)] ++ List.replicate ((119 - data.length % 64) % 64) (0 : UInt8) ++
    (List.range 8).map fun i => UInt8.ofNat ((data.length * 8) >>> (56 - 8 * i))

/-- So many blocks of 16 words. -/
def blocks : Nat → List Nat → State → State
  | 0, _, s => s
  | more + 1, words, s => blocks more (words.drop 16) (compress s (words.take 16))

def hexWord (w : Nat) : Text := (List.range 8).map fun i => Nat.digitChar (w >>> (28 - 4 * i) % 16)

def hexdigest (data : Bytes) : Text :=
  let words := wordsOf (pad data)
  (blocks (words.length / 16) words initial).words.flatMap hexWord

theorem hexWord_lower (w : Nat) : (hexWord w).all lowerHex = true := by
  have digit : ∀ n < 16, lowerHex (Nat.digitChar n) = true := by decide
  simp only [hexWord, List.all_map, List.all_eq_true, Function.comp_apply]
  intro i _
  exact digit _ (Nat.mod_lt _ (by decide))

theorem hexdigest_hex (data : Bytes) :
    (hexdigest data).length = 64 ∧ (hexdigest data).all lowerHex = true := by
  constructor
  · simp [hexdigest, State.words, hexWord]
  · simp [hexdigest, State.words, hexWord_lower]

example : hexdigest [97, 98, 99] =
    "ba7816bf8f01cfea414140de5dae2223b00361a396177a9cb410ff61f20015ad".toList := by
  decide +kernel

end RepoForge.Sha256
