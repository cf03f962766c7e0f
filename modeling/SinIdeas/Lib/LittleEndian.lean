import Mathlib.Data.List.Basic
import Mathlib.Tactic.Ring

/-!
# 32-bit words as four little-endian bytes

`encode32` is what copying a 32-bit word into a buffer writes, `decode32` what
copying four bytes into a word reads. `take32` reads a word at the front of a
buffer and returns the rest, which is how a record of words is parsed.
-/

namespace SinIdeas
namespace Lib

/-- The `n` low bytes of `v`, least significant first. -/
def leBytes : Nat → Nat → List UInt8
  | 0, _ => []
  | n + 1, v => UInt8.ofNat v :: leBytes n (v / 256)

/-- The value of a little-endian byte string. -/
def leValue : List UInt8 → Nat
  | [] => 0
  | b :: l => b.toNat + 256 * leValue l

/-- The bytes of a word. -/
def encode32 (v : UInt32) : List UInt8 := leBytes 4 v.toNat

/-- The word at the front of a buffer, if there are four bytes. -/
def decode32 (l : List UInt8) : Option UInt32 :=
  if 4 ≤ l.length then some (UInt32.ofNat (leValue (l.take 4))) else none

/-- Read a word and move past it. -/
def take32 (l : List UInt8) : Option (UInt32 × List UInt8) :=
  (decode32 l).map (fun v => (v, l.drop 4))

@[simp] theorem length_leBytes
    (n v : Nat) :
    (leBytes n v).length = n := by
  induction n generalizing v with
  | zero =>
      rfl
  | succ n ih =>
      simp [leBytes, ih]

theorem leValue_leBytes
    (n v : Nat) :
    leValue (leBytes n v) = v % 256 ^ n := by
  induction n generalizing v with
  | zero =>
      simp [leBytes, leValue, Nat.mod_one]
  | succ n ih =>
      have hbyte : (UInt8.ofNat v).toNat = v % 256 := by
        simp
      rw [leBytes, leValue, ih, hbyte, Nat.pow_succ', Nat.mod_mul]

/-- Bytes are the ones of their value. -/
theorem leBytes_leValue
    (l : List UInt8) :
    leBytes l.length (leValue l) = l := by
  induction l with
  | nil =>
      rfl
  | cons b l ih =>
      have hbyte : UInt8.ofNat (b.toNat + 256 * leValue l) = b := by
        apply UInt8.toNat_inj.mp
        rw [UInt8.toNat_ofNat', Nat.add_mul_mod_self_left]
        exact Nat.mod_eq_of_lt b.toNat_lt
      have hrest : (b.toNat + 256 * leValue l) / 256 = leValue l := by
        have hlt := b.toNat_lt
        omega
      rw [List.length_cons, leValue, leBytes, hbyte, hrest, ih]

theorem leValue_lt
    (l : List UInt8) :
    leValue l < 256 ^ l.length := by
  induction l with
  | nil =>
      exact Nat.one_pos
  | cons b l ih =>
      have hlt := b.toNat_lt
      rw [leValue, List.length_cons, Nat.pow_succ']
      omega

/-- Four bytes are the ones of the word that is read from them. -/
theorem encode32_leValue
    {l : List UInt8}
    (h : l.length = 4) :
    encode32 (UInt32.ofNat (leValue l)) = l := by
  have hlt := leValue_lt l
  rw [h] at hlt
  have hword : (UInt32.ofNat (leValue l)).toNat = leValue l :=
    UInt32.toNat_ofNat_of_lt' hlt
  rw [encode32, hword, ← h, leBytes_leValue]

@[simp] theorem length_encode32 (v : UInt32) : (encode32 v).length = 4 :=
  length_leBytes 4 v.toNat

/-- Reading back a word that was written. -/
@[simp] theorem decode32_encode32
    (v : UInt32) (l : List UInt8) :
    decode32 (encode32 v ++ l) = some v := by
  have hvalue : leValue (encode32 v) = v.toNat := by
    rw [encode32, leValue_leBytes]
    exact Nat.mod_eq_of_lt v.toNat_lt
  have htake : (encode32 v ++ l).take 4 = encode32 v := by
    rw [← length_encode32 v, List.take_left']
    rfl
  simp [decode32, htake, hvalue]

@[simp] theorem take32_encode32
    (v : UInt32) (l : List UInt8) :
    take32 (encode32 v ++ l) = some (v, l) := by
  have hdrop : (encode32 v ++ l).drop 4 = l := by
    rw [← length_encode32 v, List.drop_left']
    rfl
  simp [take32, hdrop]

/-- The words in a byte string; what is left at the end is dropped. -/
def words : List UInt8 → List UInt32
  | a :: b :: c :: d :: l => UInt32.ofNat (leValue [a, b, c, d]) :: words l
  | _ => []

theorem words_encode32_append
    (v : UInt32) (l : List UInt8) :
    words (encode32 v ++ l) = v :: words l := by
  have hvalue : UInt32.ofNat (leValue (encode32 v)) = v := by
    have h := decode32_encode32 v []
    simpa [decode32, List.take_of_length_le] using h
  calc words (encode32 v ++ l)
      = UInt32.ofNat (leValue (encode32 v)) :: words l := rfl
    _ = v :: words l := by rw [hvalue]

@[simp] theorem words_flatMap_encode32
    (vs : List UInt32) :
    words (vs.flatMap encode32) = vs := by
  induction vs with
  | nil =>
      rfl
  | cons v vs ih =>
      rw [List.flatMap_cons, words_encode32_append, ih]

@[simp] theorem length_flatMap_encode32
    (vs : List UInt32) :
    (vs.flatMap encode32).length = 4 * vs.length := by
  induction vs with
  | nil =>
      rfl
  | cons v vs ih =>
      rw [List.flatMap_cons, List.length_append, length_encode32, ih, List.length_cons]
      omega

theorem encode32_inj
    {v w : UInt32}
    (h : encode32 v = encode32 w) :
    v = w := by
  have hv := decode32_encode32 v []
  rw [h, decode32_encode32] at hv
  exact (Option.some.inj hv).symm

end Lib
end SinIdeas
