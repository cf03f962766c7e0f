import Mathlib.Data.List.Basic
import Mathlib.Data.List.Range
import Mathlib.Tactic.Ring

/-!
# Arrays of bits in bytes

Bit `b` of a list of bytes is bit `b % 8` of byte `b / 8`. `zeros` are the clear
bits in order: setting the first of them leaves the others, which is how a scan
that takes the first clear bit again and again is computed.
-/

namespace SinIdeas
namespace Lib

/-- Bit `b` is set. -/
def bitAt (l : List (BitVec 8)) (b : Nat) : Bool :=
  match l[b / 8]? with
  | some byte => byte.getLsbD (b % 8)
  | none => false

/-- The byte with bit `j` set. -/
def setInByte (j : Nat) (byte : BitVec 8) : BitVec 8 := byte ||| (1#8 <<< j)

/-- The byte with bit `j` clear. -/
def clearInByte (j : Nat) (byte : BitVec 8) : BitVec 8 := byte &&& ~~~(1#8 <<< j)

/-- Set bit `b`. -/
def setBit (b : Nat) (l : List (BitVec 8)) : List (BitVec 8) := l.modify (b / 8) (setInByte (b % 8))

/-- Clear bit `b`. -/
def clearBit (b : Nat) (l : List (BitVec 8)) : List (BitVec 8) :=
  l.modify (b / 8) (clearInByte (b % 8))

/-- The clear bits, in order. -/
def zeros (l : List (BitVec 8)) : List Nat :=
  (List.range (8 * l.length)).filter (fun b => !bitAt l b)

section Bits

variable {l : List (BitVec 8)} {b c : Nat}

@[simp] theorem length_setBit : (setBit b l).length = l.length :=
  List.length_modify _ _ _

theorem getLsbD_one_shiftLeft
    {i j : Nat}
    (hj : j < 8) :
    ((1#8) <<< i).getLsbD j = decide (i = j) := by
  rw [BitVec.getLsbD_shiftLeft, BitVec.getLsbD_one]
  by_cases hij : i = j
  · simp [hij, hj]
  · simp only [hij, decide_false]
    by_cases hlt : j < i
    · simp [hlt]
    · simp only [hj, hlt, decide_true, decide_false, Bool.not_false, Bool.true_and]
      have hpos : j - i ≠ 0 := by omega
      simp [hpos]

/-- A set bit is one of the array. -/
theorem lt_of_bitAt
    (h : bitAt l b = true) :
    b < 8 * l.length := by
  unfold bitAt at h
  split at h
  · rename_i byte hbyte
    have hlt : b / 8 < l.length := (List.getElem?_eq_some_iff.mp hbyte).1
    omega
  · cases h

/-- A change of one byte is seen by the bits in it. -/
theorem bitAt_modify
    {f : BitVec 8 → BitVec 8} {i : Nat} :
    bitAt (l.modify i f) c =
      if i = c / 8 then ((l[c / 8]?).map (fun byte => (f byte).getLsbD (c % 8))).getD false
      else bitAt l c := by
  unfold bitAt
  rw [List.getElem?_modify]
  by_cases hsame : i = c / 8
  · subst hsame
    cases l[c / 8]? with
    | none =>
        simp
    | some byte =>
        simp
  · cases l[c / 8]? with
    | none =>
        simp [hsame]
    | some byte =>
        simp [hsame]

/-- Setting a bit of the array sets that bit alone. -/
theorem bitAt_setBit
    (hb : b < 8 * l.length) :
    bitAt (setBit b l) c = (bitAt l c || decide (c = b)) := by
  rw [setBit, bitAt_modify]
  by_cases hsame : b / 8 = c / 8
  · have hlt : c / 8 < l.length := by omega
    have hiff : (b % 8 = c % 8) ↔ c = b := by omega
    rw [if_pos hsame, bitAt, List.getElem?_eq_getElem hlt]
    simp only [Option.map_some, Option.getD_some, setInByte, BitVec.getLsbD_or]
    rw [getLsbD_one_shiftLeft (Nat.mod_lt _ (by omega))]
    simp only [hiff]
  · have hne : c ≠ b := by
      rintro rfl
      exact hsame rfl
    simp [hsame, hne]

/-- Clearing a bit clears that bit alone. -/
theorem bitAt_clearBit :
    bitAt (clearBit b l) c = (bitAt l c && !decide (c = b)) := by
  rw [clearBit, bitAt_modify]
  by_cases hsame : b / 8 = c / 8
  · rw [if_pos hsame, bitAt]
    cases l[c / 8]? with
    | none =>
        rfl
    | some byte =>
        have hlt : c % 8 < 8 := Nat.mod_lt _ (by omega)
        have hiff : (b % 8 = c % 8) ↔ c = b := by omega
        simp only [Option.map_some, Option.getD_some, clearInByte, BitVec.getLsbD_and,
          BitVec.getLsbD_not]
        rw [getLsbD_one_shiftLeft hlt]
        simp [hiff, hlt]
  · have hne : c ≠ b := by
      rintro rfl
      exact hsame rfl
    simp [hsame, hne]

theorem mem_zeros :
    b ∈ zeros l ↔ b < 8 * l.length ∧ bitAt l b = false := by
  simp [zeros]

/-- The clear bits are in increasing order. -/
theorem zeros_pairwise (l : List (BitVec 8)) : (zeros l).Pairwise (fun b c => b < c) :=
  List.Pairwise.filter _ List.pairwise_lt_range

/-- Setting the first clear bit leaves the others. -/
theorem zeros_setBit
    {zs : List Nat}
    (h : zeros l = b :: zs) :
    zeros (setBit b l) = zs := by
  have hb : b < 8 * l.length := (mem_zeros.mp (h ▸ List.mem_cons_self)).1
  have hfilter : zeros (setBit b l) = (zeros l).filter (fun c => !decide (c = b)) := by
    unfold zeros
    rw [length_setBit, List.filter_filter]
    refine List.filter_congr ?_
    intro c _
    rw [bitAt_setBit hb, Bool.not_or, Bool.and_comm]
  have hsorted := zeros_pairwise l
  rw [h] at hfilter hsorted
  rw [hfilter, List.filter_cons_of_neg (by simp), List.filter_eq_self]
  intro c hc
  have hlt := (List.pairwise_cons.mp hsorted).1 c hc
  simp only [Bool.not_eq_true', decide_eq_false_iff_not]
  omega

end Bits

section Append

variable {l : List (BitVec 8)} {byte : BitVec 8} {b : Nat}

theorem bitAt_cons_of_lt
    (hb : b < 8) :
    bitAt (byte :: l) b = byte.getLsbD b := by
  have hzero : b / 8 = 0 := by omega
  have hmod : b % 8 = b := by omega
  simp [bitAt, hzero, hmod]

theorem bitAt_cons_add :
    bitAt (byte :: l) (8 + b) = bitAt l b := by
  have hdiv : (8 + b) / 8 = b / 8 + 1 := by omega
  have hmod : (8 + b) % 8 = b % 8 := by omega
  simp [bitAt, hdiv, hmod]

/-- The clear bits of the first byte come first. -/
theorem zeros_cons :
    zeros (byte :: l) = (List.range 8).filter (fun j => !byte.getLsbD j) ++
      (zeros l).map (fun b => 8 + b) := by
  have hlen : 8 * (byte :: l).length = 8 + 8 * l.length := by
    simp only [List.length_cons]
    ring
  unfold zeros
  rw [hlen, List.range_add, List.filter_append, List.filter_map]
  have hfirst : (List.range 8).filter (fun b => !bitAt (byte :: l) b) =
      (List.range 8).filter (fun j => !byte.getLsbD j) := by
    refine List.filter_congr ?_
    intro j hj
    rw [bitAt_cons_of_lt (List.mem_range.mp hj)]
  have hrest : (fun b => !bitAt (byte :: l) b) ∘ (fun b => 8 + b) = fun b => !bitAt l b := by
    funext b
    simp only [Function.comp_apply, bitAt_cons_add]
  rw [hfirst, hrest]

end Append

end Lib
end SinIdeas
