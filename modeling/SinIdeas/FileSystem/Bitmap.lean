import Mathlib.Data.List.Perm.Subperm
import SinIdeas.Lib.BitArray

/-!
# The bitmap of blocks

The functions of `bitmapOperations.c` on the global `bitmap`, whose bit `b` tells
whether block `b` is occupied. Bits after the last block are free bits like any
other: the scan and the count go over whole bytes.
-/

namespace SinIdeas
namespace FileSystem

open Lib

/-- `bitmap`, of `bitmap_size` bytes. -/
structure Bitmap (bitmapSize : Nat) where
  bytes : List (BitVec 8)
  length_bytes : bytes.length = bitmapSize
  deriving DecidableEq

/-- `!(byte & (1 << bit))`. -/
def bitLibre (byte : BitVec 8) (bit : Nat) : Bool := (byte &&& (1#8 <<< bit)) == 0#8

/-- The loops of `buscar_bloque_libre` from the byte with index `i`. -/
def buscarDesde : Nat → List (BitVec 8) → Option Nat
  | _, [] => none
  | i, byte :: resto =>
      match (List.range 8).find? (bitLibre byte) with
      | some bit => some (i * 8 + bit)
      | none => buscarDesde (i + 1) resto

section Operations

variable {n : Nat}

/-- `buscar_bloque_libre`; `none` is its `-1`. -/
def buscarBloqueLibre (bitmap : Bitmap n) : Option Nat := buscarDesde 0 bitmap.bytes

/-- `contar_bloques_libres`. -/
def contarBloquesLibres (bitmap : Bitmap n) : Nat :=
  (bitmap.bytes.map (fun byte => (List.range 8).countP (bitLibre byte))).sum

/-- `marcar_bloque`. -/
def marcarBloque (bloque : Nat) (ocupado : Bool) (bitmap : Bitmap n) : Bitmap n where
  bytes :=
    if ocupado then bitmap.bytes.modify (bloque / 8) (fun byte => byte ||| (1#8 <<< (bloque % 8)))
    else bitmap.bytes.modify (bloque / 8) (fun byte => byte &&& ~~~(1#8 <<< (bloque % 8)))
  length_bytes := by
    split
    · rw [List.length_modify, bitmap.length_bytes]
    · rw [List.length_modify, bitmap.length_bytes]

/-- The block is occupied. -/
def Bitmap.ocupado (bitmap : Bitmap n) (b : Nat) : Bool := bitAt bitmap.bytes b

/-- The free blocks, in the order in which they are found. -/
def Bitmap.libres (bitmap : Bitmap n) : List Nat := zeros bitmap.bytes

/-- A bitmap without occupied blocks. -/
def Bitmap.vacio (n : Nat) : Bitmap n := ⟨List.replicate n 0#8, List.length_replicate⟩

end Operations

section Blocks

variable {n : Nat} {bitmap : Bitmap n} {b c : Nat}

theorem bitLibre_eq
    {byte : BitVec 8} {j : Nat}
    (hj : j < 8) :
    bitLibre byte j = !byte.getLsbD j := by
  have hbit : ∀ i, i < 8 → (byte &&& (1#8 <<< j)).getLsbD i =
      (byte.getLsbD i && decide (j = i)) := by
    intro i hi
    rw [BitVec.getLsbD_and, getLsbD_one_shiftLeft hi]
  cases hset : byte.getLsbD j with
  | true =>
      have hone := hbit j hj
      have hne : (byte &&& (1#8 <<< j)) ≠ 0#8 := by
        intro hzero
        simp [hzero, hset] at hone
      simpa [bitLibre] using hne
  | false =>
      have hzero : (byte &&& (1#8 <<< j)) = 0#8 := by
        refine BitVec.eq_of_getLsbD_eq ?_
        intro i hi
        rw [hbit i hi, BitVec.getLsbD_zero]
        by_cases hij : j = i
        · rw [← hij, hset]
          rfl
        · simp [hij]
      simp [bitLibre, hzero]

theorem filter_bitLibre
    (byte : BitVec 8) :
    (List.range 8).filter (bitLibre byte) = (List.range 8).filter (fun j => !byte.getLsbD j) := by
  refine List.filter_congr ?_
  intro j hj
  exact bitLibre_eq (List.mem_range.mp hj)

theorem buscarDesde_eq
    (i : Nat) (l : List (BitVec 8)) :
    buscarDesde i l = (zeros l).head?.map (fun b => i * 8 + b) := by
  induction l generalizing i with
  | nil =>
      rfl
  | cons byte l ih =>
      have hfind : (List.range 8).find? (bitLibre byte) =
          ((List.range 8).filter (fun j => !byte.getLsbD j)).head? := by
        rw [← filter_bitLibre, List.head?_filter]
      unfold buscarDesde
      rw [hfind, zeros_cons, List.head?_append]
      cases ((List.range 8).filter (fun j => !byte.getLsbD j)).head? with
      | some bit =>
          rfl
      | none =>
          simp only [ih, Option.none_or, List.head?_map, Option.map_map]
          congr 1
          funext b
          simp only [Function.comp_apply]
          omega

/-- The scan finds the first free block. -/
theorem buscarBloqueLibre_eq (bitmap : Bitmap n) : buscarBloqueLibre bitmap = bitmap.libres.head? := by
  rw [buscarBloqueLibre, buscarDesde_eq, Bitmap.libres]
  simp

/-- The count is that of the free blocks. -/
theorem contarBloquesLibres_eq (bitmap : Bitmap n) :
    contarBloquesLibres bitmap = bitmap.libres.length := by
  unfold contarBloquesLibres Bitmap.libres
  generalize bitmap.bytes = l
  induction l with
  | nil =>
      rfl
  | cons byte l ih =>
      rw [List.map_cons, List.sum_cons, ih, zeros_cons, List.length_append, List.length_map,
        List.countP_eq_length_filter, filter_bitLibre]

/-- The free blocks are those that are not occupied, in increasing order. -/
theorem libres_eq_filter (bitmap : Bitmap n) :
    bitmap.libres = (List.range (8 * n)).filter (fun b => !bitmap.ocupado b) := by
  simp only [Bitmap.libres, zeros, bitmap.length_bytes]
  rfl

theorem mem_libres :
    b ∈ bitmap.libres ↔ b < 8 * n ∧ bitmap.ocupado b = false := by
  rw [Bitmap.libres, mem_zeros, bitmap.length_bytes]
  rfl

theorem lt_of_ocupado
    (h : bitmap.ocupado b = true) :
    b < 8 * n := by
  rw [← bitmap.length_bytes]
  exact lt_of_bitAt h

/-- The free blocks are found in increasing order. -/
theorem libres_pairwise (bitmap : Bitmap n) : bitmap.libres.Pairwise (fun b c => b < c) :=
  zeros_pairwise bitmap.bytes

/-- Occupying a block occupies that block alone. -/
theorem ocupado_marcar
    (hb : b < 8 * n) :
    (marcarBloque b true bitmap).ocupado c = (bitmap.ocupado c || decide (c = b)) :=
  bitAt_setBit (by rw [bitmap.length_bytes]; exact hb)

/-- The block that is found is free. -/
theorem mem_libres_of_buscar
    (h : buscarBloqueLibre bitmap = some b) :
    b ∈ bitmap.libres := by
  rw [buscarBloqueLibre_eq] at h
  exact List.mem_of_mem_head? h

/-- Occupying the block that is found. -/
theorem ocupado_marcar_of_buscar
    (h : buscarBloqueLibre bitmap = some b) :
    (marcarBloque b true bitmap).ocupado c = (bitmap.ocupado c || decide (c = b)) :=
  ocupado_marcar (mem_libres.mp (mem_libres_of_buscar h)).1

/-- Freeing a block frees that block alone. -/
theorem ocupado_desmarcar :
    (marcarBloque b false bitmap).ocupado c = (bitmap.ocupado c && !decide (c = b)) :=
  bitAt_clearBit

/-- Occupying the first free block leaves the others free, in their order. -/
theorem libres_marcar
    {ls : List Nat}
    (h : bitmap.libres = b :: ls) :
    (marcarBloque b true bitmap).libres = ls :=
  zeros_setBit h

/-- Between two free blocks there are at least as many blocks as free ones. -/
theorem add_length_le_of_libres
    {ls resto : List Nat}
    (h : bitmap.libres = b :: (ls ++ c :: resto)) :
    b + ls.length + 1 ≤ c := by
  have hsorted := libres_pairwise bitmap
  rw [h] at hsorted
  clear h
  induction ls generalizing b with
  | nil =>
      exact (List.pairwise_cons.mp hsorted).1 c List.mem_cons_self
  | cons d ls ih =>
      obtain ⟨hfirst, hrest⟩ := List.pairwise_cons.mp hsorted
      have hlt : b < d := hfirst d List.mem_cons_self
      have hle : d + ls.length + 1 ≤ c := ih hrest
      rw [List.length_cons]
      omega

theorem nodup_libres (bitmap : Bitmap n) : bitmap.libres.Nodup :=
  (libres_pairwise bitmap).imp Nat.ne_of_lt

/-- Occupying a block takes one free block at most. -/
theorem length_libres_le_marcar
    (b : Nat) (bitmap : Bitmap n) :
    bitmap.libres.length ≤ (marcarBloque b true bitmap).libres.length + 1 := by
  rcases lt_or_ge b (8 * n) with hb | hb
  · have hsub : bitmap.libres ⊆ b :: (marcarBloque b true bitmap).libres := by
      intro c hc
      obtain ⟨hrango, hlibre⟩ := mem_libres.mp hc
      rw [List.mem_cons, mem_libres, ocupado_marcar hb, hlibre]
      by_cases hsame : c = b
      · exact Or.inl hsame
      · exact Or.inr ⟨hrango, by simpa using hsame⟩
    exact (List.subperm_of_subset (nodup_libres bitmap) hsub).length_le
  · -- the byte is not in the bitmap
    have hbyte : bitmap.bytes.length ≤ b / 8 := by
      rw [bitmap.length_bytes]
      omega
    have hsame : (marcarBloque b true bitmap).libres = bitmap.libres := by
      simp only [Bitmap.libres, marcarBloque, if_true, List.modify_eq_self hbyte]
    rw [hsame]
    exact Nat.le_succ _

/-- Freeing a block takes none. -/
theorem length_libres_le_desmarcar
    (b : Nat) (bitmap : Bitmap n) :
    bitmap.libres.length ≤ (marcarBloque b false bitmap).libres.length := by
  have hsub : bitmap.libres ⊆ (marcarBloque b false bitmap).libres := by
    intro c hc
    obtain ⟨hrango, hlibre⟩ := mem_libres.mp hc
    rw [mem_libres, ocupado_desmarcar, hlibre]
    exact ⟨hrango, rfl⟩
  exact (List.subperm_of_subset (nodup_libres bitmap) hsub).length_le

@[simp] theorem ocupado_vacio : (Bitmap.vacio n).ocupado b = false := by
  unfold Bitmap.ocupado bitAt Bitmap.vacio
  split
  · rename_i byte hbyte
    rw [List.getElem?_replicate] at hbyte
    split_ifs at hbyte
    cases hbyte
    simp
  · rfl

@[simp] theorem libres_vacio (n : Nat) : (Bitmap.vacio n).libres = List.range (8 * n) := by
  rw [libres_eq_filter, List.filter_eq_self]
  intro b _
  rw [ocupado_vacio]
  rfl

theorem length_libres_le_bits (bitmap : Bitmap n) : bitmap.libres.length ≤ 8 * n := by
  rw [libres_eq_filter]
  exact (List.length_filter_le _ _).trans_eq List.length_range

end Blocks

end FileSystem
end SinIdeas
