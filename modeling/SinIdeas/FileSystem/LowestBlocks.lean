import Mathlib.Algebra.Order.Floor.Div
import SinIdeas.FileSystem.OwnBlocks

/-!
# Assignment of the lowest blocks

A call of `asignar_bloques` for a file of `n` data blocks takes the `n + 1` lowest
free blocks or leaves the bitmap as it is: the count at its start rules out that the
rounds run out of blocks. The count is compared with `n + 1` in 32 bits, and with
blocks of one byte and the largest file that sum is zero: the check lets the call
through, and it takes what is free before it fails.
-/

namespace SinIdeas
namespace FileSystem

section LowestBlocks

variable {f : Formato} {bitmap : Bitmap f.bitmapSize} {size : UInt32} {datos : List UInt8}

/-- The index block and the data blocks of a file. -/
def Formato.bloquesTotales (f : Formato) (size : UInt32) : Nat := size.toNat ⌈/⌉ f.blockSize + 1

/-- The local variables of `asignar_bloques` before the first round. -/
def antesDelBucle (f : Formato) (bitmap : Bitmap f.bitmapSize) (size : UInt32)
    (datos : List UInt8) (bloqueIndice : Nat) : Asignacion f where
  bitmap := marcarBloque bloqueIndice true bitmap
  punteros := []
  datos := datos
  remainingWords := size.toNat / 4
  escrituras := []

/-- The call gets past the check of the count and a round of its loop finds no block. -/
def SeAgota (f : Formato) (bitmap : Bitmap f.bitmapSize) (size : UInt32) (datos : List UInt8) :
    Prop :=
  ¬ contarBloquesLibres bitmap < (f.bloquesNecesarios size + 1) % 2 ^ 32 ∧
  ∃ bloqueIndice, buscarBloqueLibre bitmap = some bloqueIndice ∧
    (asignarDatos f (f.bloquesNecesarios size)
      (antesDelBucle f bitmap size datos bloqueIndice)).2 = false

/-- The lowest free blocks, one for the index and one for each part of the file. -/
def menoresLibres (f : Formato) (bitmap : Bitmap f.bitmapSize) (size : UInt32) : List Nat :=
  ((List.range (8 * f.bitmapSize)).filter (fun b => !bitmap.ocupado b)).take (f.bloquesTotales size)

/-- The call takes exactly the lowest free blocks, or is refused and takes none. -/
structure TomaLosMenores (f : Formato) (bitmap : Bitmap f.bitmapSize) (size : UInt32)
    (datos : List UInt8) : Prop where
  exito : (asignar f bitmap size datos).indice.isSome = true ↔
    f.bloquesTotales size ≤ contarBloquesLibres bitmap
  orden : ∀ indice, (asignar f bitmap size datos).indice = some indice →
    indice :: (asignar f bitmap size datos).punteros = menoresLibres f bitmap size
  ocupados : (asignar f bitmap size datos).indice.isSome = true →
    ∀ b, (asignar f bitmap size datos).bitmap.ocupado b =
      (bitmap.ocupado b || decide (b ∈ menoresLibres f bitmap size))
  cuenta : (asignar f bitmap size datos).indice.isSome = true →
    contarBloquesLibres (asignar f bitmap size datos).bitmap + f.bloquesTotales size =
      contarBloquesLibres bitmap
  rechazo : (asignar f bitmap size datos).indice = none →
    (asignar f bitmap size datos).bitmap = bitmap
  nuncaSeAgota : ¬ SeAgota f bitmap size datos

theorem menoresLibres_eq :
    menoresLibres f bitmap size = bitmap.libres.take (f.bloquesTotales size) := by
  rw [menoresLibres, libres_eq_filter]

/-- Without a wrap of the size, the code counts the blocks of the file. -/
theorem bloquesTotales_eq
    (hsum : size.toNat + f.blockSize - 1 < 2 ^ 32) :
    f.bloquesTotales size = f.bloquesNecesarios size + 1 := by
  rw [Formato.bloquesTotales, Formato.bloquesNecesarios, Nat.mod_eq_of_lt hsum,
    Nat.ceilDiv_eq_add_pred_div]

/-- One more block wraps around for the largest file, in blocks of one byte, alone. -/
theorem wraps_iff
    (hsum : size.toNat + f.blockSize - 1 < 2 ^ 32) :
    2 ^ 32 ≤ f.bloquesNecesarios size + 1 ↔ f.blockSize = 1 ∧ size.toNat = 2 ^ 32 - 1 := by
  have hone : f.blockSize = 1 → f.bloquesNecesarios size = size.toNat := by
    intro hone
    rw [Formato.bloquesNecesarios, Nat.mod_eq_of_lt hsum, hone]
    simp
  constructor
  · intro h
    have hblock := blockSize_eq_one_of_wraps h
    have hlt := size.toNat_lt
    rw [hone hblock] at h
    exact ⟨hblock, by omega⟩
  · rintro ⟨hblock, hsize⟩
    rw [hone hblock]
    omega

/-- A call with enough free blocks takes the lowest ones. -/
theorem tomaLosMenores_of_le
    (datos : List UInt8)
    (hsum : size.toNat + f.blockSize - 1 < 2 ^ 32)
    (hlibres : f.bloquesTotales size ≤ bitmap.libres.length) :
    TomaLosMenores f bitmap size datos := by
  have htotal := bloquesTotales_eq hsum
  have hn : f.bloquesNecesarios size < bitmap.libres.length := by omega
  obtain ⟨indice, ds, htomados⟩ := exists_tomados size hn
  obtain ⟨hindice, hocupado, hpunteros, _⟩ := asignar_eq datos htomados
  have hmenores : menoresLibres f bitmap size = indice :: ds := by
    rw [menoresLibres_eq, htotal, htomados.take]
  constructor
  · simp [hindice, contarBloquesLibres_eq, hlibres]
  · intro indice' h
    rw [hindice, Option.some.injEq] at h
    rw [← h, hpunteros, hmenores]
  · intro _ b
    rw [hocupado b, hmenores]
  · intro _
    have hlen := htomados.1
    rw [contarBloquesLibres_eq, contarBloquesLibres_eq, libres_asignar datos htomados,
      List.length_drop]
    omega
  · intro h
    rw [hindice] at h
    cases h
  · rintro ⟨_, bloqueIndice, hfind, hfalse⟩
    -- the rounds have the free blocks that follow the index block
    obtain ⟨hlen, resto, hcons⟩ := htomados
    rw [buscarBloqueLibre_eq, hcons] at hfind
    cases hfind
    have hok := (asignarDatos_eq (a := antesDelBucle f bitmap size datos indice)
      (libres_marcar hcons)).1
    rw [hlen, hfalse] at hok
    cases hok

/-- A call that gets past the check leaves the block it finds first occupied. -/
theorem ocupado_asignar_of_find
    {b : Nat}
    (datos : List UInt8)
    (hcount : ¬ contarBloquesLibres bitmap < (f.bloquesNecesarios size + 1) % 2 ^ 32)
    (hfind : buscarBloqueLibre bitmap = some b) :
    (asignar f bitmap size datos).bitmap.ocupado b = true := by
  have hb : (marcarBloque b true bitmap).ocupado b = true := by
    rw [ocupado_marcar_of_buscar hfind]
    simp
  unfold asignar
  rw [if_neg hcount, hfind]
  simp only
  split
  · exact ocupado_asignarDatos hb
  · exact ocupado_asignarDatos hb

/-- A call that is refused at its start takes no block. -/
theorem tomaLosMenores_of_rechazada
    (datos : List UInt8)
    (hlibres : bitmap.libres.length < f.bloquesTotales size)
    (h : contarBloquesLibres bitmap < (f.bloquesNecesarios size + 1) % 2 ^ 32 ∨
      buscarBloqueLibre bitmap = none) :
    TomaLosMenores f bitmap size datos := by
  have hasignar := asignar_rechazada datos h
  have hindice : (asignar f bitmap size datos).indice = none := by rw [hasignar]
  constructor
  · simp [hindice, contarBloquesLibres_eq, hlibres]
  · intro indice hsome
    rw [hindice] at hsome
    cases hsome
  · intro hsome
    simp [hindice] at hsome
  · intro hsome
    simp [hindice] at hsome
  · intro _
    rw [hasignar]
  · rintro ⟨hcount, bloqueIndice, hfind, _⟩
    rw [h.resolve_left hcount] at hfind
    cases hfind

end LowestBlocks

/-- A call takes exactly the lowest free blocks, or none when they are not enough, unless
the number of blocks of the largest file wraps around and some block is free. -/
theorem takes_lowest_blocks_iff
    (f : Formato) (bitmap : Bitmap f.bitmapSize) (size : UInt32) (datos : List UInt8)
    (hsum : size.toNat + f.blockSize - 1 < 2 ^ 32) :
    TomaLosMenores f bitmap size datos ↔
      ¬ (f.blockSize = 1 ∧ size.toNat = 2 ^ 32 - 1) ∨ contarBloquesLibres bitmap = 0 := by
  have htotal := bloquesTotales_eq (f := f) hsum
  have hmax := length_libres_le bitmap
  rw [← wraps_iff hsum, contarBloquesLibres_eq]
  constructor
  · intro h
    by_contra hno
    obtain ⟨hwraps, hlibre⟩ := not_or.mp hno
    have hwraps : 2 ^ 32 ≤ f.bloquesNecesarios size + 1 := not_not.mp hwraps
    have hzero : (f.bloquesNecesarios size + 1) % 2 ^ 32 = 0 := by
      have hle := Nat.div_le_self ((size.toNat + f.blockSize - 1) % 2 ^ 32) f.blockSize
      unfold Formato.bloquesNecesarios at hwraps ⊢
      omega
    cases hlibres : bitmap.libres with
    | nil =>
        rw [hlibres] at hlibre
        exact hlibre rfl
    | cons b ls =>
        refine h.nuncaSeAgota ⟨?_, b, ?_, asignarDatos_false ?_⟩
        · rw [hzero]
          exact Nat.not_lt_zero _
        · rw [buscarBloqueLibre_eq, hlibres]
          rfl
        · rw [hlibres, List.length_cons] at hmax
          simp only [antesDelBucle, libres_marcar hlibres]
          omega
  · intro h
    rcases le_or_gt (f.bloquesTotales size) bitmap.libres.length with hle | hlt
    · exact tomaLosMenores_of_le datos hsum hle
    · refine tomaLosMenores_of_rechazada datos hlt ?_
      rw [contarBloquesLibres_eq, buscarBloqueLibre_eq]
      rcases h with hno | hzero
      · left
        rw [Nat.mod_eq_of_lt (not_le.mp hno)]
        omega
      · right
        rw [List.length_eq_zero_iff.mp hzero]
        rfl

/-- A file of eight bytes in blocks of eight, on an empty bitmap. -/
theorem takes_lowest_blocks_unBloque :
    TomaLosMenores formatoDeOcho (Bitmap.vacio formatoDeOcho.bitmapSize) 8 (List.replicate 8 1) :=
  (takes_lowest_blocks_iff formatoDeOcho _ 8 (List.replicate 8 1) (by decide)).mpr
    (Or.inl (by decide))

/-- Eight blocks of one byte. -/
def formatoDeUno : Formato where
  blockSize := 1
  blockCount := 8
  mountDir := ['m']
  blockSize_pos := by decide
  blockSize_lt := by decide
  blockCount_lt := formatoDeOcho.blockCount_lt

/-- The largest file gets past the check, takes the eight blocks and then fails. -/
theorem largest_file_takes_all_blocks :
    ¬ ∀ (f : Formato) (bitmap : Bitmap f.bitmapSize) (size : UInt32) (datos : List UInt8),
        0 < size →
        size.toNat + f.blockSize - 1 < 2 ^ 32 →
        TomaLosMenores f bitmap size datos := by
  intro hclaim
  have hlowest := hclaim formatoDeUno (Bitmap.vacio _) 4294967295 (List.replicate 4294967295 0)
    (by decide) (by decide)
  refine hlowest.nuncaSeAgota ⟨by decide, 0, by decide, asignarDatos_false ?_⟩
  decide

end FileSystem
end SinIdeas
