import SinIdeas.FileSystem.Blocks

/-!
# The blocks that a call writes

A call of `asignar_bloques` should write only in the blocks it takes, the pointers
only in the index block, and no data block after filling it. The number of
pointers is not compared with the size of a block, and offsets have 32 bits:
`touches_only_own_blocks_iff` says exactly when the call stays in its blocks.
-/

namespace SinIdeas
namespace FileSystem

open Lib

/-- The block of a byte of `bloques.dat`. -/
def Formato.bloqueDe (f : Formato) (i : Nat) : Nat := i / f.blockSize

/-- The call sets the bit of the block. -/
def Nuevo {f : Formato} (bitmap : Bitmap f.bitmapSize) (r : Llamada f) (b : Nat) : Prop :=
  r.bitmap.ocupado b = true ∧ bitmap.ocupado b = false

/-- The call `r` on the bitmap touches only its own blocks: every write is in a block
whose bit it sets, the write of the pointers in the index block, nothing is written
to a data block after its own write, and the bytes of the occupied blocks stay. -/
structure SoloSusBloques {f : Formato} (bitmap : Bitmap f.bitmapSize) (r : Llamada f) :
    Prop where
  nuevos : ∀ w ∈ r.escrituras, ∀ i, w.Covers i → Nuevo bitmap r (f.bloqueDe i)
  punteros : ∀ indice ∈ r.indice, ∀ w : Write, w ∈ r.escrituras.getLast? → ∀ i, w.Covers i →
    f.bloqueDe i = indice
  llenos : ∀ (j b : Nat), r.punteros[j]? = some b → ∀ (k : Nat) (w : Write), j < k →
    r.escrituras[k]? = some w → ∀ i, w.Covers i → f.bloqueDe i ≠ b
  anteriores : ∀ bloques i, bitmap.ocupado (f.bloqueDe i) = true →
    byteAt (writeAll bloques r.escrituras) i = byteAt bloques i

/-- What a call needs to stay in the blocks it takes: the pointers fit in one block, the
index block starts below `2^32`, and so does every data block that gets bytes, unless
its offset of 32 bits leads into the index block, where the pointers come last. -/
def Cabe (f : Formato) (bitmap : Bitmap f.bitmapSize) (size : UInt32) : Prop :=
  ∀ indice ds, Tomados f bitmap size indice ds → ds ≠ [] →
    4 * ds.length ≤ f.blockSize ∧ indice * f.blockSize < 2 ^ 32 ∧
      ∀ j b : Nat, ds[j]? = some b → f.bytesDe size j = 0 ∨ b * f.blockSize < 2 ^ 32 ∨
        (indice * f.blockSize ≤ f.desplazamiento b ∧
          f.desplazamiento b + f.bytesDe size j ≤ (indice + 1) * f.blockSize)

section Regions

variable {f : Formato} {bitmap : Bitmap f.bitmapSize} {size : UInt32} {datos : List UInt8}
  {indice : Nat} {ds : List Nat}

theorem bloqueDe_eq_iff
    {i b : Nat} :
    f.bloqueDe i = b ↔ b * f.blockSize ≤ i ∧ i < (b + 1) * f.blockSize := by
  have hpos := f.blockSize_pos
  have hmul : (b + 1) * f.blockSize = b * f.blockSize + f.blockSize := Nat.succ_mul _ _
  rw [Formato.bloqueDe, Nat.div_eq_iff hpos, hmul]
  omega

theorem desplazamiento_le (f : Formato) (b : Nat) : f.desplazamiento b ≤ b * f.blockSize :=
  Nat.mod_le _ _

theorem desplazamiento_of_lt
    {b : Nat}
    (h : b * f.blockSize < 2 ^ 32) :
    f.desplazamiento b = b * f.blockSize :=
  Nat.mod_eq_of_lt h

/-- A block that starts beyond 32 bits is sought at least `2^32` bytes before. -/
theorem desplazamiento_add_le
    {b : Nat}
    (h : 2 ^ 32 ≤ b * f.blockSize) :
    f.desplazamiento b + 2 ^ 32 ≤ b * f.blockSize := by
  have hdiv := Nat.div_add_mod (b * f.blockSize) (2 ^ 32)
  have hpos : 0 < b * f.blockSize / 2 ^ 32 := Nat.div_pos h (by omega)
  unfold Formato.desplazamiento
  omega

/-- The write to the data block `j`. -/
theorem escriturasDatos_getElem?
    {j b : Nat} {words : Nat}
    (hb : ds[j]? = some b) :
    (escriturasDatos f ds words datos)[j]? =
      some { offset := f.desplazamiento b, bytes := porcion f.palabras words datos j } := by
  simp [escriturasDatos, hb]

theorem mem_escriturasDatos
    {w : Write} {words : Nat}
    (hw : w ∈ escriturasDatos f ds words datos) :
    ∃ j b : Nat, ds[j]? = some b ∧
      w = { offset := f.desplazamiento b, bytes := porcion f.palabras words datos j } := by
  obtain ⟨j, hj⟩ := List.mem_iff_getElem?.mp hw
  cases hb : ds[j]? with
  | none =>
      simp [escriturasDatos, hb] at hj
  | some b =>
      rw [escriturasDatos_getElem? hb] at hj
      exact ⟨j, b, hb, (Option.some.inj hj).symm⟩

@[simp] theorem length_escriturasDatos
    {words : Nat} :
    (escriturasDatos f ds words datos).length = ds.length := by
  simp [escriturasDatos]

@[simp] theorem length_punteros
    {ps : List Nat} :
    (ps.flatMap (leBytes 4)).length = 4 * ps.length := by
  induction ps with
  | nil =>
      rfl
  | cons p ps ih =>
      rw [List.flatMap_cons, List.length_append, ih, length_leBytes, List.length_cons]
      omega

/-- The pointers are written where the index block starts, up to 32 bits. -/
theorem covers_punteros
    {i : Nat} :
    (escrituraPunteros f indice ds).Covers i ↔
      f.desplazamiento indice ≤ i ∧ i < f.desplazamiento indice + 4 * ds.length := by
  simp only [Write.Covers, escrituraPunteros, length_punteros]

/-- The data of the block `j` is written where the block starts, up to 32 bits. -/
theorem covers_datos
    {i j b : Nat}
    (hdatos : datos.length = size.toNat) :
    ({ offset := f.desplazamiento b
       bytes := porcion f.palabras (size.toNat / 4) datos j } : Write).Covers i ↔
      f.desplazamiento b ≤ i ∧ i < f.desplazamiento b + f.bytesDe size j := by
  simp only [Write.Covers, length_porcion hdatos]

theorem Tomados.nuevo
    (h : Tomados f bitmap size indice ds)
    {b : Nat} :
    Nuevo bitmap (asignar f bitmap size datos) b ↔ b ∈ indice :: ds := by
  obtain ⟨_, hocupado, _, _⟩ := asignar_eq datos h
  unfold Nuevo
  rw [hocupado b]
  constructor
  · rintro ⟨hset, hclear⟩
    simpa [hclear] using hset
  · intro hb
    have hclear := (FileSystem.mem_libres.mp (h.mem_libres hb)).2
    exact ⟨by simp [hb], hclear⟩

/-- The data block `j` comes after the index block and before the later ones. -/
theorem Tomados.lt_of_getElem?
    (h : Tomados f bitmap size indice ds)
    {j b : Nat}
    (hb : ds[j]? = some b) :
    indice < b ∧ ∀ l c, j < l → ds[l]? = some c → b < c := by
  obtain ⟨hindice, hsorted⟩ := List.pairwise_cons.mp h.pairwise
  refine ⟨hindice b (List.mem_of_getElem? hb), ?_⟩
  intro l c hjl hc
  obtain ⟨hj, rfl⟩ := List.getElem?_eq_some_iff.mp hb
  obtain ⟨hl, rfl⟩ := List.getElem?_eq_some_iff.mp hc
  exact List.pairwise_iff_getElem.mp hsorted j l hj hl hjl

/-- With offsets that do not wrap around and pointers that fit, the call fits. -/
theorem cabe_of_lt
    (htomados : Tomados f bitmap size indice ds)
    (hfit : 4 * ds.length ≤ f.blockSize)
    (hlow : ∀ b ∈ indice :: ds, b * f.blockSize < 2 ^ 32) :
    Cabe f bitmap size := by
  intro indice' ds' htomados' _
  have heq : indice' :: ds' = indice :: ds := by
    obtain ⟨hlen, resto, hlibres⟩ := htomados
    obtain ⟨hlen', resto', hlibres'⟩ := htomados'
    refine (List.append_inj (hlibres'.symm.trans hlibres) ?_).1
    simp only [List.length_cons, hlen, hlen']
  obtain ⟨rfl, rfl⟩ := List.cons_eq_cons.mp heq
  refine ⟨hfit, hlow _ List.mem_cons_self, ?_⟩
  intro j b hb
  exact Or.inr (Or.inl (hlow b (List.mem_cons_of_mem _ (List.mem_of_getElem? hb))))

/-- Where a call that fits writes the data of its block `j`: in that block or in the
index block. -/
theorem Cabe.bloqueDe_datos
    (h : Cabe f bitmap size)
    (htomados : Tomados f bitmap size indice ds)
    {i j b : Nat}
    (hb : ds[j]? = some b)
    (hle : f.desplazamiento b ≤ i)
    (hlt : i < f.desplazamiento b + f.bytesDe size j) :
    f.bloqueDe i = b ∨ f.bloqueDe i = indice := by
  have hne : ds ≠ [] := by
    rintro rfl
    cases hb
  have hbytes := bytesDe_le f size j
  obtain ⟨_, _, hdatos⟩ := h indice ds htomados hne
  rcases hdatos j b hb with hzero | hown | ⟨hlo, hhi⟩
  · omega
  · left
    have hmul : (b + 1) * f.blockSize = b * f.blockSize + f.blockSize := Nat.succ_mul _ _
    rw [desplazamiento_of_lt hown] at hle hlt
    exact bloqueDe_eq_iff.mpr ⟨hle, by omega⟩
  · right
    exact bloqueDe_eq_iff.mpr ⟨by omega, by omega⟩

/-- Where a call that fits writes the pointers: in the index block. -/
theorem Cabe.bloqueDe_punteros
    (h : Cabe f bitmap size)
    (htomados : Tomados f bitmap size indice ds)
    {i : Nat}
    (hle : f.desplazamiento indice ≤ i)
    (hlt : i < f.desplazamiento indice + 4 * ds.length) :
    f.bloqueDe i = indice := by
  have hne : ds ≠ [] := by
    rintro rfl
    simp only [List.length_nil] at hlt
    omega
  obtain ⟨hfit, hindice, _⟩ := h indice ds htomados hne
  have hmul : (indice + 1) * f.blockSize = indice * f.blockSize + f.blockSize := Nat.succ_mul _ _
  rw [desplazamiento_of_lt hindice] at hle hlt
  exact bloqueDe_eq_iff.mpr ⟨hle, by omega⟩

/-- Writes inside the new blocks leave the bytes of the occupied ones. -/
theorem anteriores_of_nuevos
    {r : Llamada f}
    (h : ∀ w ∈ r.escrituras, ∀ i, w.Covers i → Nuevo bitmap r (f.bloqueDe i))
    (bloques : List UInt8) (i : Nat)
    (hocupado : bitmap.ocupado (f.bloqueDe i) = true) :
    byteAt (writeAll bloques r.escrituras) i = byteAt bloques i := by
  refine byteAt_writeAll_of_not_covers ?_
  intro w hw hcovers
  have hclear := (h w hw i hcovers).2
  rw [hocupado] at hclear
  cases hclear

/-- A call without enough free blocks writes nothing. -/
theorem soloSusBloques_of_sinBloques
    (h : bitmap.libres.length < f.bloquesNecesarios size + 1) :
    SoloSusBloques bitmap (asignar f bitmap size datos) := by
  obtain ⟨hindice, hvacias⟩ := asignar_sinBloques datos h
  have hnada : ∀ w ∈ (asignar f bitmap size datos).escrituras, ∀ i, ¬ w.Covers i := by
    rintro w hw i ⟨hle, hlt⟩
    rw [hvacias w hw, List.length_nil] at hlt
    omega
  have hnuevos : ∀ w ∈ (asignar f bitmap size datos).escrituras, ∀ i, w.Covers i →
      Nuevo bitmap (asignar f bitmap size datos) (f.bloqueDe i) := by
    intro w hw i hcovers
    exact absurd hcovers (hnada w hw i)
  refine ⟨hnuevos, ?_, ?_, anteriores_of_nuevos hnuevos⟩
  · intro indice hindice'
    rw [hindice] at hindice'
    cases hindice'
  · intro j b _ k w _ hw i hcovers
    exact absurd hcovers (hnada w (List.mem_of_getElem? hw) i)

/-- A call that fits touches only its own blocks. -/
theorem Cabe.soloSusBloques
    (h : Cabe f bitmap size)
    (hdatos : datos.length = size.toNat)
    (htomados : Tomados f bitmap size indice ds) :
    SoloSusBloques bitmap (asignar f bitmap size datos) := by
  obtain ⟨hindice, _, hpunteros, hescrituras⟩ := asignar_eq datos htomados
  have hnuevos : ∀ w ∈ (asignar f bitmap size datos).escrituras, ∀ i, w.Covers i →
      Nuevo bitmap (asignar f bitmap size datos) (f.bloqueDe i) := by
    intro w hw i hcovers
    rw [htomados.nuevo]
    rw [hescrituras] at hw
    rcases List.mem_append.mp hw with hw | hw
    · obtain ⟨j, b, hb, rfl⟩ := mem_escriturasDatos hw
      obtain ⟨hle, hlt⟩ := (covers_datos hdatos).mp hcovers
      rcases h.bloqueDe_datos htomados hb hle hlt with hblock | hblock
      · rw [hblock]
        exact List.mem_cons_of_mem _ (List.mem_of_getElem? hb)
      · rw [hblock]
        exact List.mem_cons_self
    · rw [List.mem_singleton.mp hw] at hcovers
      obtain ⟨hle, hlt⟩ := covers_punteros.mp hcovers
      rw [h.bloqueDe_punteros htomados hle hlt]
      exact List.mem_cons_self
  refine ⟨hnuevos, ?_, ?_, anteriores_of_nuevos hnuevos⟩
  · intro indice' hindice' w hw i hcovers
    rw [hindice] at hindice'
    cases hindice'
    rw [hescrituras, List.getLast?_concat] at hw
    cases hw
    obtain ⟨hle, hlt⟩ := covers_punteros.mp hcovers
    exact h.bloqueDe_punteros htomados hle hlt
  · intro j b hb k w hjk hw i hcovers
    rw [hpunteros] at hb
    rw [hescrituras] at hw
    obtain ⟨hindice_lt, hnext⟩ := htomados.lt_of_getElem? hb
    by_cases hk : k < ds.length
    · -- the data of a later block
      rw [List.getElem?_append_left (by simpa using hk)] at hw
      have hc : ds[k]? = some ds[k] := List.getElem?_eq_getElem hk
      rw [escriturasDatos_getElem? hc] at hw
      cases hw
      obtain ⟨hle, hlt⟩ := (covers_datos hdatos).mp hcovers
      have hbc := hnext k ds[k] hjk hc
      rcases h.bloqueDe_datos htomados hc hle hlt with hblock | hblock
      · omega
      · omega
    · -- the pointers
      have hwp : w = escrituraPunteros f indice ds := by
        rw [List.getElem?_append_right (by simpa using hk), List.getElem?_singleton] at hw
        split_ifs at hw
        exact (Option.some.inj hw).symm
      rw [hwp] at hcovers
      obtain ⟨hle, hlt⟩ := covers_punteros.mp hcovers
      rw [h.bloqueDe_punteros htomados hle hlt]
      omega

/-- A call that touches only its own blocks fits. -/
theorem SoloSusBloques.cabe
    (h : SoloSusBloques bitmap (asignar f bitmap size datos))
    (hdatos : datos.length = size.toNat) :
    Cabe f bitmap size := by
  intro indice ds htomados hne
  obtain ⟨hindice, _, hpunteros, hescrituras⟩ := asignar_eq datos htomados
  have hlen : 0 < ds.length := List.length_pos_of_ne_nil hne
  have hsize := f.blockSize_lt
  -- the write of the pointers is in the index block
  have hlast : ∀ i, f.desplazamiento indice ≤ i →
      i < f.desplazamiento indice + 4 * ds.length → f.bloqueDe i = indice := by
    intro i hle hlt
    refine h.punteros indice (by rw [hindice]; rfl) (escrituraPunteros f indice ds) ?_ i
      (covers_punteros.mpr ⟨hle, hlt⟩)
    rw [hescrituras, List.getLast?_concat]
    rfl
  have hfirst := (bloqueDe_eq_iff.mp (hlast (f.desplazamiento indice) (by omega) (by omega))).1
  have hend := (bloqueDe_eq_iff.mp
    (hlast (f.desplazamiento indice + 4 * ds.length - 1) (by omega) (by omega))).2
  have hle := desplazamiento_le f indice
  have hmul : (indice + 1) * f.blockSize = indice * f.blockSize + f.blockSize := Nat.succ_mul _ _
  have hlow : indice * f.blockSize < 2 ^ 32 := by
    have hmod : f.desplazamiento indice < 2 ^ 32 := Nat.mod_lt _ (by omega)
    omega
  refine ⟨by omega, hlow, ?_⟩
  intro j b hb
  by_cases hzero : f.bytesDe size j = 0
  · exact Or.inl hzero
  by_cases hown : b * f.blockSize < 2 ^ 32
  · exact Or.inr (Or.inl hown)
  -- a write that wraps around reaches no block filled before and no later one
  right
  right
  have hdata : ∀ i, f.desplazamiento b ≤ i → i < f.desplazamiento b + f.bytesDe size j →
      f.bloqueDe i = indice := by
    intro i hle hlt
    have hcovers := (covers_datos hdatos).mpr ⟨hle, hlt⟩
    have hw : (asignar f bitmap size datos).escrituras[j]? = some
        { offset := f.desplazamiento b
          bytes := porcion f.palabras (size.toNat / 4) datos j } := by
      have hj := (List.getElem?_eq_some_iff.mp hb).1
      rw [hescrituras, List.getElem?_append_left (by simpa using hj), escriturasDatos_getElem? hb]
    have hnew := htomados.nuevo.mp (h.nuevos _ (List.mem_of_getElem? hw) i hcovers)
    rcases List.mem_cons.mp hnew with hnew | hnew
    · exact hnew
    · obtain ⟨l, hl⟩ := List.mem_iff_getElem?.mp hnew
      rcases lt_or_ge l j with hlj | hlj
      · exact absurd rfl (h.llenos l _ (by rw [hpunteros]; exact hl) j _ hlj hw i hcovers)
      · have hbl : b ≤ f.bloqueDe i := by
          rcases Nat.eq_or_lt_of_le hlj with rfl | hlj
          · rw [hb] at hl
            exact le_of_eq (Option.some.inj hl)
          · exact Nat.le_of_lt ((htomados.lt_of_getElem? hb).2 l _ hlj hl)
        have hwrap := desplazamiento_add_le (f := f) (not_lt.mp hown)
        have hbytes := bytesDe_le f size j
        have hstart : b * f.blockSize ≤ i :=
          le_trans (Nat.mul_le_mul_right _ hbl) (bloqueDe_eq_iff.mp rfl).1
        omega
  have hlo := (bloqueDe_eq_iff.mp (hdata (f.desplazamiento b) (by omega) (by omega))).1
  have hhi := (bloqueDe_eq_iff.mp
    (hdata (f.desplazamiento b + f.bytesDe size j - 1) (by omega) (by omega))).2
  exact ⟨hlo, by omega⟩

end Regions

/-- A call of `asignar_bloques` touches only its own blocks exactly when what it writes
fits. -/
theorem touches_only_own_blocks_iff
    (f : Formato) (bitmap : Bitmap f.bitmapSize) (size : UInt32) (datos : List UInt8)
    (hdatos : datos.length = size.toNat) :
    SoloSusBloques bitmap (asignar f bitmap size datos) ↔ Cabe f bitmap size := by
  constructor
  · intro h
    exact h.cabe hdatos
  · intro h
    by_cases hlibres : f.bloquesNecesarios size < bitmap.libres.length
    · obtain ⟨indice, ds, htomados⟩ := exists_tomados _ hlibres
      exact h.soloSusBloques hdatos htomados
    · exact soloSusBloques_of_sinBloques (by omega)

/-- Eight blocks of eight bytes. -/
def formatoDeOcho : Formato where
  blockSize := 8
  blockCount := 8
  mountDir := ['m']
  blockSize_pos := by decide
  blockSize_lt := by decide
  blockCount_lt := by decide

theorem tomados_unBloque :
    Tomados formatoDeOcho (Bitmap.vacio formatoDeOcho.bitmapSize) 8 0 [1] :=
  ⟨by decide, [2, 3, 4, 5, 6, 7], by decide⟩

/-- A file of one block, on an empty bitmap. -/
theorem touches_only_own_blocks_unBloque :
    SoloSusBloques (Bitmap.vacio formatoDeOcho.bitmapSize)
      (asignar formatoDeOcho (Bitmap.vacio formatoDeOcho.bitmapSize) 8
        (List.replicate 8 1)) :=
  (touches_only_own_blocks_iff formatoDeOcho _ 8 (List.replicate 8 1) rfl).mpr
    (cabe_of_lt tomados_unBloque (by decide) (by decide))

/-- Three pointers do not fit in a block of eight bytes: the last one goes to the first
data block, after its data. -/
theorem pointers_overwrite_data_block :
    ¬ ∀ (f : Formato) (bitmap : Bitmap f.bitmapSize) (size : UInt32) (datos : List UInt8),
        datos.length = size.toNat →
        SoloSusBloques bitmap (asignar f bitmap size datos) := by
  intro hclaim
  have hown := hclaim formatoDeOcho (Bitmap.vacio _) 24 (List.replicate 24 7) (by decide)
  exact hown.llenos 0 1 (by decide) 3 { offset := 0, bytes := [1, 0, 0, 0, 2, 0, 0, 0, 3, 0, 0, 0] }
    (by decide) (by decide) 8 (by decide) (by decide)

end FileSystem
end SinIdeas
