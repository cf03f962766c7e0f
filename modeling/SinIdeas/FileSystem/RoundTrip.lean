import SinIdeas.FileSystem.OwnBlocks

/-!
# Reading back a dump

A file is read through the pointers in its index block. `dump_read_back_iff` says
for which sizes, block sizes and bitmaps every content comes back: the data is
copied in words of 32 bits, so the bytes after the last word of a block are lost,
and sums and products of 32 bits must not wrap around.
-/

namespace SinIdeas
namespace FileSystem

open Lib

/-- How many blocks a file of the size takes. -/
def Formato.bloquesPara (f : Formato) (size : UInt32) : Nat :=
  (size.toNat + f.blockSize - 1) / f.blockSize

/-- The first `n` pointers in an index block. -/
def punterosEn (f : Formato) (bloques : List UInt8) (indice n : Nat) : List Nat :=
  (List.range n).map (fun j => wordAt bloques (indice * f.blockSize + 4 * j))

/-- The file of a size with an index block. -/
def leerArchivo (f : Formato) (bloques : List UInt8) (size : UInt32) (indice : Nat) :
    List UInt8 :=
  ((punterosEn f bloques indice (f.bloquesPara size)).flatMap
    (fun p => readAt bloques (p * f.blockSize) f.blockSize)).take size.toNat

/-- Whatever `bloques.dat` held before, every content of the size that `asignar_bloques`
stores is read back. -/
def GuardaDatos (f : Formato) (bitmap : Bitmap f.bitmapSize) (size : UInt32) : Prop :=
  ∀ (fs : Fs f) (datos : List UInt8) (indice : Nat),
    fs.bitmap = bitmap → datos.length = size.toNat →
    (asignarBloques f fs size datos).2 = some indice →
    leerArchivo f (asignarBloques f fs size datos).1.bloques size indice = datos

section Reading

variable {f : Formato} {bitmap : Bitmap f.bitmapSize} {size : UInt32} {datos : List UInt8}
  {indice : Nat} {ds : List Nat} {bloques : List UInt8}

theorem div_lt_bloquesPara
    {i : Nat}
    (hi : i < size.toNat) :
    i / f.blockSize < f.bloquesPara size := by
  have hpos := f.blockSize_pos
  unfold Formato.bloquesPara
  rw [Nat.div_lt_iff_lt_mul hpos]
  have hceil := Nat.div_add_mod (size.toNat + f.blockSize - 1) f.blockSize
  have hmod := Nat.mod_lt (size.toNat + f.blockSize - 1) hpos
  rw [Nat.mul_comm] at hceil
  omega

/-- A byte of the file is the byte of its block. -/
theorem leerArchivo_getElem?
    (f : Formato) (bloques : List UInt8) (indice : Nat) {i : Nat}
    (hi : i < size.toNat) :
    (leerArchivo f bloques size indice)[i]? = some (byteAt bloques
      (wordAt bloques (indice * f.blockSize + 4 * (i / f.blockSize)) * f.blockSize +
        i % f.blockSize)) := by
  have hpos := f.blockSize_pos
  have hblock : i / f.blockSize < f.bloquesPara size := div_lt_bloquesPara hi
  have hmod : i % f.blockSize < f.blockSize := Nat.mod_lt _ hpos
  unfold leerArchivo
  rw [List.getElem?_take_of_lt hi, getElem?_flatMap_of_length hpos _ (fun _ _ => length_readAt)]
  simp [punterosEn, readAt, hblock, hmod]

/-- The file is the content exactly when its bytes are. -/
theorem leerArchivo_eq_iff
    (hdatos : datos.length = size.toNat) :
    leerArchivo f bloques size indice = datos ↔
      ∀ i, i < size.toNat → byteAt bloques
        (wordAt bloques (indice * f.blockSize + 4 * (i / f.blockSize)) * f.blockSize +
          i % f.blockSize) = datos.getD i 0 := by
  constructor
  · intro heq i hi
    have hbyte := leerArchivo_getElem? f bloques indice hi
    rw [heq] at hbyte
    simp [List.getD_eq_getElem?_getD, hbyte]
  · intro hbytes
    refine List.ext_getElem? ?_
    intro i
    by_cases hi : i < size.toNat
    · rw [leerArchivo_getElem? f bloques indice hi, hbytes i hi, List.getD_eq_getElem?_getD]
      simp [hdatos, hi]
    · rw [List.getElem?_eq_none, List.getElem?_eq_none]
      · omega
      · unfold leerArchivo
        rw [List.length_take]
        omega

/-- The pointers that were written are read back. -/
theorem wordAt_punteros
    (hindice : indice * f.blockSize < 2 ^ 32)
    (hds : ∀ b ∈ ds, b < 2 ^ 32)
    {ws : List Write} {j b : Nat}
    (hb : ds[j]? = some b) :
    wordAt (writeAll bloques (ws ++ [escrituraPunteros f indice ds]))
      (indice * f.blockSize + 4 * j) = b := by
  have hj : j < ds.length := (List.getElem?_eq_some_iff.mp hb).1
  refine wordAt_of_bytes (hds b (List.mem_of_getElem? hb)) ?_
  intro r hr
  have hcovers : (escrituraPunteros f indice ds).Covers (indice * f.blockSize + 4 * j + r) := by
    rw [covers_punteros, desplazamiento_of_lt hindice]
    omega
  rw [byteAt_writeAll hcovers (by simp)]
  have hoffset : indice * f.blockSize + 4 * j + r - (escrituraPunteros f indice ds).offset =
      4 * j + r := by
    simp only [escrituraPunteros, desplazamiento_of_lt hindice]
    omega
  have hdiv : (4 * j + r) / 4 = j := by omega
  have hmod : (4 * j + r) % 4 = r := by omega
  rw [hoffset, List.getD_eq_getElem?_getD, List.getD_eq_getElem?_getD]
  simp only [escrituraPunteros]
  rw [getElem?_flatMap_of_length (by omega) ds (fun _ _ => length_leBytes 4 _), hdiv, hmod, hb]
  rfl

/-- The part of the data for a block. -/
theorem porcion_getD
    {q words j r : Nat}
    (hr : r < 4 * min (words - q * j) q) :
    (porcion q words datos j).getD r 0 = datos.getD (4 * (q * j) + r) 0 := by
  simp only [porcion, List.getD_eq_getElem?_getD]
  rw [List.getElem?_take_of_lt hr, List.getElem?_drop]

/-- A byte of the data is in its block after the call. -/
theorem byteAt_conDatos
    {j b r : Nat}
    (hcabe : Cabe f bitmap size)
    (htomados : Tomados f bitmap size indice ds)
    (hdatos : datos.length = size.toNat)
    (hb : ds[j]? = some b)
    (hlow : b * f.blockSize < 2 ^ 32)
    (hr : r < f.bytesDe size j) :
    byteAt (writeAll bloques (asignar f bitmap size datos).escrituras) (b * f.blockSize + r) =
      datos.getD (4 * (f.palabras * j) + r) 0 := by
  obtain ⟨_, _, hpunteros, hescrituras⟩ := asignar_eq datos htomados
  have hj : j < ds.length := (List.getElem?_eq_some_iff.mp hb).1
  have hbytes := bytesDe_le f size j
  have hmul : (b + 1) * f.blockSize = b * f.blockSize + f.blockSize := Nat.succ_mul _ _
  have hblock : f.bloqueDe (b * f.blockSize + r) = b := bloqueDe_eq_iff.mpr (by omega)
  have hw : (asignar f bitmap size datos).escrituras[j]? = some
      { offset := f.desplazamiento b
        bytes := porcion f.palabras (size.toNat / 4) datos j } := by
    rw [hescrituras, List.getElem?_append_left (by simpa using hj), escriturasDatos_getElem? hb]
  have hown := hcabe.soloSusBloques hdatos htomados
  rw [byteAt_writeAll_getElem? hw]
  · have hoffset : b * f.blockSize + r - f.desplazamiento b = r := by
      rw [desplazamiento_of_lt hlow]
      omega
    simp only [hoffset]
    exact porcion_getD hr
  · rw [covers_datos hdatos, desplazamiento_of_lt hlow]
    omega
  · intro k v hjk hv hcovers
    exact hown.llenos j b (by rw [hpunteros]; exact hb) k v hjk hv _ hcovers hblock

/-- A byte of a data block after its data is as it was before the call. -/
theorem byteAt_sinDatos
    {j b r : Nat}
    (hfit : 4 * ds.length ≤ f.blockSize)
    (hlow : ∀ c ∈ indice :: ds, c * f.blockSize < 2 ^ 32)
    (htomados : Tomados f bitmap size indice ds)
    (hdatos : datos.length = size.toNat)
    (hb : ds[j]? = some b)
    (hle : f.bytesDe size j ≤ r)
    (hr : r < f.blockSize) :
    byteAt (writeAll bloques (asignar f bitmap size datos).escrituras) (b * f.blockSize + r) =
      byteAt bloques (b * f.blockSize + r) := by
  obtain ⟨_, _, _, hescrituras⟩ := asignar_eq datos htomados
  have hmul : (b + 1) * f.blockSize = b * f.blockSize + f.blockSize := Nat.succ_mul _ _
  have hblock : f.bloqueDe (b * f.blockSize + r) = b := bloqueDe_eq_iff.mpr (by omega)
  have hindice := (htomados.lt_of_getElem? hb).1
  have hcabe := cabe_of_lt htomados hfit hlow
  refine byteAt_writeAll_of_not_covers ?_
  intro w hw hcovers
  rw [hescrituras] at hw
  rcases List.mem_append.mp hw with hw | hw
  · obtain ⟨l, c, hc, rfl⟩ := mem_escriturasDatos hw
    obtain ⟨hle', hlt'⟩ := (covers_datos hdatos).mp hcovers
    have hown : f.bloqueDe (b * f.blockSize + r) = c := by
      have hlowc := hlow c (List.mem_cons_of_mem _ (List.mem_of_getElem? hc))
      have hbytes := bytesDe_le f size l
      have hmulc : (c + 1) * f.blockSize = c * f.blockSize + f.blockSize := Nat.succ_mul _ _
      rw [desplazamiento_of_lt hlowc] at hle' hlt'
      exact bloqueDe_eq_iff.mpr (by omega)
    obtain rfl : b = c := hblock.symm.trans hown
    rcases lt_trichotomy j l with hjl | rfl | hlj
    · exact absurd ((htomados.lt_of_getElem? hb).2 l b hjl hc) (lt_irrefl b)
    · rw [desplazamiento_of_lt (hlow b (List.mem_cons_of_mem _ (List.mem_of_getElem? hb)))] at hlt'
      omega
    · exact absurd ((htomados.lt_of_getElem? hc).2 j b hlj hb) (lt_irrefl b)
  · rw [List.mem_singleton.mp hw] at hcovers
    obtain ⟨hle', hlt'⟩ := covers_punteros.mp hcovers
    have hown := hcabe.bloqueDe_punteros htomados hle' hlt'
    omega

/-- Without sums that wrap around, the blocks of a file are as many as it takes. -/
theorem bloquesNecesarios_of_le
    (hsum : size.toNat + f.blockSize ≤ 2 ^ 32) :
    f.bloquesNecesarios size = f.bloquesPara size := by
  unfold Formato.bloquesNecesarios Formato.bloquesPara
  rw [Nat.mod_eq_of_lt]
  have hpos := f.blockSize_pos
  omega

theorem bloquesNecesarios_le (f : Formato) (size : UInt32) :
    f.bloquesNecesarios size ≤ f.bloquesPara size :=
  Nat.div_le_div_right (Nat.mod_le _ _)

/-- Where a byte of the file is among the words, if blocks are whole words or the file
has only one. -/
theorem posicion_eq
    {i : Nat}
    (hblock : 4 ∣ f.blockSize ∨ size.toNat ≤ f.blockSize)
    (hi : i < size.toNat) :
    4 * (f.palabras * (i / f.blockSize)) + i % f.blockSize = i := by
  rcases hblock with hblock | hblock
  · have hq : 4 * f.palabras = f.blockSize := Nat.mul_div_cancel' hblock
    rw [← Nat.mul_assoc, hq]
    exact Nat.div_add_mod i f.blockSize
  · rw [Nat.div_eq_of_lt (by omega), Nat.mod_eq_of_lt (by omega)]
    omega

/-- The data of a block reaches every byte of the file in it exactly for sizes of whole
words, in blocks of whole words or in one block. -/
theorem mod_lt_bytesDe_iff :
    (∀ i, i < size.toNat → i % f.blockSize < f.bytesDe size (i / f.blockSize)) ↔
      4 ∣ size.toNat ∧ (4 ∣ f.blockSize ∨ size.toNat ≤ f.blockSize) := by
  have hpos := f.blockSize_pos
  constructor
  · intro h
    have hblock : 4 ∣ f.blockSize ∨ size.toNat ≤ f.blockSize := by
      by_contra hno
      obtain ⟨hdvd, hlt⟩ := not_or.mp hno
      -- the bytes of the first block after its words
      have hi := h (4 * f.palabras) (by unfold Formato.palabras; omega)
      rw [Nat.div_eq_of_lt (by unfold Formato.palabras; omega),
        Nat.mod_eq_of_lt (by unfold Formato.palabras; omega)] at hi
      unfold Formato.bytesDe at hi
      omega
    refine ⟨?_, hblock⟩
    by_contra hdvd
    -- the bytes of the file after its words
    have hlt : 4 * (size.toNat / 4) < size.toNat := by omega
    have hi := h (4 * (size.toNat / 4)) hlt
    have heq := posicion_eq hblock hlt
    unfold Formato.bytesDe at hi
    omega
  · rintro ⟨hdvd, hblock⟩ i hi
    have heq := posicion_eq hblock hi
    have hmod := Nat.mod_lt i hpos
    have hq : i % f.blockSize < 4 * f.palabras := by
      rcases hblock with hblock | hblock
      · rw [Formato.palabras, Nat.mul_div_cancel' hblock]
        exact hmod
      · rw [Nat.mod_eq_of_lt (by omega)]
        unfold Formato.palabras
        omega
    unfold Formato.bytesDe
    omega

/-- Contents of whole words come back, if they fill the blocks or fit in one. -/
theorem guardaDatos
    (hfit : 4 * f.bloquesPara size ≤ f.blockSize)
    (hwords : 4 ∣ size.toNat)
    (hblock : 4 ∣ f.blockSize ∨ size.toNat ≤ f.blockSize)
    (hsum : size.toNat + f.blockSize ≤ 2 ^ 32)
    (hlow : ∀ b ∈ bitmap.libres.take (f.bloquesPara size + 1), b * f.blockSize < 2 ^ 32)
    (hlibres : f.bloquesPara size < bitmap.libres.length) :
    GuardaDatos f bitmap size := by
  intro fs datos indice' hfs hdatos hindice'
  have hn := bloquesNecesarios_of_le hsum
  obtain ⟨indice, ds, htomados⟩ := exists_tomados size (hn ▸ hlibres)
  have hlen : ds.length = f.bloquesPara size := htomados.1.trans hn
  have htake := htomados.take
  rw [hn] at htake
  rw [htake] at hlow
  obtain ⟨hindice, _, _, hescrituras⟩ := asignar_eq datos htomados
  have hcabe := cabe_of_lt htomados (hlen ▸ hfit) hlow
  simp only [asignarBloques, hfs, hindice, Option.some.injEq] at hindice' ⊢
  subst hindice'
  rw [leerArchivo_eq_iff hdatos]
  intro i hi
  have hj : i / f.blockSize < ds.length := hlen ▸ div_lt_bloquesPara hi
  have hb : ds[i / f.blockSize]? = some ds[i / f.blockSize] := List.getElem?_eq_getElem hj
  rw [hescrituras, wordAt_punteros (hlow indice List.mem_cons_self) ?_ hb, ← hescrituras]
  · rw [byteAt_conDatos hcabe htomados hdatos hb
      (hlow _ (List.mem_cons_of_mem _ (List.mem_of_getElem? hb)))
      (mod_lt_bytesDe_iff.mpr ⟨hwords, hblock⟩ i hi), posicion_eq hblock hi]
  · intro b hb
    have := libre_lt (htomados.mem_libres (List.mem_cons_of_mem _ hb))
    omega

end Reading

section Losses

variable {f : Formato} {bitmap : Bitmap f.bitmapSize} {size : UInt32} {indice : Nat}
  {ds : List Nat}

/-- A `bloques.dat` that shows what was not written in the blocks up to `indice`. -/
def discoMarcado (f : Formato) (indice : Nat) : List UInt8 :=
  List.replicate ((indice + 1) * f.blockSize) 255

/-- A content that shows where it was written. -/
def contenidoMarcado (size : UInt32) : List UInt8 := List.replicate size.toNat 254

/-- `bloques.dat` after the call that stores that content. -/
def marcado (f : Formato) (bitmap : Bitmap f.bitmapSize) (size : UInt32) (indice : Nat) :
    List UInt8 :=
  writeAll (discoMarcado f indice) (asignar f bitmap size (contenidoMarcado size)).escrituras

theorem byteAt_replicate
    {n i : Nat} {v : UInt8} :
    byteAt (List.replicate n v) i = if i < n then v else 0 := by
  rw [byteAt, List.getD_eq_getElem?_getD, List.getElem?_replicate]
  split_ifs
  · rfl
  · rfl

theorem byteAt_discoMarcado_ne (i : Nat) : byteAt (discoMarcado f indice) i ≠ 254 := by
  unfold discoMarcado
  rw [byteAt_replicate]
  split_ifs
  · decide
  · decide

/-- The pointers apart, the bytes up to the index block are marked after the call. -/
theorem le_byteAt_of_not_covers
    {i : Nat}
    (htomados : Tomados f bitmap size indice ds)
    (hi : i < (indice + 1) * f.blockSize)
    (hcovers : ¬ (escrituraPunteros f indice ds).Covers i) :
    254 ≤ (byteAt (marcado f bitmap size indice) i).toNat := by
  have hdatos : (contenidoMarcado size).length = size.toNat := List.length_replicate
  obtain ⟨_, _, _, hescrituras⟩ := asignar_eq (contenidoMarcado size) htomados
  rw [marcado, hescrituras]
  rcases byteAt_writeAll_cases (discoMarcado f indice)
      (escriturasDatos f ds (size.toNat / 4) (contenidoMarcado size) ++
        [escrituraPunteros f indice ds]) i with heq | ⟨w, hw, hw', heq⟩
  · rw [heq, discoMarcado, byteAt_replicate, if_pos hi]
    decide
  · rw [heq]
    rcases List.mem_append.mp hw with hw | hw
    · obtain ⟨j, b, hb, rfl⟩ := mem_escriturasDatos hw
      obtain ⟨hle, hlt⟩ := (covers_datos hdatos).mp hw'
      have hr : i - f.desplazamiento b < f.bytesDe size j := by omega
      have hpos : 4 * (f.palabras * j) + (i - f.desplazamiento b) < size.toNat := by
        unfold Formato.bytesDe at hr
        omega
      rw [porcion_getD hr, contenidoMarcado, List.getD_eq_getElem?_getD,
        List.getElem?_replicate, if_pos hpos]
      decide
    · rw [List.mem_singleton.mp hw] at hw'
      exact absurd hw' hcovers

/-- Bytes far enough are written by no call. -/
theorem byteAt_lejos
    {i : Nat}
    (htomados : Tomados f bitmap size indice ds)
    (hfit : 4 * ds.length ≤ f.blockSize)
    (hi : 2 ^ 32 + f.blockSize ≤ i) :
    byteAt (marcado f bitmap size indice) i ≠ 254 := by
  have hdatos : (contenidoMarcado size).length = size.toNat := List.length_replicate
  obtain ⟨_, _, _, hescrituras⟩ := asignar_eq (contenidoMarcado size) htomados
  rw [marcado, hescrituras, byteAt_writeAll_of_not_covers]
  · exact byteAt_discoMarcado_ne i
  · intro w hw hcovers
    rcases List.mem_append.mp hw with hw | hw
    · obtain ⟨j, b, _, rfl⟩ := mem_escriturasDatos hw
      obtain ⟨_, hlt⟩ := (covers_datos hdatos).mp hcovers
      have hbytes := bytesDe_le f size j
      have hmod : f.desplazamiento b < 2 ^ 32 := Nat.mod_lt _ (by omega)
      omega
    · rw [List.mem_singleton.mp hw] at hcovers
      obtain ⟨_, hlt⟩ := covers_punteros.mp hcovers
      have hmod : f.desplazamiento indice < 2 ^ 32 := Nat.mod_lt _ (by omega)
      omega

/-- The last byte that a file has in its first byte of the last block. -/
theorem ultimoBloque
    (hsize : 0 < size.toNat) :
    0 < f.bloquesPara size ∧ (f.bloquesPara size - 1) * f.blockSize < size.toNat := by
  have hpos := f.blockSize_pos
  have hceil := Nat.div_mul_le_self (size.toNat + f.blockSize - 1) f.blockSize
  have hn : 0 < f.bloquesPara size := Nat.div_pos (by omega) hpos
  have hpred : (f.bloquesPara size - 1) * f.blockSize + f.blockSize =
      f.bloquesPara size * f.blockSize := by
    rw [← Nat.succ_mul, Nat.succ_eq_add_one, Nat.sub_add_cancel hn]
  refine ⟨hn, ?_⟩
  unfold Formato.bloquesPara at hn hpred ⊢
  omega

/-- When every content comes back, the marked one does. -/
theorem GuardaDatos.lee
    (h : GuardaDatos f bitmap size)
    (htomados : Tomados f bitmap size indice ds)
    {i : Nat}
    (hi : i < size.toNat) :
    byteAt (marcado f bitmap size indice)
      (wordAt (marcado f bitmap size indice) (indice * f.blockSize + 4 * (i / f.blockSize)) *
        f.blockSize + i % f.blockSize) = 254 := by
  have hdatos : (contenidoMarcado size).length = size.toNat := List.length_replicate
  obtain ⟨hindice, _, _, _⟩ := asignar_eq (contenidoMarcado size) htomados
  have hread := h { bitmap, bitmapDat := bitmap, bloques := discoMarcado f indice, archivos := [] }
    (contenidoMarcado size) indice rfl hdatos hindice
  have hbyte := (leerArchivo_eq_iff hdatos).mp hread i hi
  rw [contenidoMarcado, List.getD_eq_getElem?_getD, List.getElem?_replicate, if_pos hi] at hbyte
  exact hbyte

/-- The pointers of the call are read back. -/
theorem wordAt_marcado
    (htomados : Tomados f bitmap size indice ds)
    (hlow : indice * f.blockSize < 2 ^ 32)
    {j b : Nat}
    (hb : ds[j]? = some b) :
    wordAt (marcado f bitmap size indice) (indice * f.blockSize + 4 * j) = b := by
  obtain ⟨_, _, _, hescrituras⟩ := asignar_eq (contenidoMarcado size) htomados
  rw [marcado, hescrituras]
  refine wordAt_punteros hlow ?_ hb
  intro c hc
  have hlt := libre_lt (htomados.mem_libres (List.mem_cons_of_mem _ hc))
  omega

/-- When every content comes back, the last pointer is among those that are written. -/
theorem GuardaDatos.ultimoPuntero
    (h : GuardaDatos f bitmap size)
    (hblock : 4 ≤ f.blockSize)
    (hsize : 0 < size.toNat)
    (hptrs : 4 * f.bloquesPara size ≤ f.blockSize)
    (htomados : Tomados f bitmap size indice ds) :
    indice * f.blockSize < 2 ^ 32 ∧ f.bloquesNecesarios size = f.bloquesPara size := by
  obtain ⟨hn, hultimo⟩ := ultimoBloque (f := f) hsize
  have hle := bloquesNecesarios_le f size
  have hlen := htomados.1
  have hpos := f.blockSize_pos
  have hmul : (indice + 1) * f.blockSize = indice * f.blockSize + f.blockSize := Nat.succ_mul _ _
  have hcovers : ∃ k, k < 4 ∧ (escrituraPunteros f indice ds).Covers
      (indice * f.blockSize + 4 * (f.bloquesPara size - 1) + k) := by
    by_contra hno
    rw [not_exists] at hno
    -- the bytes of the last pointer are marked, so it points far away
    have hword : 254 * 16843009 ≤ wordAt (marcado f bitmap size indice)
        (indice * f.blockSize + 4 * (f.bloquesPara size - 1)) := by
      refine le_wordAt ?_
      intro k hk
      exact le_byteAt_of_not_covers htomados (by omega) (fun hc => hno k ⟨hk, hc⟩)
    have hread := h.lee htomados hultimo
    rw [Nat.mul_div_cancel _ hpos, Nat.mul_mod_left] at hread
    have hfar := Nat.mul_le_mul_right f.blockSize hword
    exact byteAt_lejos htomados (by omega) (by omega) hread
  obtain ⟨k, hk, hcovers⟩ := hcovers
  obtain ⟨_, hlt⟩ := covers_punteros.mp hcovers
  have hbs := f.blockSize_lt
  have hlow : indice * f.blockSize < 2 ^ 32 := by
    by_contra hhigh
    have hwrap := desplazamiento_add_le (f := f) (not_lt.mp hhigh)
    omega
  rw [desplazamiento_of_lt hlow] at hlt
  exact ⟨hlow, by omega⟩

/-- The number of blocks is right only without a sum that wraps around. -/
theorem le_of_bloquesNecesarios_eq
    (h : f.bloquesNecesarios size = f.bloquesPara size) :
    size.toNat + f.blockSize ≤ 2 ^ 32 := by
  by_contra hno
  have hpos := f.blockSize_pos
  have hbs := f.blockSize_lt
  have hsize := size.toNat_lt
  have hmod : (size.toNat + f.blockSize - 1) % 2 ^ 32 = size.toNat + f.blockSize - 1 - 2 ^ 32 := by
    rw [Nat.mod_eq_sub_mod (by omega), Nat.mod_eq_of_lt (by omega)]
  have hlt : (size.toNat + f.blockSize - 1 - 2 ^ 32) / f.blockSize + 1 ≤
      (size.toNat + f.blockSize - 1) / f.blockSize := by
    rw [← Nat.add_div_right _ hpos]
    exact Nat.div_le_div_right (by omega)
  unfold Formato.bloquesNecesarios Formato.bloquesPara at h
  rw [hmod] at h
  omega

/-- When every content comes back, no block starts beyond 32 bits. -/
theorem GuardaDatos.bajos
    (h : GuardaDatos f bitmap size)
    (hblock : 4 ≤ f.blockSize)
    (hsize : 0 < size.toNat)
    (hptrs : 4 * f.bloquesPara size ≤ f.blockSize)
    (htomados : Tomados f bitmap size indice ds) :
    ∀ b ∈ indice :: ds, b * f.blockSize < 2 ^ 32 := by
  obtain ⟨hlow, hcount⟩ := h.ultimoPuntero hblock hsize hptrs htomados
  obtain ⟨hn, hultimo⟩ := ultimoBloque (f := f) hsize
  have hdatos : (contenidoMarcado size).length = size.toNat := List.length_replicate
  obtain ⟨_, _, _, hescrituras⟩ := asignar_eq (contenidoMarcado size) htomados
  have hlen : ds.length = f.bloquesPara size := htomados.1.trans hcount
  have hlast : f.bloquesPara size - 1 < ds.length := by omega
  have hb : ds[f.bloquesPara size - 1]? = some ds[f.bloquesPara size - 1] :=
    List.getElem?_eq_getElem hlast
  set b := ds[f.bloquesPara size - 1] with hbdef
  have hbs := f.blockSize_lt
  have hmax : ∀ c ∈ ds, c ≤ b := by
    intro c hc
    obtain ⟨l, hl⟩ := List.mem_iff_getElem?.mp hc
    have hlt := (List.getElem?_eq_some_iff.mp hl).1
    rcases Nat.lt_or_ge l (f.bloquesPara size - 1) with hlj | hlj
    · exact Nat.le_of_lt ((htomados.lt_of_getElem? hl).2 _ b hlj hb)
    · have heq : l = f.bloquesPara size - 1 := by omega
      rw [heq, hb] at hl
      exact le_of_eq (Option.some.inj hl).symm
  have hindice := (htomados.lt_of_getElem? hb).1
  have hblow : b * f.blockSize < 2 ^ 32 := by
    by_contra hhigh
    -- nothing is written where the last block is read
    have hread := h.lee htomados hultimo
    rw [Nat.mul_div_cancel _ f.blockSize_pos, Nat.mul_mod_left,
      wordAt_marcado htomados hlow hb, marcado, hescrituras, byteAt_writeAll_of_not_covers] at hread
    · exact byteAt_discoMarcado_ne _ hread
    · intro w hw hcovers
      rcases List.mem_append.mp hw with hw | hw
      · obtain ⟨l, c, hc, rfl⟩ := mem_escriturasDatos hw
        obtain ⟨_, hlt⟩ := (covers_datos hdatos).mp hcovers
        have hbytes := bytesDe_le f size l
        have hle := desplazamiento_le f c
        rcases Nat.eq_or_lt_of_le (hmax c (List.mem_of_getElem? hc)) with rfl | hcb
        · have hwrap := desplazamiento_add_le (f := f) (not_lt.mp hhigh)
          omega
        · have hnext := Nat.mul_le_mul_right f.blockSize (Nat.succ_le_of_lt hcb)
          rw [Nat.succ_mul] at hnext
          omega
      · rw [List.mem_singleton.mp hw] at hcovers
        obtain ⟨_, hlt⟩ := covers_punteros.mp hcovers
        have hnext := Nat.mul_le_mul_right f.blockSize (Nat.succ_le_of_lt hindice)
        rw [Nat.succ_mul] at hnext
        rw [desplazamiento_of_lt hlow] at hlt
        omega
  intro c hc
  rcases List.mem_cons.mp hc with rfl | hc
  · exact hlow
  · exact lt_of_le_of_lt (Nat.mul_le_mul_right _ (hmax c hc)) hblow

/-- When every content comes back, the data of the blocks reaches every byte of the
file. -/
theorem GuardaDatos.completo
    (h : GuardaDatos f bitmap size)
    (hblock : 4 ≤ f.blockSize)
    (hsize : 0 < size.toNat)
    (hptrs : 4 * f.bloquesPara size ≤ f.blockSize)
    (htomados : Tomados f bitmap size indice ds)
    {i : Nat}
    (hi : i < size.toNat) :
    i % f.blockSize < f.bytesDe size (i / f.blockSize) := by
  by_contra hle
  obtain ⟨hlow, hcount⟩ := h.ultimoPuntero hblock hsize hptrs htomados
  have hbajos := h.bajos hblock hsize hptrs htomados
  have hdatos : (contenidoMarcado size).length = size.toNat := List.length_replicate
  have hlen : ds.length = f.bloquesPara size := htomados.1.trans hcount
  have hj : i / f.blockSize < ds.length := hlen ▸ div_lt_bloquesPara hi
  have hb : ds[i / f.blockSize]? = some ds[i / f.blockSize] := List.getElem?_eq_getElem hj
  have hread := h.lee htomados hi
  rw [wordAt_marcado htomados hlow hb, marcado,
    byteAt_sinDatos (hlen ▸ hptrs) hbajos htomados hdatos hb (not_lt.mp hle)
      (Nat.mod_lt _ f.blockSize_pos)] at hread
  exact byteAt_discoMarcado_ne _ hread

end Losses

/-- For a block size and a bitmap with room for the file and its pointers, every content
of the size comes back, whatever `bloques.dat` held, exactly when the size is a number
of words, the blocks are too or the file has only one, and nothing wraps around. -/
theorem dump_read_back_iff
    (f : Formato) (bitmap : Bitmap f.bitmapSize) (size : UInt32)
    (hblock : 4 ≤ f.blockSize)
    (hsize : 0 < size.toNat)
    (hptrs : 4 * f.bloquesPara size ≤ f.blockSize)
    (hlibres : f.bloquesPara size < bitmap.libres.length) :
    GuardaDatos f bitmap size ↔
      4 ∣ size.toNat ∧ (4 ∣ f.blockSize ∨ size.toNat ≤ f.blockSize) ∧
        size.toNat + f.blockSize ≤ 2 ^ 32 ∧
        ∀ b ∈ bitmap.libres.take (f.bloquesPara size + 1), b * f.blockSize < 2 ^ 32 := by
  constructor
  · intro h
    have hle := bloquesNecesarios_le f size
    obtain ⟨indice, ds, htomados⟩ := exists_tomados size (lt_of_le_of_lt hle hlibres)
    obtain ⟨_, hcount⟩ := h.ultimoPuntero hblock hsize hptrs htomados
    obtain ⟨hwords, hblocks⟩ := mod_lt_bytesDe_iff.mp
      (fun i hi => h.completo hblock hsize hptrs htomados hi)
    refine ⟨hwords, hblocks, le_of_bloquesNecesarios_eq hcount, ?_⟩
    rw [← hcount, htomados.take]
    exact h.bajos hblock hsize hptrs htomados
  · rintro ⟨hwords, hblocks, hsum, hlow⟩
    exact guardaDatos hptrs hwords hblocks hsum hlow hlibres

/-- Two words, in a block of eight bytes. -/
theorem dump_read_back_dosPalabras :
    GuardaDatos formatoDeOcho (Bitmap.vacio formatoDeOcho.bitmapSize) 8 :=
  (dump_read_back_iff formatoDeOcho _ 8 (by decide) (by decide) (by decide) (by decide)).mpr
    (by decide)

/-- The fifth byte of a dump of five is lost. -/
theorem dump_loses_last_byte :
    ¬ ∀ (f : Formato) (bitmap : Bitmap f.bitmapSize) (size : UInt32),
        4 ≤ f.blockSize → 0 < size.toNat → 4 * f.bloquesPara size ≤ f.blockSize →
        f.bloquesPara size < bitmap.libres.length →
        GuardaDatos f bitmap size := by
  intro hclaim
  have hfive := hclaim formatoDeOcho (Bitmap.vacio _) 5 (by decide) (by decide) (by decide)
    (by decide)
  have hread := hfive
    { bitmap := Bitmap.vacio _, bitmapDat := Bitmap.vacio _, bloques := [], archivos := [] }
    [1, 2, 3, 4, 5] 0 rfl rfl (by decide)
  exact absurd hread (by decide)

end FileSystem
end SinIdeas
