import SinIdeas.Lib.ByteFile
import SinIdeas.FileSystem.Bitmap

/-!
# Assignment of blocks

`asignar_bloques`: an index block and the data blocks of a file are taken from the
bitmap one after another, the data is copied to each block in words of 32 bits,
and the pointers to the data blocks are written to the index block at the end.
The source never reads `bloques.dat`, so a call is the list of its writes;
offsets and the number of blocks are computed with 32 bits.
-/

namespace SinIdeas
namespace FileSystem

open Lib

/-- BLOCK_SIZE, BLOCK_COUNT and MOUNT_DIR. -/
structure Formato where
  blockSize : Nat
  blockCount : Nat
  mountDir : List Char
  blockSize_pos : 0 < blockSize
  blockSize_lt : blockSize < 2 ^ 32
  blockCount_lt : blockCount < 2 ^ 31

/-- `bitmap_size`. -/
def Formato.bitmapSize (f : Formato) : Nat := (f.blockCount + 7) / 8

/-- A metadata file, with its path. -/
structure Metadatos where
  path : List Char
  size : UInt32
  indexBlock : Nat
  deriving DecidableEq

/-- The file system: `bitmap`, `bitmap.dat`, `bloques.dat` and the metadata files. -/
structure Fs (f : Formato) where
  bitmap : Bitmap f.bitmapSize
  bitmapDat : Bitmap f.bitmapSize
  bloques : List UInt8
  archivos : List Metadatos
  deriving DecidableEq

/-- `bloques_necesarios`. -/
def Formato.bloquesNecesarios (f : Formato) (size : UInt32) : Nat :=
  (size.toNat + f.blockSize - 1) % 2 ^ 32 / f.blockSize

/-- The offset of a block, a product of 32 bits. -/
def Formato.desplazamiento (f : Formato) (bloque : Nat) : Nat := bloque * f.blockSize % 2 ^ 32

/-- `block_size / sizeof(uint32_t)`. -/
def Formato.palabras (f : Formato) : Nat := f.blockSize / 4

/-- The local variables of the loop of `asignar_bloques`, and the writes made so far;
`datos` is what `data_ptr` points to. -/
structure Asignacion (f : Formato) where
  bitmap : Bitmap f.bitmapSize
  punteros : List Nat
  datos : List UInt8
  remainingWords : Nat
  escrituras : List Write

/-- A round of the loop, for the block it has found. -/
def asignarBloque (f : Formato) (bloque : Nat) (a : Asignacion f) : Asignacion f :=
  let words := if a.remainingWords < f.palabras then a.remainingWords else f.palabras
  { bitmap := marcarBloque bloque true a.bitmap
    punteros := a.punteros ++ [bloque]
    datos := a.datos.drop (4 * words)
    remainingWords := a.remainingWords - words
    escrituras := a.escrituras ++
      [{ offset := f.desplazamiento bloque, bytes := a.datos.take (4 * words) }] }

/-- The loop, with the rounds to go; the flag tells whether every round found a block. -/
def asignarDatos (f : Formato) : Nat → Asignacion f → Asignacion f × Bool
  | 0, a => (a, true)
  | n + 1, a =>
      match buscarBloqueLibre a.bitmap with
      | none => (a, false)
      | some bloque => asignarDatos f n (asignarBloque f bloque a)

/-- The write of the pointers. -/
def escrituraPunteros (f : Formato) (bloqueIndice : Nat) (punteros : List Nat) : Write where
  offset := f.desplazamiento bloqueIndice
  bytes := punteros.flatMap (leBytes 4)

/-- What a call of `asignar_bloques` leaves: the bitmap, its writes to `bloques.dat`, the
data blocks and the index block if it ends well. -/
structure Llamada (f : Formato) where
  bitmap : Bitmap f.bitmapSize
  escrituras : List Write
  punteros : List Nat
  indice : Option Nat

/-- `asignar_bloques`. -/
def asignar (f : Formato) (bitmap : Bitmap f.bitmapSize) (size : UInt32) (datos : List UInt8) :
    Llamada f :=
  if contarBloquesLibres bitmap < (f.bloquesNecesarios size + 1) % 2 ^ 32 then
    { bitmap, escrituras := [], punteros := [], indice := none }
  else
    match buscarBloqueLibre bitmap with
    | none => { bitmap, escrituras := [], punteros := [], indice := none }
    | some bloqueIndice =>
        let r := asignarDatos f (f.bloquesNecesarios size)
          { bitmap := marcarBloque bloqueIndice true bitmap
            punteros := []
            datos := datos
            remainingWords := size.toNat / 4
            escrituras := [] }
        if r.2 then
          { bitmap := r.1.bitmap
            escrituras := r.1.escrituras ++ [escrituraPunteros f bloqueIndice r.1.punteros]
            punteros := r.1.punteros
            indice := some bloqueIndice }
        else
          { bitmap := r.1.bitmap
            escrituras := r.1.escrituras
            punteros := r.1.punteros
            indice := none }

/-- `asignar_bloques` on the file system; only a call that ends well saves the bitmap. -/
def asignarBloques (f : Formato) (fs : Fs f) (size : UInt32) (datos : List UInt8) :
    Fs f × Option Nat :=
  let r := asignar f fs.bitmap size datos
  ({ fs with
      bitmap := r.bitmap
      bitmapDat := if r.indice.isSome then r.bitmap else fs.bitmapDat
      bloques := writeAll fs.bloques r.escrituras },
    r.indice)

/-- The part of the data that goes to the data block `j`, with `q` words a block. -/
def porcion (q words : Nat) (datos : List UInt8) (j : Nat) : List UInt8 :=
  (datos.drop (4 * (q * j))).take (4 * min (words - q * j) q)

/-- The writes of the data to the blocks. -/
def escriturasDatos (f : Formato) (bloques : List Nat) (words : Nat) (datos : List UInt8) :
    List Write :=
  bloques.mapIdx (fun j b =>
    { offset := f.desplazamiento b, bytes := porcion f.palabras words datos j })

section Rounds

variable {f : Formato}

/-- What is left of the data after a block are the parts of the next ones. -/
theorem porcion_succ
    (q words : Nat) (datos : List UInt8) (j : Nat) :
    porcion q (words - min words q) (datos.drop (4 * min words q)) j =
      porcion q words datos (j + 1) := by
  have hmul : q * (j + 1) = q + q * j := by ring
  unfold porcion
  rw [List.drop_drop, hmul]
  by_cases hle : q ≤ words
  · have hmin : min words q = q := Nat.min_eq_right hle
    have hwords : words - min words q - q * j = words - (q + q * j) := by omega
    have hdrop : 4 * min words q + 4 * (q * j) = 4 * (q + q * j) := by omega
    rw [hwords, hdrop]
  · have hmin : min words q = words := Nat.min_eq_left (by omega)
    have hzero : words - min words q - q * j = 0 := by omega
    have hzero' : words - (q + q * j) = 0 := by omega
    rw [hzero, hzero']
    simp

/-- How many bytes of the file go to its data block `j`. -/
def Formato.bytesDe (f : Formato) (size : UInt32) (j : Nat) : Nat :=
  4 * min (size.toNat / 4 - f.palabras * j) f.palabras

theorem length_porcion
    {size : UInt32} {datos : List UInt8}
    (hdatos : datos.length = size.toNat)
    (j : Nat) :
    (porcion f.palabras (size.toNat / 4) datos j).length = f.bytesDe size j := by
  simp only [porcion, Formato.bytesDe, List.length_take, List.length_drop, hdatos]
  omega

theorem bytesDe_le
    (f : Formato) (size : UInt32) (j : Nat) :
    f.bytesDe size j ≤ f.blockSize := by
  have hmin : min (size.toNat / 4 - f.palabras * j) f.palabras ≤ f.palabras := Nat.min_le_right _ _
  unfold Formato.bytesDe
  unfold Formato.palabras at hmin ⊢
  omega

/-- The rounds take the first free blocks and write the parts of the data to them. -/
theorem asignarDatos_eq
    {ds resto : List Nat} {a : Asignacion f}
    (h : a.bitmap.libres = ds ++ resto) :
    (asignarDatos f ds.length a).2 = true ∧
    (asignarDatos f ds.length a).1.bitmap.libres = resto ∧
    (∀ c, (asignarDatos f ds.length a).1.bitmap.ocupado c =
      (a.bitmap.ocupado c || decide (c ∈ ds))) ∧
    (asignarDatos f ds.length a).1.punteros = a.punteros ++ ds ∧
    (asignarDatos f ds.length a).1.escrituras =
      a.escrituras ++ escriturasDatos f ds a.remainingWords a.datos := by
  induction ds generalizing a with
  | nil =>
      simp [asignarDatos, escriturasDatos, h]
  | cons b ds ih =>
      have hb : b < 8 * f.bitmapSize := (mem_libres.mp (by rw [h]; simp)).1
      have hfind : buscarBloqueLibre a.bitmap = some b := by
        rw [buscarBloqueLibre_eq, h]
        rfl
      have hwords : (if a.remainingWords < f.palabras then a.remainingWords else f.palabras) =
          min a.remainingWords f.palabras := by
        split_ifs <;> omega
      have hlibres : (asignarBloque f b a).bitmap.libres = ds ++ resto := libres_marcar h
      obtain ⟨hok, hresto, hocupado, hpunteros, hescrituras⟩ := ih hlibres
      simp only [List.length_cons, asignarDatos, hfind]
      refine ⟨hok, hresto, ?_, ?_, ?_⟩
      · intro c
        rw [hocupado c]
        simp only [asignarBloque, ocupado_marcar hb, List.mem_cons, Bool.or_assoc,
          Bool.decide_or]
      · rw [hpunteros]
        simp [asignarBloque]
      · rw [hescrituras]
        have hfirst : a.datos.take (4 * min a.remainingWords f.palabras) =
            porcion f.palabras a.remainingWords a.datos 0 := by
          simp [porcion]
        simp only [asignarBloque, hwords, escriturasDatos, List.mapIdx_cons, List.append_assoc,
          List.singleton_append, porcion_succ, hfirst]

/-- Without a word a block nothing is written to the data blocks. -/
theorem asignarDatos_vacias
    {n : Nat} {a : Asignacion f}
    (hq : f.palabras = 0)
    (ha : ∀ w ∈ a.escrituras, w.bytes = []) :
    ∀ w ∈ (asignarDatos f n a).1.escrituras, w.bytes = [] := by
  induction n generalizing a with
  | zero =>
      exact ha
  | succ n ih =>
      unfold asignarDatos
      split
      · exact ha
      · refine ih ?_
        intro w hw
        rcases List.mem_append.mp hw with hw | hw
        · exact ha w hw
        · rw [List.mem_singleton.mp hw]
          simp [hq]

/-- The rounds end badly when there are not enough free blocks. -/
theorem asignarDatos_false
    {n : Nat} {a : Asignacion f}
    (h : a.bitmap.libres.length < n) :
    (asignarDatos f n a).2 = false := by
  induction n generalizing a with
  | zero =>
      omega
  | succ n ih =>
      unfold asignarDatos
      cases hlibres : a.bitmap.libres with
      | nil =>
          rw [buscarBloqueLibre_eq, hlibres]
          rfl
      | cons b ls =>
          rw [buscarBloqueLibre_eq, hlibres]
          refine ih ?_
          have hnext : (asignarBloque f b a).bitmap.libres = ls := libres_marcar hlibres
          rw [hnext]
          rw [hlibres, List.length_cons] at h
          omega

/-- The rounds free no block. -/
theorem ocupado_asignarDatos
    {n b : Nat} {a : Asignacion f}
    (h : a.bitmap.ocupado b = true) :
    (asignarDatos f n a).1.bitmap.ocupado b = true := by
  induction n generalizing a with
  | zero =>
      exact h
  | succ n ih =>
      unfold asignarDatos
      split
      · exact h
      · rename_i bloque hfind
        refine ih ?_
        simp only [asignarBloque]
        rw [ocupado_marcar_of_buscar hfind, h]
        rfl

end Rounds

section Call

variable {f : Formato} {bitmap : Bitmap f.bitmapSize} {size : UInt32}

theorem Formato.bitmapSize_le (f : Formato) : 8 * f.bitmapSize ≤ 2 ^ 31 := by
  have hcount := f.blockCount_lt
  unfold Formato.bitmapSize
  omega

/-- Block numbers are below `2^31`. -/
theorem libre_lt
    {b : Nat}
    (hb : b ∈ bitmap.libres) :
    b < 2 ^ 31 :=
  lt_of_lt_of_le (mem_libres.mp hb).1 f.bitmapSize_le

theorem length_libres_le (bitmap : Bitmap f.bitmapSize) : bitmap.libres.length ≤ 2 ^ 31 :=
  (length_libres_le_bits bitmap).trans f.bitmapSize_le

/-- The call takes `indice` as the index block and `ds` as the data blocks: they are the
first free ones. -/
def Tomados (f : Formato) (bitmap : Bitmap f.bitmapSize) (size : UInt32) (indice : Nat)
    (ds : List Nat) : Prop :=
  ds.length = f.bloquesNecesarios size ∧ ∃ resto, bitmap.libres = indice :: ds ++ resto

/-- With enough free blocks there are blocks to take. -/
theorem exists_tomados
    (size : UInt32)
    (h : f.bloquesNecesarios size < bitmap.libres.length) :
    ∃ indice ds, Tomados f bitmap size indice ds := by
  cases hlibres : bitmap.libres with
  | nil =>
      simp [hlibres] at h
  | cons indice ls =>
      rw [hlibres, List.length_cons] at h
      refine ⟨indice, ls.take (f.bloquesNecesarios size), ?_, ls.drop (f.bloquesNecesarios size), ?_⟩
      · rw [List.length_take]
        omega
      · rw [hlibres, List.cons_append, List.take_append_drop]

theorem Tomados.take
    {indice : Nat} {ds : List Nat}
    (h : Tomados f bitmap size indice ds) :
    bitmap.libres.take (f.bloquesNecesarios size + 1) = indice :: ds := by
  obtain ⟨hlen, resto, hlibres⟩ := h
  rw [hlibres, List.take_left']
  rw [List.length_cons, hlen]

/-- The blocks taken are in increasing order. -/
theorem Tomados.pairwise
    {indice : Nat} {ds : List Nat}
    (h : Tomados f bitmap size indice ds) :
    (indice :: ds).Pairwise (fun b c => b < c) := by
  obtain ⟨_, resto, hlibres⟩ := h
  have hsorted := libres_pairwise bitmap
  rw [hlibres] at hsorted
  exact (List.pairwise_append.mp hsorted).1

theorem Tomados.mem_libres
    {indice b : Nat} {ds : List Nat}
    (h : Tomados f bitmap size indice ds)
    (hb : b ∈ indice :: ds) :
    b ∈ bitmap.libres := by
  obtain ⟨_, resto, hlibres⟩ := h
  rw [hlibres]
  exact List.mem_append_left _ hb

/-- The blocks taken are other than the occupied ones. -/
theorem Tomados.nodup_append
    {indice : Nat} {ds bloques : List Nat}
    (h : Tomados f bitmap size indice ds)
    (hnodup : bloques.Nodup)
    (hocupados : ∀ b ∈ bloques, bitmap.ocupado b = true) :
    (bloques ++ indice :: ds).Nodup := by
  rw [List.nodup_append]
  refine ⟨hnodup, h.pairwise.imp Nat.ne_of_lt, ?_⟩
  rintro b hb c hc rfl
  have hset := hocupados b hb
  rw [(FileSystem.mem_libres.mp (h.mem_libres hc)).2] at hset
  cases hset

/-- A call that finds enough free blocks. -/
theorem asignar_eq
    {indice : Nat} {ds : List Nat}
    (datos : List UInt8)
    (htomados : Tomados f bitmap size indice ds) :
    (asignar f bitmap size datos).indice = some indice ∧
    (∀ c, (asignar f bitmap size datos).bitmap.ocupado c =
      (bitmap.ocupado c || decide (c ∈ indice :: ds))) ∧
    (asignar f bitmap size datos).punteros = ds ∧
    (asignar f bitmap size datos).escrituras =
      escriturasDatos f ds (size.toNat / 4) datos ++ [escrituraPunteros f indice ds] := by
  obtain ⟨hn, resto, h⟩ := htomados
  have hb : indice < 8 * f.bitmapSize := (FileSystem.mem_libres.mp (by rw [h]; simp)).1
  have hlen : bitmap.libres.length = ds.length + 1 + resto.length := by
    rw [h]
    simp only [List.cons_append, List.length_cons, List.length_append]
    omega
  have hmax := length_libres_le bitmap
  have hmod : (f.bloquesNecesarios size + 1) % 2 ^ 32 = ds.length + 1 := by omega
  have hcount : ¬ contarBloquesLibres bitmap < (f.bloquesNecesarios size + 1) % 2 ^ 32 := by
    rw [contarBloquesLibres_eq, hmod]
    omega
  have hfind : buscarBloqueLibre bitmap = some indice := by
    rw [buscarBloqueLibre_eq, h]
    rfl
  have hlibres : (marcarBloque indice true bitmap).libres = ds ++ resto := libres_marcar h
  obtain ⟨hok, _, hocupado, hpunteros, hescrituras⟩ := asignarDatos_eq (f := f)
    (a := { bitmap := marcarBloque indice true bitmap
            punteros := []
            datos := datos
            remainingWords := size.toNat / 4
            escrituras := [] }) hlibres
  rw [hn] at hok hocupado hpunteros hescrituras
  unfold asignar
  rw [if_neg hcount, hfind]
  simp only [hok, if_true, hpunteros, hescrituras, List.nil_append]
  refine ⟨trivial, ?_, trivial, trivial⟩
  intro c
  rw [hocupado c, ocupado_marcar hb]
  simp only [List.mem_cons, Bool.decide_or, Bool.or_assoc]

/-- A call that the check of the count refuses, or that finds no index block, does nothing. -/
theorem asignar_rechazada
    (datos : List UInt8)
    (h : contarBloquesLibres bitmap < (f.bloquesNecesarios size + 1) % 2 ^ 32 ∨
      buscarBloqueLibre bitmap = none) :
    asignar f bitmap size datos =
      { bitmap, escrituras := [], punteros := [], indice := none } := by
  unfold asignar
  split
  · rfl
  · rename_i hcount
    rw [h.resolve_left hcount]

/-- The sum of one more block is zero in 32 bits only if a block has one byte. -/
theorem blockSize_eq_one_of_wraps
    (h : 2 ^ 32 ≤ f.bloquesNecesarios size + 1) :
    f.blockSize = 1 := by
  have hpos := f.blockSize_pos
  have hle : f.bloquesNecesarios size ≤ (2 ^ 32 - 1) / f.blockSize :=
    Nat.div_le_div_right (by omega)
  by_contra hne
  have hhalf : (2 ^ 32 - 1) / f.blockSize ≤ (2 ^ 32 - 1) / 2 :=
    Nat.div_le_div_left (by omega) (by omega)
  omega

/-- A call that does not find enough free blocks writes no byte. -/
theorem asignar_sinBloques
    (datos : List UInt8)
    (h : bitmap.libres.length < f.bloquesNecesarios size + 1) :
    (asignar f bitmap size datos).indice = none ∧
      ∀ w ∈ (asignar f bitmap size datos).escrituras, w.bytes = [] := by
  by_cases hcount : contarBloquesLibres bitmap < (f.bloquesNecesarios size + 1) % 2 ^ 32
  · rw [asignar_rechazada datos (Or.inl hcount)]
    simp
  · rw [contarBloquesLibres_eq] at hcount
    have hwraps : 2 ^ 32 ≤ f.bloquesNecesarios size + 1 := by
      by_contra hlt
      rw [Nat.mod_eq_of_lt (by omega)] at hcount
      omega
    have hq : f.palabras = 0 := by
      rw [Formato.palabras, blockSize_eq_one_of_wraps hwraps]
    unfold asignar
    rw [contarBloquesLibres_eq, if_neg hcount]
    cases hlibres : bitmap.libres with
    | nil =>
        rw [buscarBloqueLibre_eq, hlibres]
        simp
    | cons b ls =>
        rw [buscarBloqueLibre_eq, hlibres]
        rw [hlibres, List.length_cons] at h
        have hfalse := asignarDatos_false (f := f) (n := f.bloquesNecesarios size)
          (a := { bitmap := marcarBloque b true bitmap
                  punteros := []
                  datos := datos
                  remainingWords := size.toNat / 4
                  escrituras := [] }) (by rw [libres_marcar hlibres]; omega)
        simp only [List.head?_cons, hfalse]
        refine ⟨rfl, asignarDatos_vacias hq ?_⟩
        simp

/-- A call frees no block. -/
theorem ocupado_asignar
    {b : Nat}
    (datos : List UInt8)
    (h : bitmap.ocupado b = true) :
    (asignar f bitmap size datos).bitmap.ocupado b = true := by
  unfold asignar
  split
  · exact h
  · split
    · exact h
    · rename_i bloqueIndice hfind
      have hmarcado : (marcarBloque bloqueIndice true bitmap).ocupado b = true := by
        rw [ocupado_marcar_of_buscar hfind, h]
        rfl
      simp only
      split
      · exact ocupado_asignarDatos hmarcado
      · exact ocupado_asignarDatos hmarcado

/-- A call that ends well has found enough free blocks. -/
theorem exists_tomados_of_indice
    {indice : Nat} {datos : List UInt8}
    (h : (asignar f bitmap size datos).indice = some indice) :
    ∃ ds, Tomados f bitmap size indice ds := by
  have hlibres : f.bloquesNecesarios size < bitmap.libres.length := by
    by_contra hno
    rw [(asignar_sinBloques datos (by omega)).1] at h
    cases h
  obtain ⟨indice', ds, htomados⟩ := exists_tomados size hlibres
  rw [(asignar_eq datos htomados).1, Option.some.injEq] at h
  exact ⟨ds, h ▸ htomados⟩

/-- A call that finds enough free blocks leaves the others free, in their order. -/
theorem libres_asignar
    {indice : Nat} {ds : List Nat}
    (datos : List UInt8)
    (htomados : Tomados f bitmap size indice ds) :
    (asignar f bitmap size datos).bitmap.libres = bitmap.libres.drop (ds.length + 1) := by
  obtain ⟨_, hocupado, _, _⟩ := asignar_eq datos htomados
  have hfilter : (asignar f bitmap size datos).bitmap.libres =
      bitmap.libres.filter (fun b => decide (b ∉ indice :: ds)) := by
    have hmenos : ∀ b, (!(asignar f bitmap size datos).bitmap.ocupado b) =
        (decide (b ∉ indice :: ds) && !bitmap.ocupado b) := by
      intro b
      rw [hocupado b, Bool.not_or, decide_not, Bool.and_comm]
    rw [libres_eq_filter, libres_eq_filter, List.filter_filter]
    exact List.filter_congr (fun b _ => hmenos b)
  have hnodup := nodup_libres bitmap
  obtain ⟨_, resto, hlibres⟩ := htomados
  have hlen : ds.length + 1 = (indice :: ds).length := rfl
  rw [hfilter, hlen]
  rw [hlibres] at hnodup ⊢
  have hseparados := (List.nodup_append.mp hnodup).2.2
  have htomada : (indice :: ds).filter (fun b => decide (b ∉ indice :: ds)) = [] := by
    rw [List.filter_eq_nil_iff]
    intro b hb hno
    exact of_decide_eq_true hno hb
  have hresto : resto.filter (fun b => decide (b ∉ indice :: ds)) = resto := by
    rw [List.filter_eq_self]
    intro b hb
    rw [decide_eq_true_eq]
    intro hb'
    exact hseparados b hb' b hb rfl
  rw [List.filter_append, htomada, hresto, List.nil_append, List.drop_left]

end Call

end FileSystem
end SinIdeas
