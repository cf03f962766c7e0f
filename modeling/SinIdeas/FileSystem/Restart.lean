import SinIdeas.FileSystem.Files

/-!
# Stopping and starting again

A call of `crear_archivo` as the operations that it makes on the disk, in program
order: the writes to `bloques.dat`, the truncation and the write of `bitmap.dat`, and
the metadata file, opened empty and written line by line. The process can stop between
two of them; `inicializar_fs` then takes what is on the disk, and makes a `bitmap.dat`
or `bloques.dat` of an unexpected size again, all zeros.
-/

namespace SinIdeas
namespace FileSystem

open Lib

/-- A file under `mount_dir/files`, with the lines that were written to it. -/
structure Archivo where
  path : List Char
  size : Option UInt32
  indexBlock : Option Nat
  deriving DecidableEq

/-- `bitmap.dat`, `bloques.dat` and the metadata files. -/
structure Disco where
  bitmapDat : List (BitVec 8)
  bloquesDat : List UInt8
  archivos : List Archivo
  deriving DecidableEq

/-- An operation on the disk. -/
inductive Operacion where
  | escribirBloques (w : Write)
  | truncarBitmap
  | escribirBitmap (bytes : List (BitVec 8))
  | abrirMetadatos (path : List Char)
  | escribirSize (path : List Char) (size : UInt32)
  | escribirIndexBlock (path : List Char) (bloqueIndice : Nat)
  deriving DecidableEq

/-- A line is added to the file with the path. -/
def anotar (path : List Char) (linea : Archivo → Archivo) (archivos : List Archivo) :
    List Archivo :=
  archivos.map (fun a => if a.path = path then linea a else a)

/-- The disk after an operation. -/
def Operacion.aplicar (d : Disco) : Operacion → Disco
  | escribirBloques w => { d with bloquesDat := writeAt d.bloquesDat w }
  | truncarBitmap => { d with bitmapDat := [] }
  | escribirBitmap bytes => { d with bitmapDat := d.bitmapDat ++ bytes }
  | abrirMetadatos path =>
      { d with
          archivos := d.archivos.filter (fun a => !(a.path == path)) ++
            [{ path, size := none, indexBlock := none }] }
  | escribirSize path size =>
      { d with archivos := anotar path (fun a => { a with size := some size }) d.archivos }
  | escribirIndexBlock path b =>
      { d with archivos := anotar path (fun a => { a with indexBlock := some b }) d.archivos }

/-- The disk after the operations, in order. -/
def aplicarTodas (d : Disco) (ops : List Operacion) : Disco := ops.foldl Operacion.aplicar d

/-- The metadata of a file that has both lines. -/
def Archivo.metadatos (a : Archivo) : Option Metadatos := do
  let size ← a.size
  let indexBlock ← a.indexBlock
  some { path := a.path, size, indexBlock }

/-- The metadata on the disk. -/
def Disco.metadatos (d : Disco) : List Metadatos := d.archivos.filterMap Archivo.metadatos

/-- The operations of `persistir_bitmap`. -/
def operacionesBitmap {n : Nat} (bitmap : Bitmap n) : List Operacion :=
  [.truncarBitmap, .escribirBitmap bitmap.bytes]

/-- The operations on the metadata file. -/
def operacionesMetadatos (m : Metadatos) : List Operacion :=
  [.abrirMetadatos m.path, .escribirSize m.path m.size, .escribirIndexBlock m.path m.indexBlock]

/-- The operations of `crear_archivo`. -/
def operaciones (f : Formato) (bitmap : Bitmap f.bitmapSize) (c : Creacion) : List Operacion :=
  if c.existe then []
  else if c.size = 0 then []
  else
    let r := asignar f bitmap c.size c.datos
    r.escrituras.map .escribirBloques ++
      match r.indice with
      | none => []
      | some bloqueIndice =>
          operacionesBitmap r.bitmap ++
            if c.abre then operacionesMetadatos (metadatosDe f c bloqueIndice) else []

/-- The bitmap that `crear_archivo` leaves in memory. -/
def bitmapTras (f : Formato) (bitmap : Bitmap f.bitmapSize) (c : Creacion) :
    Bitmap f.bitmapSize :=
  if c.existe then bitmap
  else if c.size = 0 then bitmap
  else
    let r := asignar f bitmap c.size c.datos
    match r.indice with
    | none => r.bitmap
    | some bloqueIndice => if c.abre then r.bitmap else marcarBloque bloqueIndice false r.bitmap

/-- `crear_archivo_si_no_existe`. -/
def crearArchivoSiNoExiste {α : Type} (archivo : Option (List α)) (size : Nat) (fillByte : α) :
    List α :=
  match archivo with
  | some bytes => if bytes.length ≠ size then List.replicate size fillByte else bytes
  | none => List.replicate size fillByte

/-- `cargar_bitmap`; `none` is its exit. -/
def cargarBitmap (bitmapSize : Nat) (bytes : List (BitVec 8)) : Option (Bitmap bitmapSize) :=
  if h : bytes.length = bitmapSize then some ⟨bytes, h⟩ else none

/-- The process: its bitmap, and the disk. -/
structure Proceso (f : Formato) where
  bitmap : Bitmap f.bitmapSize
  disco : Disco
  deriving DecidableEq

/-- `inicializar_fs`, with the files that it finds. -/
def inicializarFs (f : Formato) (bitmapDat : Option (List (BitVec 8)))
    (bloquesDat : Option (List UInt8)) (archivos : List Archivo) : Option (Proceso f) := do
  let bitmapDat := crearArchivoSiNoExiste bitmapDat f.bitmapSize 0#8
  let bitmap ← cargarBitmap f.bitmapSize bitmapDat
  let bloquesDat := crearArchivoSiNoExiste bloquesDat (f.blockCount * f.blockSize % 2 ^ 32) 0
  some { bitmap, disco := { bitmapDat, bloquesDat, archivos } }

/-- `inicializar_fs` on the disk that a process left. -/
def reiniciar (f : Formato) (d : Disco) : Option (Proceso f) :=
  inicializarFs f (some d.bitmapDat) (some d.bloquesDat) d.archivos

/-- A call of `crear_archivo`, or one during which the process stops, after `hechas`
operations on the disk, and starts again. -/
inductive EventoFs where
  | crea (c : Creacion)
  | cae (c : Creacion) (hechas : Nat)
  deriving DecidableEq

/-- One step of the file system. -/
def pasoFs (f : Formato) (s : Proceso f) : EventoFs → Option (Proceso f)
  | .crea c =>
      some { bitmap := bitmapTras f s.bitmap c
             disco := aplicarTodas s.disco (operaciones f s.bitmap c) }
  | .cae c hechas =>
      reiniciar f (aplicarTodas s.disco ((operaciones f s.bitmap c).take hechas))

/-- `es` lead from an empty directory to `s`, and each of them met `ok`. -/
def CorridaFs (f : Formato) (ok : Proceso f → EventoFs → Prop) (es : List EventoFs)
    (s : Proceso f) : Prop :=
  ∃ inicio, inicializarFs f none none [] = some inicio ∧
    Run (fun a e b => pasoFs f a e = some b) ok inicio es s

/-- Every block of a metadata file is occupied. -/
def Reservados {f : Formato} (s : Proceso f) : Prop :=
  ∀ a ∈ s.disco.metadatos, ∀ b ∈ bloquesDe f s.disco.bloquesDat a, s.bitmap.ocupado b = true

instance decidableReservados {f : Formato} (s : Proceso f) : Decidable (Reservados s) :=
  inferInstanceAs (Decidable (∀ a ∈ s.disco.metadatos,
    ∀ b ∈ bloquesDe f s.disco.bloquesDat a, s.bitmap.ocupado b = true))

/-- The call is refused before it takes a block; or the offsets of the blocks it takes are
below `2^32`, and if it writes its metadata then its number of blocks does not wrap around
and its pointers end before the first block that stays free. -/
def SinDesborde (f : Formato) (bitmap : Bitmap f.bitmapSize) (c : Creacion) : Prop :=
  c.existe = true ∨ c.size = 0 ∨
  ∀ indice ds, Tomados f bitmap c.size indice ds →
    indice * f.blockSize < 2 ^ 32 ∧
    (∀ j b : Nat, ds[j]? = some b → f.bytesDe c.size j = 0 ∨ b * f.blockSize < 2 ^ 32) ∧
    (c.abre = true → f.bloquesNecesarios c.size = f.bloquesPara c.size ∧
      ∀ b ∈ bitmap.libres.drop (ds.length + 1),
        indice * f.blockSize + 4 * ds.length ≤ b * f.blockSize)

/-- The call of an event. -/
def EventoFs.creacion : EventoFs → Creacion
  | crea c => c
  | cae c _ => c

/-- The process does not stop between the truncation of `bitmap.dat` and its write, or no
file has its metadata. -/
def BitmapEntero {f : Formato} (s : Proceso f) : EventoFs → Prop
  | .crea _ => True
  | .cae c hechas =>
      ((operaciones f s.bitmap c).take hechas).getLast? = some .truncarBitmap →
        s.disco.metadatos = []

/-! ## The operations -/

section Operations

variable {d : Disco} {m : Metadatos} {ws : List Write} {ops : List Operacion}

theorem aplicarTodas_append
    {ops' : List Operacion} :
    aplicarTodas d (ops ++ ops') = aplicarTodas (aplicarTodas d ops) ops' :=
  List.foldl_append

theorem aplicarTodas_escrituras :
    aplicarTodas d (ws.map .escribirBloques) =
      { d with bloquesDat := writeAll d.bloquesDat ws } := by
  induction ws generalizing d with
  | nil =>
      rfl
  | cons w ws ih =>
      rw [List.map_cons, aplicarTodas, List.foldl_cons]
      exact ih

/-- The first operations of some writes and what follows them. -/
theorem take_escrituras
    (k : Nat) :
    (ws.map Operacion.escribirBloques ++ ops).take k =
      (ws.take k).map Operacion.escribirBloques ++ ops.take (k - ws.length) := by
  rw [List.take_append, List.map_take, List.length_map]

/-- A line goes to the file that was just opened. -/
theorem anotar_abierto
    {path : List Char} {linea : Archivo → Archivo} {archivos : List Archivo} {a : Archivo}
    (ha : a.path = path) :
    anotar path linea (archivos.filter (fun a => !(a.path == path)) ++ [a]) =
      archivos.filter (fun a => !(a.path == path)) ++ [linea a] := by
  have hotros : anotar path linea (archivos.filter (fun a => !(a.path == path))) =
      archivos.filter (fun a => !(a.path == path)) := by
    refine (List.map_congr_left ?_).trans (List.map_id _)
    intro b hb
    have hne : b.path ≠ path := by simpa using (List.mem_filter.mp hb).2
    rw [if_neg hne]
    rfl
  unfold anotar at hotros ⊢
  rw [List.map_append, hotros, List.map_singleton, if_pos ha]

/-- The disk when the metadata file is open, with the lines that were written. -/
theorem aplicarTodas_metadatos :
    aplicarTodas d (operacionesMetadatos m) =
      { d with
          archivos := d.archivos.filter (fun a => !(a.path == m.path)) ++
            [{ path := m.path, size := some m.size, indexBlock := some m.indexBlock }] } := by
  simp only [operacionesMetadatos, aplicarTodas, List.foldl_cons, List.foldl_nil,
    Operacion.aplicar, anotar_abierto]

/-- Whatever was written of a metadata file, the others are those there were. -/
theorem metadatos_of_take
    (d : Disco) (m : Metadatos) (k : Nat) :
    (aplicarTodas d ((operacionesMetadatos m).take k)).bitmapDat = d.bitmapDat ∧
    (aplicarTodas d ((operacionesMetadatos m).take k)).bloquesDat = d.bloquesDat ∧
    ∀ a ∈ (aplicarTodas d ((operacionesMetadatos m).take k)).metadatos,
      a ∈ d.metadatos ∨ a = m := by
  have hfiltro : ∀ a ∈ (d.archivos.filter (fun a => !(a.path == m.path))).filterMap
      Archivo.metadatos, a ∈ d.metadatos := by
    intro a ha
    exact (List.filter_sublist.filterMap _).subset ha
  match k with
  | 0 =>
      exact ⟨rfl, rfl, fun a ha => Or.inl ha⟩
  | 1 =>
      refine ⟨rfl, rfl, ?_⟩
      intro a ha
      simp only [operacionesMetadatos, List.take_succ_cons, List.take_zero, aplicarTodas,
        List.foldl_cons, List.foldl_nil, Operacion.aplicar, Disco.metadatos,
        List.filterMap_append] at ha
      exact Or.inl (hfiltro a (by simpa [Archivo.metadatos] using ha))
  | 2 =>
      refine ⟨rfl, rfl, ?_⟩
      intro a ha
      simp only [operacionesMetadatos, List.take_succ_cons, List.take_zero, aplicarTodas,
        List.foldl_cons, List.foldl_nil, Operacion.aplicar, Disco.metadatos, anotar_abierto,
        List.filterMap_append] at ha
      exact Or.inl (hfiltro a (by simpa [Archivo.metadatos] using ha))
  | k + 3 =>
      have htodas : (operacionesMetadatos m).take (k + 3) = operacionesMetadatos m := by
        rw [List.take_of_length_le]
        simp [operacionesMetadatos]
      rw [htodas, aplicarTodas_metadatos]
      refine ⟨rfl, rfl, ?_⟩
      intro a ha
      simp only [Disco.metadatos, List.filterMap_append] at ha
      rcases List.mem_append.mp ha with ha | ha
      · exact Or.inl (hfiltro a ha)
      · exact Or.inr (by simpa [Archivo.metadatos] using ha)

end Operations

/-- A complete metadata file. -/
def Metadatos.archivo (m : Metadatos) : Archivo where
  path := m.path
  size := some m.size
  indexBlock := some m.indexBlock

/-- A file system in memory and on the disk. -/
def Fs.proceso {f : Formato} (fs : Fs f) : Proceso f where
  bitmap := fs.bitmap
  disco := {
    bitmapDat := fs.bitmapDat.bytes
    bloquesDat := fs.bloques
    archivos := fs.archivos.map Metadatos.archivo }

section Refinement

variable {f : Formato}

/-- Without a stop the operations of a call are the call. -/
theorem pasoFs_crea
    (fs : Fs f) (c : Creacion) :
    pasoFs f fs.proceso (.crea c) = some (crearArchivo f c fs).1.proceso := by
  simp only [pasoFs]
  unfold bitmapTras operaciones crearArchivo
  by_cases hexiste : c.existe = true
  · simp only [if_pos hexiste]
    rfl
  by_cases hsize : c.size = 0
  · simp only [if_neg hexiste, if_pos hsize]
    rfl
  simp only [if_neg hexiste, if_neg hsize, asignarBloques, Fs.proceso]
  cases hindice : (asignar f fs.bitmap c.size c.datos).indice with
  | none =>
      simp only [List.append_nil, aplicarTodas_escrituras]
      rfl
  | some bloqueIndice =>
      simp only [aplicarTodas_append, aplicarTodas_escrituras]
      cases habre : c.abre with
      | false =>
          rfl
      | true =>
          simp only [if_true, aplicarTodas_metadatos]
          simp [escribirMetadatos, operacionesBitmap, aplicarTodas, Operacion.aplicar,
            Metadatos.archivo, List.filter_map, Function.comp_def]

end Refinement

/-! ## The invariant -/

/-- The files are safe from later calls: their blocks are occupied, and their pointers end
before every free block. -/
structure ASalvo (f : Formato) (bloquesDat : List UInt8) (ms : List Metadatos)
    (bitmap : Bitmap f.bitmapSize) : Prop where
  ocupados : ∀ a ∈ ms, ∀ b ∈ bloquesDe f bloquesDat a, bitmap.ocupado b = true
  debajo : ∀ a ∈ ms, ∀ b ∈ bitmap.libres, a.fin f ≤ b * f.blockSize

/-- The files are safe with the bitmap on the disk. -/
def Guardado (f : Formato) (d : Disco) : Prop :=
  ∃ bitmap : Bitmap f.bitmapSize, bitmap.bytes = d.bitmapDat ∧
    ASalvo f d.bloquesDat d.metadatos bitmap

/-- The files are safe with the bitmap in memory and with the one on the disk. -/
structure EnPie {f : Formato} (s : Proceso f) : Prop where
  enMemoria : ASalvo f s.disco.bloquesDat s.disco.metadatos s.bitmap
  enDisco : Guardado f s.disco

section Safety

variable {f : Formato} {bloquesDat : List UInt8} {ms ms' : List Metadatos}
  {bitmap bitmap' : Bitmap f.bitmapSize} {c : Creacion}

/-- More blocks are occupied. -/
theorem ASalvo.mono
    (hs : ASalvo f bloquesDat ms bitmap)
    (h : ∀ b, bitmap.ocupado b = true → bitmap'.ocupado b = true) :
    ASalvo f bloquesDat ms bitmap' := by
  constructor
  · intro a ha b hb
    exact h b (hs.ocupados a ha b hb)
  · intro a ha b hb
    obtain ⟨hrango, hlibre⟩ := mem_libres.mp hb
    refine hs.debajo a ha b (mem_libres.mpr ⟨hrango, ?_⟩)
    by_contra hocupado
    rw [h b (Bool.eq_true_of_not_eq_false hocupado)] at hlibre
    cases hlibre

/-- Fewer files, or others that are safe. -/
theorem ASalvo.of_mem
    (hs : ASalvo f bloquesDat ms bitmap)
    (h : ∀ a ∈ ms', a ∈ ms ∨ ASalvo f bloquesDat [a] bitmap) :
    ASalvo f bloquesDat ms' bitmap := by
  constructor
  · intro a ha
    rcases h a ha with hmem | hnuevo
    · exact hs.ocupados a hmem
    · exact hnuevo.ocupados a List.mem_cons_self
  · intro a ha
    rcases h a ha with hmem | hnuevo
    · exact hs.debajo a hmem
    · exact hnuevo.debajo a List.mem_cons_self

/-- Writes that start after the pointers. -/
theorem ASalvo.escribe
    {ws : List Write}
    (hs : ASalvo f bloquesDat ms bitmap)
    (h : ∀ w ∈ ws, ∀ i, w.Covers i → ∀ a ∈ ms, a.fin f ≤ i) :
    ASalvo f (writeAll bloquesDat ws) ms bitmap := by
  refine ⟨?_, hs.debajo⟩
  intro a ha b hb
  have hbloques : bloquesDe f (writeAll bloquesDat ws) a = bloquesDe f bloquesDat a := by
    refine bloquesDe_congr_of_fin ?_
    intro i _ hi
    refine byteAt_writeAll_of_not_covers ?_
    intro w hw hcovers
    have hle := h w hw i hcovers a ha
    omega
  rw [hbloques] at hb
  exact hs.ocupados a ha b hb

/-- A `bloques.dat` of an unexpected size is made again: the pointers are zeros then, and
block 0 is occupied when there is a file. -/
theorem ASalvo.rehacer
    (hs : ASalvo f bloquesDat ms bitmap) (size : Nat) :
    ASalvo f (crearArchivoSiNoExiste (some bloquesDat) size 0) ms bitmap := by
  refine ⟨?_, hs.debajo⟩
  intro a ha b hb
  simp only [crearArchivoSiNoExiste] at hb
  split at hb
  · have hindice : bitmap.ocupado a.indexBlock = true := hs.ocupados a ha _ List.mem_cons_self
    rcases List.mem_cons.mp hb with rfl | hb
    · exact hindice
    · obtain ⟨j, hj, rfl⟩ := List.mem_map.mp hb
      rw [wordAt_replicate_zero]
      by_contra hlibre
      have hrango := lt_of_ocupado hindice
      have hmem : 0 ∈ bitmap.libres :=
        mem_libres.mpr ⟨by omega, Bool.eq_false_of_not_eq_true hlibre⟩
      have hfin := hs.debajo a ha 0 hmem
      have hpos : j < f.bloquesPara a.size := List.mem_range.mp hj
      unfold Metadatos.fin at hfin
      omega
  · exact hs.ocupados a ha b hb

/-- The writes of a call start after the pointers of the files. -/
theorem ASalvo.escrituras_arriba
    (hs : ASalvo f bloquesDat ms bitmap)
    (hexiste : ¬ c.existe = true) (hsize : c.size ≠ 0) (hok : SinDesborde f bitmap c) :
    ∀ w ∈ (asignar f bitmap c.size c.datos).escrituras, ∀ i, w.Covers i →
      ∀ a ∈ ms, a.fin f ≤ i := by
  intro w hw i hcovers a ha
  by_cases hlibres : f.bloquesNecesarios c.size < bitmap.libres.length
  · obtain ⟨indice, ds, htomados⟩ := exists_tomados _ hlibres
    obtain ⟨hindice, hdatos, _⟩ := (hok.resolve_left hexiste).resolve_left hsize _ _ htomados
    rw [(asignar_eq c.datos htomados).2.2.2] at hw
    rcases List.mem_append.mp hw with hw | hw
    · obtain ⟨j, b, hb, rfl⟩ := mem_escriturasDatos hw
      obtain ⟨hle, hlt⟩ := (covers_datos c.length_datos).mp hcovers
      have hlow : b * f.blockSize < 2 ^ 32 := (hdatos j b hb).resolve_left (by omega)
      have hfin := hs.debajo a ha b
        (htomados.mem_libres (List.mem_cons_of_mem _ (List.mem_of_getElem? hb)))
      rw [desplazamiento_of_lt hlow] at hle
      omega
    · rw [List.mem_singleton.mp hw] at hcovers
      have hle := (covers_punteros.mp hcovers).1
      have hfin := hs.debajo a ha indice (htomados.mem_libres List.mem_cons_self)
      rw [desplazamiento_of_lt hindice] at hle
      omega
  · -- nothing is written
    obtain ⟨hle, hlt⟩ := hcovers
    rw [(asignar_sinBloques c.datos (by omega)).2 w hw, List.length_nil] at hlt
    omega

/-- The new file is safe with the bitmap that the call saves. -/
theorem aSalvo_nuevo
    {indice : Nat}
    (hexiste : ¬ c.existe = true) (hsize : c.size ≠ 0) (hok : SinDesborde f bitmap c)
    (habre : c.abre = true)
    (hindice : (asignar f bitmap c.size c.datos).indice = some indice) :
    ASalvo f (writeAll bloquesDat (asignar f bitmap c.size c.datos).escrituras)
      [metadatosDe f c indice] (asignar f bitmap c.size c.datos).bitmap := by
  obtain ⟨ds, htomados⟩ := exists_tomados_of_indice hindice
  obtain ⟨hlow, _, hfin⟩ := (hok.resolve_left hexiste).resolve_left hsize _ _ htomados
  obtain ⟨hn, hfin⟩ := hfin habre
  obtain ⟨_, hocupado, _, hescrituras⟩ := asignar_eq c.datos htomados
  have hlen : ds.length = f.bloquesPara c.size := htomados.1.trans hn
  have hbloques : bloquesDe f
      (writeAll bloquesDat (asignar f bitmap c.size c.datos).escrituras)
      (metadatosDe f c indice) = indice :: ds := by
    simp only [bloquesDe, metadatosDe, hescrituras, ← hlen]
    rw [punterosEn_nuevos hlow]
    intro b hb
    have hlt := libre_lt (htomados.mem_libres (List.mem_cons_of_mem _ hb))
    omega
  constructor
  · intro a ha b hb
    rw [List.mem_singleton.mp ha, hbloques] at hb
    rw [hocupado]
    simp [hb]
  · intro a ha b hb
    rw [List.mem_singleton.mp ha]
    rw [libres_asignar c.datos htomados] at hb
    have hle := hfin b hb
    simp only [Metadatos.fin, metadatosDe, ← hlen]
    exact hle

/-- With blocks of a word at least, and all blocks below `2^32`, only the size of the file
matters. -/
theorem sinDesborde_of_formato
    (hpalabra : 4 ≤ f.blockSize) (hformato : 8 * f.bitmapSize * f.blockSize ≤ 2 ^ 32)
    (hsize : c.size.toNat + f.blockSize ≤ 2 ^ 32) :
    SinDesborde f bitmap c := by
  refine Or.inr (Or.inr ?_)
  intro indice ds htomados
  have hpos := f.blockSize_pos
  have hlow : ∀ b ∈ indice :: ds, b * f.blockSize < 2 ^ 32 := by
    intro b hb
    have hrango := (mem_libres.mp (htomados.mem_libres hb)).1
    have hlt : b * f.blockSize < 8 * f.bitmapSize * f.blockSize :=
      Nat.mul_lt_mul_of_pos_right hrango hpos
    omega
  refine ⟨hlow indice List.mem_cons_self, ?_, fun _ => ⟨?_, ?_⟩⟩
  · intro j b hb
    exact Or.inr (hlow b (List.mem_cons_of_mem _ (List.mem_of_getElem? hb)))
  · unfold Formato.bloquesNecesarios Formato.bloquesPara
    rw [Nat.mod_eq_of_lt (by omega)]
  · intro b hb
    obtain ⟨_, resto, hlibres⟩ := htomados
    rw [hlibres, List.cons_append, List.drop_succ_cons, List.drop_left] at hb
    obtain ⟨antes, despues, rfl⟩ := List.append_of_mem hb
    have hle : indice + (ds ++ antes).length + 1 ≤ b :=
      add_length_le_of_libres (by rw [hlibres, List.append_assoc]; rfl)
    rw [List.length_append] at hle
    calc indice * f.blockSize + 4 * ds.length
        ≤ indice * f.blockSize + f.blockSize * ds.length :=
          Nat.add_le_add_left (Nat.mul_le_mul_right _ hpalabra) _
      _ = (indice + ds.length) * f.blockSize := by ring
      _ ≤ b * f.blockSize := Nat.mul_le_mul_right _ (by omega)

/-- A call frees no block that was occupied. -/
theorem ocupado_bitmapTras
    {b : Nat}
    (h : bitmap.ocupado b = true) :
    (bitmapTras f bitmap c).ocupado b = true := by
  unfold bitmapTras
  by_cases hexiste : c.existe = true
  · rwa [if_pos hexiste]
  by_cases hsize : c.size = 0
  · rwa [if_neg hexiste, if_pos hsize]
  rw [if_neg hexiste, if_neg hsize]
  have hasignar : (asignar f bitmap c.size c.datos).bitmap.ocupado b = true :=
    ocupado_asignar c.datos h
  cases hindice : (asignar f bitmap c.size c.datos).indice with
  | none =>
      simpa only [hindice] using hasignar
  | some indice =>
      obtain ⟨ds, htomados⟩ := exists_tomados_of_indice hindice
      have hlibre := (mem_libres.mp (htomados.mem_libres List.mem_cons_self)).2
      have hne : b ≠ indice := by
        rintro rfl
        rw [h] at hlibre
        cases hlibre
      simp only [hindice]
      split_ifs
      · exact hasignar
      · rw [ocupado_desmarcar, hasignar]
        simp [hne]

end Safety

/-! ## Starting again -/

section Restarts

variable {f : Formato} {d : Disco} {s s' : Proceso f}

@[simp] theorem length_crearArchivoSiNoExiste
    {α : Type} (archivo : Option (List α)) (size : Nat) (fillByte : α) :
    (crearArchivoSiNoExiste archivo size fillByte).length = size := by
  unfold crearArchivoSiNoExiste
  split
  · split_ifs with hlen
    · exact List.length_replicate
    · exact not_not.mp hlen
  · exact List.length_replicate

/-- `cargar_bitmap` finds the size that it expects. -/
theorem inicializarFs_eq
    (bitmapDat : Option (List (BitVec 8))) (bloquesDat : Option (List UInt8))
    (archivos : List Archivo) :
    inicializarFs f bitmapDat bloquesDat archivos = some
      { bitmap := ⟨crearArchivoSiNoExiste bitmapDat f.bitmapSize 0#8,
          length_crearArchivoSiNoExiste _ _ _⟩
        disco := {
          bitmapDat := crearArchivoSiNoExiste bitmapDat f.bitmapSize 0#8
          bloquesDat :=
            crearArchivoSiNoExiste bloquesDat (f.blockCount * f.blockSize % 2 ^ 32) 0
          archivos := archivos } } := by
  unfold inicializarFs cargarBitmap
  simp

/-- A call ends, and so does starting again. -/
theorem pasoFs_isSome
    (f : Formato) (s : Proceso f) (e : EventoFs) :
    (pasoFs f s e).isSome = true := by
  cases e with
  | crea c => rfl
  | cae c hechas =>
      simp only [pasoFs, reiniciar, inicializarFs_eq]
      rfl

/-- The process starts with the bitmap that was saved. -/
theorem Guardado.reinicia
    (hd : Guardado f d) (h : reiniciar f d = some s) :
    EnPie s := by
  obtain ⟨bitmap, hbytes, hsalvo⟩ := hd
  rw [reiniciar, inicializarFs_eq] at h
  cases h
  have hdat : crearArchivoSiNoExiste (some d.bitmapDat) f.bitmapSize 0#8 = bitmap.bytes := by
    simp [crearArchivoSiNoExiste, ← hbytes, bitmap.length_bytes]
  have hbitmap : (⟨crearArchivoSiNoExiste (some d.bitmapDat) f.bitmapSize 0#8,
      length_crearArchivoSiNoExiste _ _ _⟩ : Bitmap f.bitmapSize) = bitmap := by
    cases bitmap
    simpa using hdat
  have hrehecho := hsalvo.rehacer (f.blockCount * f.blockSize % 2 ^ 32)
  refine ⟨?_, bitmap, hdat.symm, hrehecho⟩
  rw [hbitmap]
  exact hrehecho

/-- The process starts with an empty bitmap after it stopped while `bitmap.dat` was
truncated. -/
theorem bitmap_of_truncado
    (hd : d.bitmapDat = []) (h : reiniciar f d = some s) :
    s.bitmap = Bitmap.vacio f.bitmapSize ∧
      s.disco.bitmapDat = (Bitmap.vacio f.bitmapSize).bytes ∧
      s.disco.metadatos = d.metadatos := by
  have hdat : crearArchivoSiNoExiste (some d.bitmapDat) f.bitmapSize 0#8 =
      List.replicate f.bitmapSize 0#8 := by
    rw [hd]
    cases f.bitmapSize <;> simp [crearArchivoSiNoExiste]
  rw [reiniciar, inicializarFs_eq] at h
  cases h
  refine ⟨?_, hdat, rfl⟩
  simp only [hdat, Bitmap.vacio]

end Restarts

/-! ## Where the process stops -/

section Stops

variable {f : Formato} {s s' : Proceso f} {c : Creacion} {e : EventoFs}

theorem operaciones_none
    (hexiste : ¬ c.existe = true) (hsize : c.size ≠ 0)
    (hindice : (asignar f s.bitmap c.size c.datos).indice = none) :
    operaciones f s.bitmap c =
      (asignar f s.bitmap c.size c.datos).escrituras.map .escribirBloques := by
  unfold operaciones
  rw [if_neg hexiste, if_neg hsize]
  simp only [hindice, List.append_nil]

theorem operaciones_some
    {indice : Nat}
    (hexiste : ¬ c.existe = true) (hsize : c.size ≠ 0)
    (hindice : (asignar f s.bitmap c.size c.datos).indice = some indice) :
    operaciones f s.bitmap c =
      (asignar f s.bitmap c.size c.datos).escrituras.map .escribirBloques ++
        (operacionesBitmap (asignar f s.bitmap c.size c.datos).bitmap ++
          if c.abre then operacionesMetadatos (metadatosDe f c indice) else []) := by
  unfold operaciones
  rw [if_neg hexiste, if_neg hsize]
  simp only [hindice]

/-- The process stops while it writes blocks. -/
theorem EnPie.guardado_escrituras
    (hs : EnPie s) (hexiste : ¬ c.existe = true) (hsize : c.size ≠ 0)
    (hok : SinDesborde f s.bitmap c) (k : Nat) :
    Guardado f (aplicarTodas s.disco
      (((asignar f s.bitmap c.size c.datos).escrituras.take k).map .escribirBloques)) := by
  obtain ⟨bitmap, hbytes, hsalvo⟩ := hs.enDisco
  rw [aplicarTodas_escrituras]
  refine ⟨bitmap, hbytes, hsalvo.escribe ?_⟩
  intro w hw
  exact hs.enMemoria.escrituras_arriba hexiste hsize hok w (List.mem_of_mem_take hw)

/-- The disk when `asignar_bloques` has ended well. -/
def Disco.conLlamada (d : Disco) (r : Llamada f) : Disco :=
  { d with bitmapDat := r.bitmap.bytes, bloquesDat := writeAll d.bloquesDat r.escrituras }

theorem aplicarTodas_conLlamada
    (d : Disco) (r : Llamada f) (ops : List Operacion) :
    aplicarTodas d (r.escrituras.map .escribirBloques ++ (operacionesBitmap r.bitmap ++ ops)) =
      aplicarTodas (d.conLlamada r) ops := by
  rw [aplicarTodas_append, aplicarTodas_escrituras, aplicarTodas_append]
  rfl

/-- The process stops after the bitmap was saved, with some of the operations on the
metadata file. -/
theorem EnPie.salvo_guardado
    {indice : Nat} {d : Disco}
    (hs : EnPie s) (hexiste : ¬ c.existe = true) (hsize : c.size ≠ 0)
    (hok : SinDesborde f s.bitmap c)
    (hindice : (asignar f s.bitmap c.size c.datos).indice = some indice) (j : Nat)
    (hd : d = aplicarTodas (s.disco.conLlamada (asignar f s.bitmap c.size c.datos))
      ((if c.abre then operacionesMetadatos (metadatosDe f c indice) else []).take j)) :
    (asignar f s.bitmap c.size c.datos).bitmap.bytes = d.bitmapDat ∧
      ASalvo f d.bloquesDat d.metadatos (asignar f s.bitmap c.size c.datos).bitmap := by
  have hviejos : ASalvo f
      (writeAll s.disco.bloquesDat (asignar f s.bitmap c.size c.datos).escrituras)
      s.disco.metadatos (asignar f s.bitmap c.size c.datos).bitmap := by
    refine (hs.enMemoria.escribe (hs.enMemoria.escrituras_arriba hexiste hsize hok)).mono ?_
    intro b hb
    exact ocupado_asignar c.datos hb
  by_cases habre : c.abre = true
  · rw [if_pos habre] at hd
    obtain ⟨hdat, hbloques, hmetadatos⟩ := metadatos_of_take
      (s.disco.conLlamada (asignar f s.bitmap c.size c.datos)) (metadatosDe f c indice) j
    rw [← hd] at hdat hbloques hmetadatos
    refine ⟨hdat.symm, ?_⟩
    rw [hbloques]
    refine hviejos.of_mem ?_
    intro a ha
    rcases hmetadatos a ha with hviejo | rfl
    · exact Or.inl hviejo
    · exact Or.inr (aSalvo_nuevo hexiste hsize hok habre hindice)
  · rw [if_neg habre, List.take_nil] at hd
    rw [hd]
    exact ⟨rfl, hviejos⟩

/-- A call that the process completes. -/
theorem EnPie.crea
    (hs : EnPie s) (hok : SinDesborde f s.bitmap c) (h : pasoFs f s (.crea c) = some s') :
    EnPie s' := by
  cases h
  by_cases hexiste : c.existe = true
  · rw [bitmapTras, operaciones, if_pos hexiste, if_pos hexiste]
    exact hs
  by_cases hsize : c.size = 0
  · rw [bitmapTras, operaciones, if_neg hexiste, if_neg hexiste, if_pos hsize, if_pos hsize]
    exact hs
  have hmemoria := hs.enMemoria.escribe (hs.enMemoria.escrituras_arriba hexiste hsize hok)
  cases hindice : (asignar f s.bitmap c.size c.datos).indice with
  | none =>
      have hguardado := hs.guardado_escrituras hexiste hsize hok
        (asignar f s.bitmap c.size c.datos).escrituras.length
      rw [List.take_length] at hguardado
      rw [operaciones_none hexiste hsize hindice]
      refine ⟨?_, hguardado⟩
      rw [aplicarTodas_escrituras]
      exact hmemoria.mono (fun b hb => ocupado_bitmapTras hb)
  | some indice =>
      obtain ⟨hdat, hsalvo⟩ := hs.salvo_guardado hexiste hsize hok hindice 3 rfl
      have htodas : (if c.abre then operacionesMetadatos (metadatosDe f c indice) else []).take 3 =
          if c.abre then operacionesMetadatos (metadatosDe f c indice) else [] := by
        rw [List.take_of_length_le]
        split_ifs <;> simp [operacionesMetadatos]
      rw [htodas] at hdat hsalvo
      rw [operaciones_some hexiste hsize hindice, aplicarTodas_conLlamada]
      refine ⟨?_, _, hdat, hsalvo⟩
      by_cases habre : c.abre = true
      · have hbitmap : bitmapTras f s.bitmap c = (asignar f s.bitmap c.size c.datos).bitmap := by
          simp [bitmapTras, hexiste, hsize, hindice, habre]
        rw [hbitmap]
        exact hsalvo
      · rw [if_neg habre]
        exact hmemoria.mono (fun b hb => ocupado_bitmapTras hb)

theorem getLast?_ne_truncar
    {ops : List Operacion}
    (h : ∀ o ∈ ops, o ≠ .truncarBitmap) :
    ops.getLast? ≠ some .truncarBitmap := by
  intro hlast
  exact h _ (List.mem_of_getLast? hlast) rfl

theorem ne_truncar_of_mem
    {m : Metadatos} {abre : Bool} {o : Operacion}
    (ho : o ∈ if abre then operacionesMetadatos m else []) :
    o ≠ .truncarBitmap := by
  rintro rfl
  split_ifs at ho <;> simp [operacionesMetadatos] at ho

/-- Wherever the process stops, the files are safe with the bitmap on the disk, unless
that is truncated. -/
theorem EnPie.detenido
    (hs : EnPie s) (hok : SinDesborde f s.bitmap c) (hechas : Nat) {ops : List Operacion}
    (hops : ops = (operaciones f s.bitmap c).take hechas) :
    (ops.getLast? = some .truncarBitmap ∧ (aplicarTodas s.disco ops).bitmapDat = [] ∧
      (aplicarTodas s.disco ops).metadatos = s.disco.metadatos) ∨
    (ops.getLast? ≠ some .truncarBitmap ∧ Guardado f (aplicarTodas s.disco ops)) := by
  by_cases hexiste : c.existe = true
  · rw [operaciones, if_pos hexiste, List.take_nil] at hops
    rw [hops]
    exact Or.inr ⟨by simp, hs.enDisco⟩
  by_cases hsize : c.size = 0
  · rw [operaciones, if_neg hexiste, if_pos hsize, List.take_nil] at hops
    rw [hops]
    exact Or.inr ⟨by simp, hs.enDisco⟩
  -- the writes to `bloques.dat` come first
  have hescrituras : ∀ k, ops = ((asignar f s.bitmap c.size c.datos).escrituras.take k).map
      .escribirBloques →
      ops.getLast? ≠ some .truncarBitmap ∧ Guardado f (aplicarTodas s.disco ops) := by
    intro k hk
    rw [hk]
    refine ⟨getLast?_ne_truncar ?_, hs.guardado_escrituras hexiste hsize hok k⟩
    intro o ho
    obtain ⟨w, _, rfl⟩ := List.mem_map.mp ho
    simp
  cases hindice : (asignar f s.bitmap c.size c.datos).indice with
  | none =>
      rw [operaciones_none hexiste hsize hindice, ← List.map_take] at hops
      exact Or.inr (hescrituras hechas hops)
  | some indice =>
      rw [operaciones_some hexiste hsize hindice, take_escrituras] at hops
      rcases hk : hechas - (asignar f s.bitmap c.size c.datos).escrituras.length with _ | _ | j
      · rw [hk, List.take_zero, List.append_nil] at hops
        exact Or.inr (hescrituras hechas hops)
      · -- the process stops after `fopen` of `persistir_bitmap`
        left
        rw [hk] at hops
        rw [hops, aplicarTodas_append, aplicarTodas_escrituras]
        exact ⟨by simp [operacionesBitmap], rfl, rfl⟩
      · have htodas : (asignar f s.bitmap c.size c.datos).escrituras.take hechas =
            (asignar f s.bitmap c.size c.datos).escrituras :=
          List.take_of_length_le (by omega)
        have hresto : (operacionesBitmap (asignar f s.bitmap c.size c.datos).bitmap ++
            if c.abre then operacionesMetadatos (metadatosDe f c indice) else []).take (j + 2) =
            operacionesBitmap (asignar f s.bitmap c.size c.datos).bitmap ++
              (if c.abre then operacionesMetadatos (metadatosDe f c indice) else []).take j := rfl
        rw [hk, htodas, hresto] at hops
        right
        constructor
        · have hultima : ops.getLast? =
              (Operacion.escribirBitmap (asignar f s.bitmap c.size c.datos).bitmap.bytes ::
                (if c.abre then operacionesMetadatos (metadatosDe f c indice) else []).take
                  j).getLast? := by
            rw [hops, List.getLast?_append, operacionesBitmap, List.cons_append,
              List.singleton_append, List.getLast?_cons_cons, List.getLast?_cons]
            rfl
          rw [hultima]
          refine getLast?_ne_truncar ?_
          intro o ho
          rcases List.mem_cons.mp ho with rfl | ho
          · simp
          · exact ne_truncar_of_mem (List.mem_of_mem_take ho)
        · rw [hops, aplicarTodas_conLlamada]
          exact ⟨_, hs.salvo_guardado hexiste hsize hok hindice j rfl⟩

/-- A step in which the process does not stop while `bitmap.dat` is truncated. -/
theorem EnPie.paso
    (hs : EnPie s) (hok : SinDesborde f s.bitmap e.creacion) (hentero : BitmapEntero s e)
    (h : pasoFs f s e = some s') :
    EnPie s' := by
  cases e with
  | crea c => exact hs.crea hok h
  | cae c hechas =>
      rcases hs.detenido hok hechas rfl with ⟨htruncar, hdat, hmetadatos⟩ | ⟨_, hguardado⟩
      · obtain ⟨hbitmap, hdat', hmetadatos'⟩ := bitmap_of_truncado hdat h
        rw [hmetadatos, hentero htruncar] at hmetadatos'
        have hvacio : ∀ bitmap : Bitmap f.bitmapSize,
            ASalvo f s'.disco.bloquesDat s'.disco.metadatos bitmap := by
          intro bitmap
          rw [hmetadatos']
          exact ⟨by simp, by simp⟩
        exact ⟨hvacio _, _, hdat'.symm, hvacio _⟩
      · exact hguardado.reinicia h

/-- After a stop while `bitmap.dat` is truncated the files have lost their blocks. -/
theorem not_reservados_of_truncado
    (hs : EnPie s) (hok : SinDesborde f s.bitmap e.creacion) (hno : ¬ BitmapEntero s e)
    (h : pasoFs f s e = some s') :
    ¬ Reservados s' := by
  cases e with
  | crea c => exact absurd trivial hno
  | cae c hechas =>
      obtain ⟨htruncar, hmetadatos⟩ := Classical.not_imp.mp hno
      rcases hs.detenido hok hechas rfl with ⟨_, hdat, hsame⟩ | ⟨hne, _⟩
      · obtain ⟨hbitmap, _, hmetadatos'⟩ := bitmap_of_truncado hdat h
        obtain ⟨a, ha⟩ := List.exists_mem_of_ne_nil _ hmetadatos
        intro hreservados
        have hindice := hreservados a (by rw [hmetadatos', hsame]; exact ha) a.indexBlock
          List.mem_cons_self
        rw [hbitmap, ocupado_vacio] at hindice
        cases hindice
      · exact absurd htruncar hne

instance decidableBitmapEntero : Decidable (BitmapEntero s e) :=
  match e with
  | .crea _ => inferInstanceAs (Decidable True)
  | .cae c hechas => inferInstanceAs (Decidable (
      ((operaciones f s.bitmap c).take hechas).getLast? = some .truncarBitmap →
        s.disco.metadatos = []))

end Stops

/-- Where no offset overflows, the runs in which the blocks of every file stay occupied
are those in which the process does not stop between the truncation of `bitmap.dat` and
its write when there is a file. -/
theorem restart_keeps_blocks_iff
    {f : Formato} {es : List EventoFs} {s : Proceso f} :
    CorridaFs f (fun a e => SinDesborde f a.bitmap e.creacion ∧ BitmapEntero a e) es s ↔
      CorridaFs f (fun a e => SinDesborde f a.bitmap e.creacion ∧ Reservados a) es s ∧
        Reservados s := by
  have hiff : ∀ inicio, inicializarFs f none none [] = some inicio →
      (Run (fun a e b => pasoFs f a e = some b)
          (fun a e => SinDesborde f a.bitmap e.creacion ∧ BitmapEntero a e) inicio es s ↔
        Run (fun a e b => pasoFs f a e = some b)
          (fun a e => SinDesborde f a.bitmap e.creacion ∧ Reservados a) inicio es s ∧
          Reservados s) := by
    intro inicio hinicio
    have hstart : EnPie inicio := by
      rw [inicializarFs_eq] at hinicio
      cases hinicio
      have hvacio : ∀ (bitmap : Bitmap f.bitmapSize) (bloquesDat : List UInt8),
          ASalvo f bloquesDat [] bitmap := fun _ _ => ⟨by simp, by simp⟩
      exact ⟨hvacio _ _, ⟨_, length_crearArchivoSiNoExiste _ _ _⟩, rfl, hvacio _ _⟩
    rw [Run.and_guard, Run.and_guard]
    refine Run.guarded_iff_of_strong hstart (fun h => h.enMemoria.ocupados) ?_ ?_
    · rintro a b e ha ⟨hok, hstep⟩ hentero
      exact ha.paso hok hentero hstep
    · rintro a b e ha ⟨hok, hstep⟩ hno
      exact not_reservados_of_truncado ha hok hno hstep
  constructor
  · rintro ⟨inicio, hinicio, hrun⟩
    obtain ⟨hstay, hreservados⟩ := (hiff inicio hinicio).mp hrun
    exact ⟨⟨inicio, hinicio, hstay⟩, hreservados⟩
  · rintro ⟨⟨inicio, hinicio, hstay⟩, hreservados⟩
    exact ⟨inicio, hinicio, (hiff inicio hinicio).mpr ⟨hstay, hreservados⟩⟩

theorem sinDesborde_unDump
    (bitmap : Bitmap formatoDeOcho.bitmapSize) (nombre : List Char) :
    SinDesborde formatoDeOcho bitmap (unDump nombre) :=
  sinDesborde_of_formato (by decide) (by decide) (by simp only [unDump]; decide)

/-- A stop with a truncated `bitmap.dat` and no files, and one while a block is written. -/
theorem restart_keeps_blocks_unDump :
    ∃ (es : List EventoFs) (s : Proceso formatoDeOcho),
      CorridaFs formatoDeOcho
        (fun a e => SinDesborde formatoDeOcho a.bitmap e.creacion ∧ BitmapEntero a e) es s ∧
      s.disco.metadatos.length = 2 ∧ Reservados s := by
  have hrun : Run (fun a e b => pasoFs formatoDeOcho a e = some b)
      (fun a e => BitmapEntero a e ∧ (e.creacion = unDump ['d'] ∨ e.creacion = unDump ['e']))
      ((inicializarFs formatoDeOcho none none []).get (by decide))
      [.cae (unDump ['d']) 3, .crea (unDump ['d']), .cae (unDump ['e']) 1, .crea (unDump ['e'])]
      _ :=
    run_of_isSome (pasoFs formatoDeOcho) id (by decide) (by decide)
  have hguardado : ∃ (es : List EventoFs) (s : Proceso formatoDeOcho),
      CorridaFs formatoDeOcho
        (fun a e => SinDesborde formatoDeOcho a.bitmap e.creacion ∧ BitmapEntero a e) es s ∧
      s.disco.metadatos.length = 2 := by
    refine ⟨_, _, ⟨_, (Option.some_get _).symm, hrun.mono ?_⟩, by decide⟩
    rintro a e ⟨hentero, hcreacion⟩
    refine ⟨?_, hentero⟩
    rcases hcreacion with hcreacion | hcreacion
    · rw [hcreacion]
      exact sinDesborde_unDump _ _
    · rw [hcreacion]
      exact sinDesborde_unDump _ _
  obtain ⟨es, s, hcorrida, hlen⟩ := hguardado
  exact ⟨es, s, hcorrida, hlen, (restart_keeps_blocks_iff.mp hcorrida).2⟩

/-- When the process stops after truncating `bitmap.dat` for a second file, the block of
the first one is free when it starts again. -/
theorem restart_forgets_blocks :
    ¬ ∀ (f : Formato) (es : List EventoFs) (s : Proceso f),
        CorridaFs f anyLabel es s → Reservados s := by
  intro hclaim
  have hrun : Run (fun a e b => pasoFs formatoDeOcho a e = some b) anyLabel
      ((inicializarFs formatoDeOcho none none []).get (by decide))
      [.crea (unDump ['d']), .cae (unDump ['e']) 3] _ :=
    run_of_isSome (pasoFs formatoDeOcho) id (by decide) (by decide)
  have hreservados := hclaim formatoDeOcho _ _ ⟨_, (Option.some_get _).symm, hrun⟩
  revert hreservados
  decide

end FileSystem
end SinIdeas
