import Mathlib.Logic.Function.Basic
import SinIdeas.Lib.FirstMatch
import SinIdeas.Lib.Observations
import SinIdeas.FileSystem.Restart
import SinIdeas.FileSystem.RealBlocks

/-!
# The file system as a store

What the file system is for: contents by path and a number of free blocks. A call that
finds room stores its content under its path; a stop in the middle of a call leaves the
store as it was, or without the file it was replacing, or with the new one, by how far
the disk got. `almacenDe` reads the store off the blocks on the disk, through the index
block of each metadata file, and along every run it is the abstract one.
-/

namespace SinIdeas
namespace FileSystem

open Lib

/-- Files by path, and the numbers of free blocks in memory and in `bitmap.dat`. -/
@[ext]
structure Almacen where
  archivos : List Char → Option (List UInt8)
  libres : Nat
  guardados : Nat

/-- The empty store. -/
def Almacen.vacio (f : Formato) : Almacen where
  archivos := fun _ => none
  libres := 8 * f.bitmapSize
  guardados := 8 * f.bitmapSize

/-- The call takes blocks: the name is free, there is content, and there is room for it
and for an index block. -/
def Almacen.TieneLugar (f : Formato) (c : Creacion) (a : Almacen) : Prop :=
  c.existe = false ∧ c.size ≠ 0 ∧ f.bloquesPara c.size < a.libres

instance decidableTieneLugar (f : Formato) (c : Creacion) (a : Almacen) :
    Decidable (a.TieneLugar f c) :=
  inferInstanceAs (Decidable (_ ∧ _ ∧ _))

/-- The blocks of the file are taken and the bitmap is saved. -/
def Almacen.ocupar (f : Formato) (c : Creacion) (a : Almacen) : Almacen :=
  { a with
    libres := a.libres - (f.bloquesPara c.size + 1)
    guardados := a.libres - (f.bloquesPara c.size + 1) }

/-- The file with the path is `contenido`. -/
def Almacen.poner (path : List Char) (contenido : Option (List UInt8)) (a : Almacen) : Almacen :=
  { a with archivos := Function.update a.archivos path contenido }

/-- The process starts with the bitmap that was saved. -/
def Almacen.reiniciar (a : Almacen) : Almacen := { a with libres := a.guardados }

/-- The bitmap is lost. -/
def Almacen.perderBitmap (f : Formato) (a : Almacen) : Almacen :=
  { a with libres := 8 * f.bitmapSize, guardados := 8 * f.bitmapSize }

/-- A call whose operations on the disk were made up to `k` after the writes to the
blocks: `bitmap.dat` truncated, written, the metadata file opened, its size, its index
block. -/
def Almacen.detener (f : Formato) (c : Creacion) (a : Almacen) : Nat → Almacen
  | 0 => a.reiniciar
  | 1 => a.perderBitmap f
  | 2 => a.ocupar f c
  | 3 | 4 =>
      if c.abre then (a.ocupar f c).poner (metadatosPath f c.nombre) none else a.ocupar f c
  | _ =>
      if c.abre then (a.ocupar f c).poner (metadatosPath f c.nombre) (some c.datos)
      else a.ocupar f c

/-- A step of the store. -/
def Almacen.paso (f : Formato) (a : Almacen) : EventoFs → Almacen
  | .crea c =>
      if a.TieneLugar f c then
        if c.abre then (a.ocupar f c).poner (metadatosPath f c.nombre) (some c.datos)
        else { a.ocupar f c with libres := a.libres - f.bloquesPara c.size }
      else a
  | .cae c hechas =>
      if a.TieneLugar f c then a.detener f c (hechas - (f.bloquesPara c.size + 1))
      else a.reiniciar

/-- The file with the path, read through its index block. -/
def Disco.leer (f : Formato) (d : Disco) (path : List Char) : Option (List UInt8) :=
  (d.metadatos.find? (fun a => a.path == path)).map
    (fun a => leerArchivo f d.bloquesDat a.size a.indexBlock)

/-- The free blocks in `bitmap.dat`. -/
def Disco.libres (f : Formato) (d : Disco) : Nat :=
  ((cargarBitmap f.bitmapSize d.bitmapDat).map (fun b => b.libres.length)).getD 0

/-- The store that a process and its disk hold. -/
def almacenDe (f : Formato) (s : Proceso f) : Almacen where
  archivos := s.disco.leer f
  libres := s.bitmap.libres.length
  guardados := s.disco.libres f

/-- Every block of `bitmap.dat` exists and its bytes can be counted in 32 bits. -/
structure Formato.Exacto (f : Formato) : Prop where
  completos : f.blockCount % 8 = 0
  bytes : f.blockCount * f.blockSize < 2 ^ 32

/-- Contents of the size come back: they are whole words, they fill their blocks or fit in
one, and their pointers fit in the index block. -/
def TamanioLegible (f : Formato) (size : UInt32) : Prop :=
  4 ∣ size.toNat ∧ (4 ∣ f.blockSize ∨ size.toNat ≤ f.blockSize) ∧
    4 * f.bloquesPara size ≤ f.blockSize ∧ size.toNat + f.blockSize ≤ 2 ^ 32

/-- The call is refused, or its content comes back. -/
def SeLee (f : Formato) (c : Creacion) : Prop :=
  c.existe = true ∨ c.size = 0 ∨ TamanioLegible f c.size

section Bitmaps

variable {n : Nat} {bitmap : Bitmap n} {b : Nat}

/-- Freeing an occupied block makes one more free block. -/
theorem length_libres_desmarcar
    (h : bitmap.ocupado b = true) :
    (marcarBloque b false bitmap).libres.length = bitmap.libres.length + 1 := by
  have hnotmem : b ∉ bitmap.libres := by
    intro hb
    rw [(mem_libres.mp hb).2] at h
    cases h
  have hperm : (marcarBloque b false bitmap).libres.Perm (b :: bitmap.libres) := by
    refine (List.perm_ext_iff_of_nodup (nodup_libres _)
      (List.nodup_cons.mpr ⟨hnotmem, nodup_libres _⟩)).mpr ?_
    intro c
    rw [List.mem_cons, mem_libres, mem_libres, ocupado_desmarcar]
    by_cases hc : c = b
    · have hlt := lt_of_ocupado h
      simp [hc, hlt]
    · simp [hc]
  exact hperm.length_eq

theorem cargarBitmap_bytes (bitmap : Bitmap n) : cargarBitmap n bitmap.bytes = some bitmap := by
  rw [cargarBitmap, dif_pos bitmap.length_bytes]

theorem Disco.libres_of_bytes
    {f : Formato} {d : Disco} (bitmap : Bitmap f.bitmapSize)
    (h : bitmap.bytes = d.bitmapDat) :
    d.libres f = bitmap.libres.length := by
  rw [Disco.libres, ← h, cargarBitmap_bytes]
  rfl

end Bitmaps

section Contents

variable {f : Formato} {bloques bloques' : List UInt8} {a : Metadatos}

/-- A file reads the same where its blocks have the same bytes. -/
theorem leerArchivo_congr
    (hfit : 4 * f.bloquesPara a.size ≤ f.blockSize)
    (h : ∀ i, f.bloqueDe i ∈ bloquesDe f bloques a → byteAt bloques' i = byteAt bloques i) :
    leerArchivo f bloques' a.size a.indexBlock = leerArchivo f bloques a.size a.indexBlock := by
  have hbloques : bloquesDe f bloques' a = bloquesDe f bloques a :=
    bloquesDe_congr hfit (fun i hi => h i (hi ▸ List.mem_cons_self))
  have hpunteros : punterosEn f bloques' a.indexBlock (f.bloquesPara a.size) =
      punterosEn f bloques a.indexBlock (f.bloquesPara a.size) :=
    (List.cons.inj hbloques).2
  have hdatos : ∀ p ∈ punterosEn f bloques a.indexBlock (f.bloquesPara a.size),
      readAt bloques' (p * f.blockSize) f.blockSize = readAt bloques (p * f.blockSize) f.blockSize := by
    intro p hp
    refine readAt_congr ?_
    intro i hi
    refine h _ ?_
    have hblock : f.bloqueDe (p * f.blockSize + i) = p := by
      have hmul : (p + 1) * f.blockSize = p * f.blockSize + f.blockSize := Nat.succ_mul _ _
      exact bloqueDe_eq_iff.mpr ⟨by omega, by omega⟩
    rw [hblock]
    exact List.mem_cons_of_mem _ hp
  rw [leerArchivo, leerArchivo, hpunteros, List.flatMap_congr hdatos]

/-- Writes that end inside the file keep its length. -/
theorem length_writeAll
    {l : List UInt8} {ws : List Write}
    (h : ∀ w ∈ ws, w.offset + w.bytes.length ≤ l.length) :
    (writeAll l ws).length = l.length := by
  induction ws generalizing l with
  | nil =>
      rfl
  | cons w ws ih =>
      have hfirst : (writeAt l w).length = l.length := by
        rw [writeAt, List.length_map, List.length_range]
        exact max_eq_left (h w List.mem_cons_self)
      have hrest := ih (l := writeAt l w) (fun v hv => by
        rw [hfirst]
        exact h v (List.mem_cons_of_mem _ hv))
      exact hrest.trans hfirst

end Contents

/-! ## The metadata -/

section Metadata

variable {f : Formato} {d : Disco} {m : Metadatos} {path : List Char}

theorem metadatos_filter
    (archivos : List Archivo) (path : List Char) :
    (archivos.filter (fun a => !(a.path == path))).filterMap Archivo.metadatos =
      (archivos.filterMap Archivo.metadatos).filter (fun a => !(a.path == path)) := by
  induction archivos with
  | nil =>
      rfl
  | cons a archivos ih =>
      have hpath : ∀ m, a.metadatos = some m → m.path = a.path := by
        intro m hm
        simp only [Archivo.metadatos, Option.bind_eq_bind, Option.bind_eq_some_iff,
          Option.some.injEq] at hm
        obtain ⟨_, _, _, _, rfl⟩ := hm
        rfl
      cases hm : a.metadatos with
      | none =>
          rw [List.filterMap_cons_none hm, ← ih]
          by_cases hp : a.path = path
          · rw [List.filter_cons_of_neg (by simp [hp])]
          · rw [List.filter_cons_of_pos (by simp [hp]), List.filterMap_cons_none hm]
      | some m =>
          rw [List.filterMap_cons_some hm]
          by_cases hp : a.path = path
          · rw [List.filter_cons_of_neg (by simp [hp]),
              List.filter_cons_of_neg (by simp [hpath m hm, hp]), ih]
          · rw [List.filter_cons_of_pos (by simp [hp]),
              List.filter_cons_of_pos (by simp [hpath m hm, hp]), List.filterMap_cons_some hm, ih]

/-- The metadata on the disk when the first operations on a metadata file were made: the
file is open from the first one on, and complete after the third. -/
theorem metadatos_take
    (d : Disco) (m : Metadatos) (k : Nat) :
    (aplicarTodas d ((operacionesMetadatos m).take k)).metadatos =
      if k = 0 then d.metadatos
      else if k ≤ 2 then d.metadatos.filter (fun a => !(a.path == m.path))
      else d.metadatos.filter (fun a => !(a.path == m.path)) ++ [m] := by
  match k with
  | 0 =>
      rfl
  | 1 =>
      simp [operacionesMetadatos, aplicarTodas, Operacion.aplicar, Disco.metadatos,
        metadatos_filter, Archivo.metadatos]
  | 2 =>
      simp [operacionesMetadatos, aplicarTodas, Operacion.aplicar, Disco.metadatos,
        anotar_abierto, metadatos_filter, Archivo.metadatos]
  | k + 3 =>
      have htodas : (operacionesMetadatos m).take (k + 3) = operacionesMetadatos m := by
        rw [List.take_of_length_le]
        simp [operacionesMetadatos]
      rw [htodas, aplicarTodas_metadatos, if_neg (by omega), if_neg (by omega)]
      simp [Disco.metadatos, metadatos_filter, Archivo.metadatos]

/-- What is read when a file is taken away. -/
theorem leer_filter
    {d' : Disco}
    (hbloques : d'.bloquesDat = d.bloquesDat)
    (hmetadatos : d'.metadatos = d.metadatos.filter (fun a => !(a.path == path))) :
    d'.leer f = Function.update (d.leer f) path none := by
  funext q
  rw [Disco.leer, hmetadatos, hbloques, find?_filter_key_ne]
  by_cases hq : q = path
  · rw [if_pos hq, hq, Function.update_self]
    rfl
  · rw [if_neg hq, Function.update_of_ne hq]
    rfl

/-- What is read when a file is put at the end in place of the one with its path. -/
theorem leer_filter_append
    {d' : Disco}
    (hbloques : d'.bloquesDat = d.bloquesDat)
    (hmetadatos : d'.metadatos = d.metadatos.filter (fun a => !(a.path == m.path)) ++ [m]) :
    d'.leer f = Function.update (d.leer f) m.path
      (some (leerArchivo f d.bloquesDat m.size m.indexBlock)) := by
  funext q
  rw [Disco.leer, hmetadatos, hbloques, List.find?_append, find?_filter_key_ne]
  by_cases hq : q = m.path
  · rw [if_pos hq, hq, Function.update_self]
    simp
  · rw [if_neg hq, Function.update_of_ne hq, List.find?_cons_of_neg (by simpa using Ne.symm hq),
      List.find?_nil, Option.or_none]
    rfl

end Metadata

/-! ## A call -/

section Calls

variable {f : Formato} {bitmap : Bitmap f.bitmapSize} {c : Creacion} {indice : Nat} {ds : List Nat}

theorem Formato.Exacto.bits (hf : f.Exacto) : 8 * f.bitmapSize = f.blockCount := by
  have hwhole := hf.completos
  unfold Formato.bitmapSize
  omega

/-- What a call that takes blocks needs for its content to come back. -/
theorem SeLee.resto
    (h : SeLee f c)
    (hexiste : c.existe = false) (hsize : c.size ≠ 0) :
    TamanioLegible f c.size :=
  (h.resolve_left (by simp [hexiste])).resolve_left hsize

/-- Nothing overflows. -/
theorem SeLee.sinDesborde
    (h : SeLee f c) (hf : f.Exacto) (bitmap : Bitmap f.bitmapSize) :
    SinDesborde f bitmap c := by
  rcases h with hexiste | hsize | ⟨_, _, hfit, hsum⟩
  · exact Or.inl hexiste
  · exact Or.inr (Or.inl hsize)
  · by_cases hsize : c.size = 0
    · exact Or.inr (Or.inl hsize)
    · have hpos := bloquesPara_pos (f := f) hsize
      have hbytes := hf.bytes
      refine sinDesborde_of_formato (by omega) ?_ hsum
      rw [hf.bits]
      omega

/-- A call without room for its file makes no operation. -/
theorem operaciones_sinLugar
    {a : Almacen}
    (h : SeLee f c) (ha : a.libres = bitmap.libres.length) (hno : ¬ a.TieneLugar f c) :
    operaciones f bitmap c = [] ∧ bitmapTras f bitmap c = bitmap := by
  by_cases hexiste : c.existe = true
  · rw [operaciones, bitmapTras, if_pos hexiste, if_pos hexiste]
    exact ⟨rfl, rfl⟩
  by_cases hsize : c.size = 0
  · rw [operaciones, bitmapTras, if_neg hexiste, if_neg hexiste, if_pos hsize, if_pos hsize]
    exact ⟨rfl, rfl⟩
  have hfalse := Bool.eq_false_of_not_eq_true hexiste
  obtain ⟨_, _, hfit, hsum⟩ := h.resto hfalse hsize
  have hlibres : bitmap.libres.length ≤ f.bloquesPara c.size := by
    rw [← ha]
    by_contra hlt
    exact hno ⟨hfalse, hsize, not_le.mp hlt⟩
  have hblock := f.blockSize_lt
  have hn := bloquesNecesarios_of_le hsum
  have hcount : contarBloquesLibres bitmap < (f.bloquesNecesarios c.size + 1) % 2 ^ 32 := by
    rw [contarBloquesLibres_eq, hn, Nat.mod_eq_of_lt (by omega)]
    omega
  have hasignar := asignar_rechazada c.datos (Or.inl hcount)
  rw [operaciones, bitmapTras, if_neg hexiste, if_neg hexiste, if_neg hsize, if_neg hsize,
    hasignar]
  exact ⟨rfl, rfl⟩

/-- A call with room takes the first free blocks. -/
theorem exists_tomados_of_lugar
    {a : Almacen}
    (h : SeLee f c) (ha : a.libres = bitmap.libres.length) (hlugar : a.TieneLugar f c) :
    ∃ indice ds, Tomados f bitmap c.size indice ds ∧ ds.length = f.bloquesPara c.size := by
  obtain ⟨hexiste, hsize, hlibres⟩ := hlugar
  obtain ⟨_, _, _, hsum⟩ := h.resto hexiste hsize
  have hn := bloquesNecesarios_of_le hsum
  obtain ⟨indice, ds, htomados⟩ := exists_tomados c.size
    (show f.bloquesNecesarios c.size < bitmap.libres.length by omega)
  exact ⟨indice, ds, htomados, htomados.1.trans hn⟩

theorem length_escrituras
    (htomados : Tomados f bitmap c.size indice ds) :
    (asignar f bitmap c.size c.datos).escrituras.length = ds.length + 1 := by
  rw [(asignar_eq c.datos htomados).2.2.2]
  simp [escriturasDatos]

/-- The blocks that a call takes start below `2^32`. -/
theorem Tomados.bajos
    (hf : f.Exacto) (htomados : Tomados f bitmap c.size indice ds) :
    ∀ b ∈ indice :: ds, b < f.blockCount ∧ b * f.blockSize < 2 ^ 32 := by
  intro b hb
  have hlt := (FileSystem.mem_libres.mp (htomados.mem_libres hb)).1
  rw [hf.bits] at hlt
  have hle := add_blockSize_le hlt
  have hbytes := hf.bytes
  exact ⟨hlt, by omega⟩

/-- The writes of a call end inside `bloques.dat`. -/
theorem Tomados.dentro
    (hf : f.Exacto) (htomados : Tomados f bitmap c.size indice ds)
    (hfit : 4 * ds.length ≤ f.blockSize)
    {w : Write}
    (hw : w ∈ (asignar f bitmap c.size c.datos).escrituras) :
    w.offset + w.bytes.length ≤ f.blockCount * f.blockSize := by
  have hblock : ∀ b ∈ indice :: ds, ∀ n, n ≤ f.blockSize →
      f.desplazamiento b + n ≤ f.blockCount * f.blockSize := by
    intro b hb n hn
    obtain ⟨hlt, hlow⟩ := htomados.bajos hf b hb
    have hle := add_blockSize_le hlt
    rw [desplazamiento_of_lt hlow]
    omega
  rw [(asignar_eq c.datos htomados).2.2.2] at hw
  rcases List.mem_append.mp hw with hw | hw
  · obtain ⟨j, b, hb, rfl⟩ := mem_escriturasDatos hw
    rw [length_porcion c.length_datos]
    exact hblock b (List.mem_cons_of_mem _ (List.mem_of_getElem? hb)) _ (bytesDe_le f c.size j)
  · rw [List.mem_singleton.mp hw, escrituraPunteros, length_punteros]
    exact hblock indice List.mem_cons_self _ hfit

/-- The first writes of a call leave a file whose blocks are occupied as it was. -/
theorem Tomados.conserva
    (hf : f.Exacto) (htomados : Tomados f bitmap c.size indice ds)
    (hfit : 4 * ds.length ≤ f.blockSize)
    {bloques : List UInt8} {a : Metadatos}
    (ha : 4 * f.bloquesPara a.size ≤ f.blockSize)
    (hocupados : ∀ b ∈ bloquesDe f bloques a, bitmap.ocupado b = true) (k : Nat) :
    leerArchivo f (writeAll bloques ((asignar f bitmap c.size c.datos).escrituras.take k))
      a.size a.indexBlock = leerArchivo f bloques a.size a.indexBlock := by
  have hcabe := cabe_of_lt htomados hfit (fun b hb => (htomados.bajos hf b hb).2)
  have hpropios := hcabe.soloSusBloques c.length_datos htomados
  refine leerArchivo_congr ha ?_
  intro i hi
  refine byteAt_writeAll_of_not_covers ?_
  intro w hw hcovers
  have hnuevo := (hpropios.nuevos w (List.mem_of_mem_take hw) i hcovers).2
  rw [hocupados _ hi] at hnuevo
  cases hnuevo

/-- All the writes of a call leave its content in the blocks it takes. -/
theorem Tomados.guarda
    (h : SeLee f c) (hf : f.Exacto) (hexiste : c.existe = false) (hsize : c.size ≠ 0)
    (htomados : Tomados f bitmap c.size indice ds) (bloques : List UInt8) :
    leerArchivo f (writeAll bloques (asignar f bitmap c.size c.datos).escrituras) c.size indice =
      c.datos := by
  obtain ⟨hwords, hblock, hfit, hsum⟩ := h.resto hexiste hsize
  have hn := bloquesNecesarios_of_le hsum
  have htake := htomados.take
  rw [hn] at htake
  have hlibres : f.bloquesPara c.size < bitmap.libres.length := by
    have hlen := congrArg List.length htake
    rw [List.length_take, List.length_cons, htomados.1, hn] at hlen
    omega
  have hguarda : GuardaDatos f bitmap c.size := by
    refine guardaDatos hfit hwords hblock hsum ?_ hlibres
    intro b hb
    rw [htake] at hb
    exact (htomados.bajos hf b hb).2
  have hindice := (asignar_eq c.datos htomados).1
  have hleido := hguarda { bitmap, bitmapDat := bitmap, bloques, archivos := [] } c.datos indice rfl
    c.length_datos hindice
  exact hleido

end Calls

/-! ## A step -/

/-- The files are safe, `bloques.dat` has its size, and the pointers of every file fit in
its index block. -/
structure Durable {f : Formato} (s : Proceso f) : Prop where
  enPie : EnPie s
  largo : s.disco.bloquesDat.length = f.blockCount * f.blockSize
  caben : ∀ a ∈ s.disco.metadatos, 4 * f.bloquesPara a.size ≤ f.blockSize

section Steps

variable {f : Formato} {s s' : Proceso f} {c : Creacion} {indice : Nat} {ds : List Nat} {d : Disco}

theorem bloquesDat_entero
    (hf : f.Exacto) (hlargo : d.bloquesDat.length = f.blockCount * f.blockSize) :
    crearArchivoSiNoExiste (some d.bloquesDat) (f.blockCount * f.blockSize % 2 ^ 32) 0 =
      d.bloquesDat := by
  rw [Nat.mod_eq_of_lt hf.bytes, crearArchivoSiNoExiste]
  exact if_neg (not_not.mpr hlargo)

theorem reiniciar_guardado
    {bitmap : Bitmap f.bitmapSize}
    (hf : f.Exacto) (hbytes : bitmap.bytes = d.bitmapDat)
    (hlargo : d.bloquesDat.length = f.blockCount * f.blockSize) :
    reiniciar f d = some { bitmap, disco := d } := by
  have hdat : crearArchivoSiNoExiste (some d.bitmapDat) f.bitmapSize 0#8 = bitmap.bytes := by
    simp [crearArchivoSiNoExiste, ← hbytes, bitmap.length_bytes]
  have hbloques := bloquesDat_entero hf hlargo
  rw [reiniciar, inicializarFs_eq, hbloques]
  simp only [hdat]
  simp only [hbytes]
  cases bitmap
  cases hbytes
  rfl

theorem reiniciar_truncado
    (hf : f.Exacto) (hd : d.bitmapDat = [])
    (hlargo : d.bloquesDat.length = f.blockCount * f.blockSize) :
    reiniciar f d = some
      { bitmap := Bitmap.vacio f.bitmapSize
        disco := { d with bitmapDat := (Bitmap.vacio f.bitmapSize).bytes } } := by
  have hdat : crearArchivoSiNoExiste (some d.bitmapDat) f.bitmapSize 0#8 =
      (Bitmap.vacio f.bitmapSize).bytes := by
    rw [hd]
    cases f.bitmapSize <;> simp [crearArchivoSiNoExiste, Bitmap.vacio]
  have hbloques := bloquesDat_entero hf hlargo
  rw [reiniciar, inicializarFs_eq, hbloques]
  simp only [hdat]

/-- The first writes of a call leave `bloques.dat` with its size and its files. -/
theorem Durable.escribe
    (hs : Durable s) (hf : f.Exacto) (htomados : Tomados f s.bitmap c.size indice ds)
    (hfit : 4 * ds.length ≤ f.blockSize) (k : Nat)
    (hbloques : d.bloquesDat = writeAll s.disco.bloquesDat
      ((asignar f s.bitmap c.size c.datos).escrituras.take k))
    (hmetadatos : d.metadatos = s.disco.metadatos) :
    d.bloquesDat.length = f.blockCount * f.blockSize ∧ d.leer f = s.disco.leer f := by
  constructor
  · rw [hbloques, length_writeAll, hs.largo]
    intro w hw
    rw [hs.largo]
    exact htomados.dentro hf hfit (List.mem_of_mem_take hw)
  · funext path
    rw [Disco.leer, Disco.leer, hmetadatos, hbloques]
    refine Option.map_congr ?_
    intro a ha
    have hmem := List.mem_of_find?_eq_some ha
    exact htomados.conserva hf hfit (hs.caben a hmem) (hs.enPie.enMemoria.ocupados a hmem) k

/-- The operations of a call with room: the writes to the blocks, then the bitmap, then the
metadata. -/
theorem aplicarTodas_operaciones
    (hexiste : c.existe = false) (hsize : c.size ≠ 0)
    (htomados : Tomados f s.bitmap c.size indice ds) (hechas : Nat) :
    aplicarTodas s.disco ((operaciones f s.bitmap c).take hechas) =
      match hechas - (ds.length + 1) with
      | 0 => { s.disco with
          bloquesDat := writeAll s.disco.bloquesDat
            ((asignar f s.bitmap c.size c.datos).escrituras.take hechas) }
      | 1 => { s.disco with
          bitmapDat := []
          bloquesDat := writeAll s.disco.bloquesDat
            (asignar f s.bitmap c.size c.datos).escrituras }
      | j + 2 => aplicarTodas (s.disco.conLlamada (asignar f s.bitmap c.size c.datos))
          ((if c.abre then operacionesMetadatos (metadatosDe f c indice) else []).take j) := by
  have hlen := length_escrituras htomados
  rw [operaciones_some (by simp [hexiste]) hsize (asignar_eq c.datos htomados).1, take_escrituras,
    hlen, aplicarTodas_append, aplicarTodas_escrituras]
  have htodas : hechas - (ds.length + 1) ≠ 0 →
      (asignar f s.bitmap c.size c.datos).escrituras.take hechas =
        (asignar f s.bitmap c.size c.datos).escrituras := by
    intro hk
    exact List.take_of_length_le (by omega)
  rcases hk : hechas - (ds.length + 1) with _ | _ | j
  · rfl
  · rw [htodas (by omega)]
    rfl
  · rw [htodas (by omega)]
    rfl

/-- The disk when the blocks and the bitmap of a call are written, with some of the
operations on its metadata file. -/
theorem Durable.guardado
    (hs : Durable s) (hf : f.Exacto) (hok : SeLee f c)
    (hexiste : c.existe = false) (hsize : c.size ≠ 0)
    (htomados : Tomados f s.bitmap c.size indice ds) (hlen : ds.length = f.bloquesPara c.size)
    (j : Nat)
    (hd : d = aplicarTodas (s.disco.conLlamada (asignar f s.bitmap c.size c.datos))
      ((if c.abre then operacionesMetadatos (metadatosDe f c indice) else []).take j)) :
    (asignar f s.bitmap c.size c.datos).bitmap.bytes = d.bitmapDat ∧
    d.bloquesDat.length = f.blockCount * f.blockSize ∧
    (∀ a ∈ d.metadatos, 4 * f.bloquesPara a.size ≤ f.blockSize) ∧
    d.leer f =
      if c.abre = false ∨ j = 0 then s.disco.leer f
      else Function.update (s.disco.leer f) (metadatosPath f c.nombre)
        (if j ≤ 2 then none else some c.datos) := by
  have hfit := (hok.resto hexiste hsize).2.2.1
  obtain ⟨hlargo, hleer⟩ := hs.escribe (d := s.disco.conLlamada (asignar f s.bitmap c.size c.datos))
    hf htomados (hlen ▸ hfit) (asignar f s.bitmap c.size c.datos).escrituras.length
    (by rw [List.take_length]; rfl) rfl
  cases habre : c.abre with
  | false =>
      simp only [habre, Bool.false_eq_true, if_false, List.take_nil] at hd
      rw [hd, if_pos (Or.inl rfl)]
      exact ⟨rfl, hlargo, hs.caben, hleer⟩
  | true =>
      simp only [habre, if_true] at hd
      obtain ⟨hdat, hbloques, _⟩ := metadatos_of_take
        (s.disco.conLlamada (asignar f s.bitmap c.size c.datos)) (metadatosDe f c indice) j
      have hmetadatos := metadatos_take
        (s.disco.conLlamada (asignar f s.bitmap c.size c.datos)) (metadatosDe f c indice) j
      rw [← hd] at hdat hbloques hmetadatos
      rw [← hleer]
      refine ⟨hdat.symm, hbloques ▸ hlargo, ?_, ?_⟩
      · intro a ha
        rw [hmetadatos] at ha
        split_ifs at ha
        · exact hs.caben a ha
        · exact hs.caben a (List.mem_filter.mp ha).1
        · rcases List.mem_append.mp ha with ha | ha
          · exact hs.caben a (List.mem_filter.mp ha).1
          · rw [List.mem_singleton.mp ha]
            exact hfit
      · split_ifs at hmetadatos with hzero hdos
        · rw [if_pos (Or.inr hzero)]
          funext path
          rw [Disco.leer, Disco.leer, hmetadatos, hbloques]
        · rw [if_neg (by simp [hzero]), if_pos hdos]
          exact leer_filter hbloques hmetadatos
        · rw [if_neg (by simp [hzero]), if_neg hdos, leer_filter_append hbloques hmetadatos]
          have hnuevo : leerArchivo f
              (s.disco.conLlamada (asignar f s.bitmap c.size c.datos)).bloquesDat
              (metadatosDe f c indice).size (metadatosDe f c indice).indexBlock = c.datos :=
            htomados.guarda hok hf hexiste hsize s.disco.bloquesDat
          rw [hnuevo]
          rfl

/-- A call that the process completes. -/
theorem Durable.crea
    (hs : Durable s) (hf : f.Exacto) (hok : SeLee f c)
    (h : pasoFs f s (.crea c) = some s') :
    Durable s' ∧ almacenDe f s' = (almacenDe f s).paso f (.crea c) := by
  have henPie := hs.enPie.crea (hok.sinDesborde hf s.bitmap) h
  obtain ⟨guardado, hbytes, _⟩ := hs.enPie.enDisco
  simp only [pasoFs, Option.some.injEq] at h
  by_cases hlugar : (almacenDe f s).TieneLugar f c
  · obtain ⟨indice, ds, htomados, hlen⟩ := exists_tomados_of_lugar hok rfl hlugar
    have hexiste := hlugar.1
    have hsize := hlugar.2.1
    have hindice := (asignar_eq c.datos htomados).1
    have htodas : (if c.abre then operacionesMetadatos (metadatosDe f c indice) else []).take 3 =
        if c.abre then operacionesMetadatos (metadatosDe f c indice) else [] := by
      rw [List.take_of_length_le]
      split_ifs <;> simp [operacionesMetadatos]
    have hdisco : s'.disco = aplicarTodas
        (s.disco.conLlamada (asignar f s.bitmap c.size c.datos))
        ((if c.abre then operacionesMetadatos (metadatosDe f c indice) else []).take 3) := by
      rw [htodas, ← h, operaciones_some (by simp [hexiste]) hsize hindice, aplicarTodas_conLlamada]
    obtain ⟨hdat, hlargo, hcaben, hleer⟩ := hs.guardado hf hok hexiste hsize htomados hlen 3 hdisco
    have hlibres : (asignar f s.bitmap c.size c.datos).bitmap.libres.length =
        s.bitmap.libres.length - (f.bloquesPara c.size + 1) := by
      rw [libres_asignar c.datos htomados, List.length_drop, hlen]
    have hbitmap : s'.bitmap = if c.abre then (asignar f s.bitmap c.size c.datos).bitmap
        else marcarBloque indice false (asignar f s.bitmap c.size c.datos).bitmap := by
      rw [← h]
      simp [bitmapTras, hexiste, hsize, hindice]
    refine ⟨⟨henPie, hlargo, hcaben⟩, ?_⟩
    have hguardados : s'.disco.libres f = s.bitmap.libres.length - (f.bloquesPara c.size + 1) :=
      (Disco.libres_of_bytes _ hdat).trans hlibres
    rw [Almacen.paso, if_pos hlugar]
    cases habre : c.abre with
    | true =>
        rw [if_neg (by simp [habre])] at hleer
        simp only [habre, if_true] at hbitmap
        refine Almacen.ext hleer ?_ hguardados
        rw [almacenDe, hbitmap]
        exact hlibres
    | false =>
        rw [if_pos (Or.inl habre)] at hleer
        simp only [habre, Bool.false_eq_true, if_false] at hbitmap
        refine Almacen.ext hleer ?_ hguardados
        have hocupado : (asignar f s.bitmap c.size c.datos).bitmap.ocupado indice = true := by
          rw [(asignar_eq c.datos htomados).2.1]
          simp
        have hhay := hlugar.2.2
        simp only [almacenDe] at hhay ⊢
        rw [hbitmap, length_libres_desmarcar hocupado, hlibres]
        simp only [Bool.false_eq_true, if_false]
        omega
  · obtain ⟨hoperaciones, htras⟩ := operaciones_sinLugar hok rfl hlugar
    rw [hoperaciones, htras] at h
    subst h
    rw [Almacen.paso, if_neg hlugar]
    exact ⟨⟨henPie, hs.largo, hs.caben⟩, rfl⟩

/-- A call during which the process stops. -/
theorem Durable.cae
    (hs : Durable s) (hf : f.Exacto) (hok : SeLee f c) {hechas : Nat}
    (hentero : BitmapEntero s (.cae c hechas))
    (h : pasoFs f s (.cae c hechas) = some s') :
    Durable s' ∧ almacenDe f s' = (almacenDe f s).paso f (.cae c hechas) := by
  have henPie := hs.enPie.paso (e := .cae c hechas) (hok.sinDesborde hf s.bitmap) hentero h
  obtain ⟨guardado, hbytes, _⟩ := hs.enPie.enDisco
  simp only [pasoFs] at h
  by_cases hlugar : (almacenDe f s).TieneLugar f c
  · obtain ⟨indice, ds, htomados, hlen⟩ := exists_tomados_of_lugar hok rfl hlugar
    have hexiste := hlugar.1
    have hsize := hlugar.2.1
    have hfit := (hok.resto hexiste hsize).2.2.1
    rw [aplicarTodas_operaciones hexiste hsize htomados] at h
    rw [Almacen.paso, if_pos hlugar, ← hlen]
    rcases hk : hechas - (ds.length + 1) with _ | _ | j
    · -- the bitmap was not touched
      simp only [hk] at h
      obtain ⟨d, hd⟩ : ∃ d : Disco, d = { s.disco with
        bloquesDat := writeAll s.disco.bloquesDat
          ((asignar f s.bitmap c.size c.datos).escrituras.take hechas) } := ⟨_, rfl⟩
      rw [← hd] at h
      have hdat : guardado.bytes = d.bitmapDat := by rw [hbytes, hd]
      have hmetadatos : d.metadatos = s.disco.metadatos := by
        rw [hd]
        rfl
      obtain ⟨hlargo, hleer⟩ := hs.escribe hf htomados (hlen ▸ hfit) hechas (by rw [hd]) hmetadatos
      rw [reiniciar_guardado hf hdat hlargo] at h
      cases h
      have hguardados : d.libres f = s.disco.libres f := by rw [Disco.libres, Disco.libres, hd]
      refine ⟨⟨henPie, hlargo, hmetadatos ▸ hs.caben⟩, Almacen.ext hleer ?_ hguardados⟩
      exact (Disco.libres_of_bytes _ hdat).symm.trans hguardados
    · -- it was truncated
      simp only [hk] at h
      obtain ⟨d, hd⟩ : ∃ d : Disco, d = { s.disco with
        bitmapDat := []
        bloquesDat := writeAll s.disco.bloquesDat
          (asignar f s.bitmap c.size c.datos).escrituras } := ⟨_, rfl⟩
      rw [← hd] at h
      have hmetadatos : d.metadatos = s.disco.metadatos := by
        rw [hd]
        rfl
      obtain ⟨hlargo, hleer⟩ := hs.escribe hf htomados (hlen ▸ hfit)
        (asignar f s.bitmap c.size c.datos).escrituras.length
        (by rw [hd, List.take_length]) hmetadatos
      rw [reiniciar_truncado hf (by rw [hd]) hlargo] at h
      cases h
      have hvacio : (Bitmap.vacio f.bitmapSize).libres.length = 8 * f.bitmapSize := by simp
      refine ⟨⟨henPie, hlargo, hmetadatos ▸ hs.caben⟩, Almacen.ext hleer hvacio ?_⟩
      exact (Disco.libres_of_bytes (Bitmap.vacio f.bitmapSize) rfl).trans hvacio
    · -- it was saved
      simp only [hk] at h
      obtain ⟨d, hd⟩ : ∃ d : Disco, d =
        aplicarTodas (s.disco.conLlamada (asignar f s.bitmap c.size c.datos))
          ((if c.abre then operacionesMetadatos (metadatosDe f c indice) else []).take j) :=
        ⟨_, rfl⟩
      rw [← hd] at h
      obtain ⟨hdat, hlargo, hcaben, hleer⟩ := hs.guardado hf hok hexiste hsize htomados hlen j hd
      rw [reiniciar_guardado hf hdat hlargo] at h
      cases h
      have hlibres : (asignar f s.bitmap c.size c.datos).bitmap.libres.length =
          s.bitmap.libres.length - (f.bloquesPara c.size + 1) := by
        rw [libres_asignar c.datos htomados, List.length_drop, hlen]
      have hguardados := (Disco.libres_of_bytes _ hdat).trans hlibres
      refine ⟨⟨henPie, hlargo, hcaben⟩, ?_⟩
      cases habre : c.abre with
      | false =>
          rw [if_pos (Or.inl habre)] at hleer
          rcases j with _ | _ | _ | j
          all_goals
            simp only [Almacen.detener, habre, Bool.false_eq_true, if_false]
            exact Almacen.ext hleer hlibres hguardados
      | true =>
          rcases j with _ | _ | _ | j
          all_goals
            simp only [habre, Bool.true_eq_false, false_or, Nat.add_eq_zero_iff, one_ne_zero,
              and_false, if_true, if_false] at hleer
            simp only [Almacen.detener, habre, if_true]
            exact Almacen.ext hleer hlibres hguardados
  · obtain ⟨hoperaciones, _⟩ := operaciones_sinLugar hok rfl hlugar
    rw [hoperaciones, List.take_nil, aplicarTodas, List.foldl_nil,
      reiniciar_guardado hf hbytes hs.largo] at h
    cases h
    rw [Almacen.paso, if_neg hlugar]
    refine ⟨⟨henPie, hs.largo, hs.caben⟩, Almacen.ext rfl ?_ rfl⟩
    exact (Disco.libres_of_bytes _ hbytes).symm

theorem Durable.paso
    {e : EventoFs}
    (hs : Durable s) (hf : f.Exacto) (hok : SeLee f e.creacion) (hentero : BitmapEntero s e)
    (h : pasoFs f s e = some s') :
    Durable s' ∧ almacenDe f s' = (almacenDe f s).paso f e := by
  cases e with
  | crea c => exact hs.crea hf hok h
  | cae c hechas => exact hs.cae hf hok hentero h

/-- The process starts with an empty store. -/
theorem durable_inicio
    (hf : f.Exacto) (h : inicializarFs f none none [] = some s) :
    Durable s ∧ almacenDe f s = Almacen.vacio f := by
  rw [inicializarFs_eq] at h
  cases h
  have hvacio : ∀ (bitmap : Bitmap f.bitmapSize) (bloquesDat : List UInt8),
      ASalvo f bloquesDat [] bitmap := fun _ _ => ⟨by simp, by simp⟩
  have henPie : EnPie (f := f)
      { bitmap := ⟨crearArchivoSiNoExiste none f.bitmapSize 0#8, length_crearArchivoSiNoExiste _ _ _⟩
        disco := {
          bitmapDat := crearArchivoSiNoExiste none f.bitmapSize 0#8
          bloquesDat := crearArchivoSiNoExiste none (f.blockCount * f.blockSize % 2 ^ 32) 0
          archivos := [] } } :=
    ⟨hvacio _ _, ⟨_, length_crearArchivoSiNoExiste _ _ _⟩, rfl, hvacio _ _⟩
  refine ⟨⟨henPie, ?_, by simp [Disco.metadatos]⟩, ?_⟩
  · have hlargo := length_crearArchivoSiNoExiste none (f.blockCount * f.blockSize % 2 ^ 32)
      (0 : UInt8)
    exact hlargo.trans (Nat.mod_eq_of_lt hf.bytes)
  · have hlibres : (Bitmap.vacio f.bitmapSize).libres.length = 8 * f.bitmapSize := by simp
    refine Almacen.ext rfl hlibres ?_
    exact (Disco.libres_of_bytes (Bitmap.vacio f.bitmapSize) rfl).trans hlibres

end Steps

/-- The file system is a store. Along every history of calls and of stops at any point of
a call, except between the truncation of `bitmap.dat` and its write once there is a file,
what is read through the index blocks on the disk and the free blocks in memory and on
the disk are those of the abstract store after the same history. -/
theorem file_system_is_a_store
    {f : Formato} {es : List EventoFs} {s : Proceso f}
    (hf : f.Exacto)
    (hrun : CorridaFs f (fun a e => SeLee f e.creacion ∧ BitmapEntero a e) es s) :
    almacenDe f s = es.foldl (Almacen.paso f) (Almacen.vacio f) := by
  obtain ⟨inicio, hinicio, hrun⟩ := hrun
  obtain ⟨hdurable, hvacio⟩ := durable_inicio hf hinicio
  have hstore := (Run.projects (fun s a => Durable s ∧ almacenDe f s = a) hrun
    some (Almacen.paso f) ⟨hdurable, hvacio⟩ ?_).2
  · rwa [List.filterMap_some] at hstore
  · rintro a b e x ⟨ha, rfl⟩ ⟨hok, hentero⟩ hstep
    exact ha.paso hf hok hentero hstep

theorem exacto_formatoDeOcho : formatoDeOcho.Exacto := ⟨by decide, by decide⟩

theorem seLee_unDump (nombre : List Char) : SeLee formatoDeOcho (unDump nombre) := by
  refine Or.inr (Or.inr ⟨?_, Or.inl (by decide), ?_, ?_⟩)
  all_goals
    simp only [unDump]
    decide

/-- A file, a stop while the metadata of another one is open, and that one again. -/
theorem file_system_is_a_store_unDump :
    ∃ inicio s : Proceso formatoDeOcho, inicializarFs formatoDeOcho none none [] = some inicio ∧
      execute (pasoFs formatoDeOcho) inicio
        [.crea (unDump ['d']), .cae (unDump ['e']) 5, .crea (unDump ['e'])] = some s ∧
      almacenDe formatoDeOcho s =
        [.crea (unDump ['d']), .cae (unDump ['e']) 5, .crea (unDump ['e'])].foldl
          (Almacen.paso formatoDeOcho) (Almacen.vacio formatoDeOcho) := by
  have hrun : Run (fun a e b => pasoFs formatoDeOcho a e = some b)
      (fun a e => BitmapEntero a e ∧ (e.creacion = unDump ['d'] ∨ e.creacion = unDump ['e']))
      ((inicializarFs formatoDeOcho none none []).get (by decide))
      [.crea (unDump ['d']), .cae (unDump ['e']) 5, .crea (unDump ['e'])] _ :=
    run_of_isSome (pasoFs formatoDeOcho) id (by decide) (by decide)
  refine ⟨_, _, (Option.some_get _).symm, execute_of_run hrun,
    file_system_is_a_store exacto_formatoDeOcho ⟨_, (Option.some_get _).symm, hrun.mono ?_⟩⟩
  rintro a e ⟨hentero, hcreacion⟩
  refine ⟨?_, hentero⟩
  rcases hcreacion with hcreacion | hcreacion
  · rw [hcreacion]
    exact seLee_unDump _
  · rw [hcreacion]
    exact seLee_unDump _

end FileSystem
end SinIdeas
