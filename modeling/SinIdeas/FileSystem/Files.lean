import SinIdeas.Lib.Runs
import SinIdeas.FileSystem.RoundTrip

/-!
# Files

`crear_archivo` and the agreement of the bitmap, the index blocks and the metadata
files over every sequence of calls. The check for an existing file looks for the
name in the working directory and not among the metadata files, and a call that
cannot write its metadata gives back the index block only.
-/

namespace SinIdeas
namespace FileSystem

open Lib

/-- A call of `crear_archivo`: `existe` is what `existe_archivo` answers for the name in
the working directory, and `abre` whether the metadata file can be opened. -/
structure Creacion where
  nombre : List Char
  size : UInt32
  datos : List UInt8
  length_datos : datos.length = size.toNat
  existe : Bool
  abre : Bool
  deriving DecidableEq

/-- `metadatos_path`, a buffer of 256 characters. -/
def metadatosPath (f : Formato) (nombre : List Char) : List Char :=
  (f.mountDir ++ ['/', 'f', 'i', 'l', 'e', 's', '/'] ++ nombre).take 255

/-- `fopen` with mode `"w"` and the writes of the metadata: an older file with the path is
replaced. -/
def escribirMetadatos (m : Metadatos) (archivos : List Metadatos) : List Metadatos :=
  archivos.filter (fun a => !(a.path == m.path)) ++ [m]

/-- The metadata that a call writes. -/
def metadatosDe (f : Formato) (c : Creacion) (bloqueIndice : Nat) : Metadatos where
  path := metadatosPath f c.nombre
  size := c.size
  indexBlock := bloqueIndice

/-- `crear_archivo`; the flag tells whether it returns 0. -/
def crearArchivo (f : Formato) (c : Creacion) (fs : Fs f) : Fs f × Bool :=
  if c.existe then (fs, false)
  else if c.size = 0 then (fs, false)
  else
    let r := asignarBloques f fs c.size c.datos
    match r.2 with
    | none => (r.1, false)
    | some bloqueIndice =>
        if c.abre then
          ({ r.1 with
              archivos := escribirMetadatos (metadatosDe f c bloqueIndice) r.1.archivos },
            true)
        else
          ({ r.1 with bitmap := marcarBloque bloqueIndice false r.1.bitmap }, false)

/-- `inicializar_fs` on an empty directory. -/
def formatear (f : Formato) : Fs f where
  bitmap := Bitmap.vacio f.bitmapSize
  bitmapDat := Bitmap.vacio f.bitmapSize
  bloques := List.replicate (f.blockCount * f.blockSize % 2 ^ 32) 0
  archivos := []

/-- The index block of a file and the data blocks it points to. -/
def bloquesDe (f : Formato) (bloques : List UInt8) (a : Metadatos) : List Nat :=
  a.indexBlock :: punterosEn f bloques a.indexBlock (f.bloquesPara a.size)

/-- Where the pointers of a file end. -/
def Metadatos.fin (f : Formato) (a : Metadatos) : Nat :=
  a.indexBlock * f.blockSize + 4 * f.bloquesPara a.size

/-- The bitmap, in memory and saved, is exactly the blocks of the files, and no block is
there twice. -/
structure BitmapExacto {f : Formato} (fs : Fs f) : Prop where
  ocupados : ∀ b, fs.bitmap.ocupado b = true ↔ b ∈ fs.archivos.flatMap (bloquesDe f fs.bloques)
  unicos : (fs.archivos.flatMap (bloquesDe f fs.bloques)).Nodup
  guardado : fs.bitmapDat = fs.bitmap

/-- The call is refused before it takes a block, or its metadata file is new and can be
written, its number of blocks does not wrap around, and what it writes fits. -/
def SinDefecto (f : Formato) (fs : Fs f) (c : Creacion) : Prop :=
  c.existe = true ∨ c.size = 0 ∨
  contarBloquesLibres fs.bitmap < (f.bloquesNecesarios c.size + 1) % 2 ^ 32 ∨
  (c.abre = true ∧ (∀ a ∈ fs.archivos, a.path ≠ metadatosPath f c.nombre) ∧
    f.bloquesNecesarios c.size < contarBloquesLibres fs.bitmap ∧
    f.bloquesNecesarios c.size = f.bloquesPara c.size ∧ Cabe f fs.bitmap c.size)

/-- The invariant of the file system: the bitmap is exact and the pointers of every file
are in its index block. -/
structure Sano {f : Formato} (fs : Fs f) : Prop where
  exacto : BitmapExacto fs
  caben : ∀ a ∈ fs.archivos, 4 * f.bloquesPara a.size ≤ f.blockSize

section Calls

variable {f : Formato} {fs : Fs f} {c : Creacion}

/-- The blocks of a file are read where its pointers are. -/
theorem bloquesDe_congr_of_fin
    {bloques bloques' : List UInt8} {a : Metadatos}
    (h : ∀ i, a.indexBlock * f.blockSize ≤ i → i < a.fin f →
      byteAt bloques' i = byteAt bloques i) :
    bloquesDe f bloques' a = bloquesDe f bloques a := by
  unfold bloquesDe punterosEn
  congr 1
  refine List.map_congr_left ?_
  intro j hj
  have hj : j < f.bloquesPara a.size := List.mem_range.mp hj
  unfold wordAt
  rw [readAt_congr]
  intro k hk
  refine h _ (by omega) ?_
  unfold Metadatos.fin
  omega

/-- The blocks of a file are read in its index block. -/
theorem bloquesDe_congr
    {bloques bloques' : List UInt8} {a : Metadatos}
    (hfit : 4 * f.bloquesPara a.size ≤ f.blockSize)
    (h : ∀ i, f.bloqueDe i = a.indexBlock → byteAt bloques' i = byteAt bloques i) :
    bloquesDe f bloques' a = bloquesDe f bloques a := by
  have hmul : (a.indexBlock + 1) * f.blockSize = a.indexBlock * f.blockSize + f.blockSize :=
    Nat.succ_mul _ _
  refine bloquesDe_congr_of_fin ?_
  intro i hle hlt
  unfold Metadatos.fin at hlt
  exact h i (bloqueDe_eq_iff.mpr (by omega))

/-- The blocks of a file that was just created are those that were taken. -/
theorem punterosEn_nuevos
    {indice : Nat} {ds : List Nat} {bloques : List UInt8} {ws : List Write}
    (hindice : indice * f.blockSize < 2 ^ 32)
    (hds : ∀ b ∈ ds, b < 2 ^ 32) :
    punterosEn f (writeAll bloques (ws ++ [escrituraPunteros f indice ds])) indice ds.length =
      ds := by
  refine List.ext_getElem (by simp [punterosEn]) ?_
  intro j hj hj'
  simp only [punterosEn, List.getElem_map, List.getElem_range]
  exact wordAt_punteros hindice hds (List.getElem?_eq_getElem hj')

/-- A metadata file with a new path is added. -/
theorem escribirMetadatos_eq
    {m : Metadatos} {archivos : List Metadatos}
    (h : ∀ a ∈ archivos, a.path ≠ m.path) :
    escribirMetadatos m archivos = archivos ++ [m] := by
  unfold escribirMetadatos
  rw [List.filter_eq_self.mpr]
  intro a ha
  simpa using h a ha

/-- A call that takes no block leaves the file system as it is. -/
theorem crearArchivo_rechazada
    (h : c.existe = true ∨ c.size = 0 ∨
      contarBloquesLibres fs.bitmap < (f.bloquesNecesarios c.size + 1) % 2 ^ 32 ∨
      buscarBloqueLibre fs.bitmap = none) :
    (crearArchivo f c fs).1 = fs := by
  unfold crearArchivo
  by_cases hexiste : c.existe = true
  · rw [if_pos hexiste]
  · by_cases hsize : c.size = 0
    · rw [if_neg hexiste, if_pos hsize]
    · have hasignar :=
        asignar_rechazada c.datos ((h.resolve_left hexiste).resolve_left hsize)
      rw [if_neg hexiste, if_neg hsize]
      simp only [asignarBloques, hasignar, writeAll_nil]
      rfl

/-- What a call that takes blocks leaves, with and without its metadata. -/
theorem crearArchivo_tomados
    {indice : Nat} {ds : List Nat}
    (hexiste : ¬ c.existe = true)
    (hsize : c.size ≠ 0)
    (htomados : Tomados f fs.bitmap c.size indice ds) :
    crearArchivo f c fs =
      if c.abre then
        ({ bitmap := (asignar f fs.bitmap c.size c.datos).bitmap
           bitmapDat := (asignar f fs.bitmap c.size c.datos).bitmap
           bloques := writeAll fs.bloques (asignar f fs.bitmap c.size c.datos).escrituras
           archivos := escribirMetadatos (metadatosDe f c indice) fs.archivos }, true)
      else
        ({ bitmap := marcarBloque indice false (asignar f fs.bitmap c.size c.datos).bitmap
           bitmapDat := (asignar f fs.bitmap c.size c.datos).bitmap
           bloques := writeAll fs.bloques (asignar f fs.bitmap c.size c.datos).escrituras
           archivos := fs.archivos }, false) := by
  obtain ⟨hindice, _, _, _⟩ := asignar_eq c.datos htomados
  unfold crearArchivo
  rw [if_neg hexiste, if_neg hsize]
  simp only [asignarBloques, hindice, Option.isSome_some, if_true]

/-- What a call that takes blocks and writes its metadata leaves. -/
theorem crearArchivo_eq
    {indice : Nat} {ds : List Nat}
    (hexiste : ¬ c.existe = true)
    (hsize : c.size ≠ 0)
    (habre : c.abre = true)
    (hnombre : ∀ a ∈ fs.archivos, a.path ≠ metadatosPath f c.nombre)
    (htomados : Tomados f fs.bitmap c.size indice ds) :
    (crearArchivo f c fs).1 =
      { bitmap := (asignar f fs.bitmap c.size c.datos).bitmap
        bitmapDat := (asignar f fs.bitmap c.size c.datos).bitmap
        bloques := writeAll fs.bloques (asignar f fs.bitmap c.size c.datos).escrituras
        archivos := fs.archivos ++ [metadatosDe f c indice] } := by
  rw [crearArchivo_tomados hexiste hsize htomados, if_pos habre, escribirMetadatos_eq]
  exact hnombre

/-- A file of some bytes has a data block. -/
theorem bloquesPara_pos
    (hsize : c.size ≠ 0) :
    0 < f.bloquesPara c.size := by
  have hnat : c.size.toNat ≠ 0 := by
    intro hzero
    exact hsize (UInt32.toNat_inj.mp (by simpa using hzero))
  exact (ultimoBloque (Nat.pos_of_ne_zero hnat)).1

/-- A call without a defect keeps the file system sound. -/
theorem Sano.crear
    (hsano : Sano fs)
    (hok : SinDefecto f fs c) :
    Sano (crearArchivo f c fs).1 := by
  by_cases hrechazada : c.existe = true ∨ c.size = 0 ∨
      contarBloquesLibres fs.bitmap < (f.bloquesNecesarios c.size + 1) % 2 ^ 32
  · rw [crearArchivo_rechazada (hrechazada.imp_right (Or.imp_right Or.inl))]
    exact hsano
  obtain ⟨hexiste, hrest⟩ := not_or.mp hrechazada
  obtain ⟨hsize, hcount⟩ := not_or.mp hrest
  obtain ⟨habre, hnombre, hlibres, hn, hcabe⟩ :=
    ((hok.resolve_left hexiste).resolve_left hsize).resolve_left hcount
  rw [contarBloquesLibres_eq] at hlibres
  obtain ⟨indice, ds, htomados⟩ := exists_tomados _ hlibres
  have hlen : ds.length = f.bloquesPara c.size := htomados.1.trans hn
  have hne : ds ≠ [] := by
    intro hnil
    have hpos := bloquesPara_pos (f := f) hsize
    rw [hnil, List.length_nil] at hlen
    omega
  obtain ⟨hfit, hindice, _⟩ := hcabe indice ds htomados hne
  obtain ⟨_, hocupado, _, hescrituras⟩ := asignar_eq c.datos htomados
  have hown := hcabe.soloSusBloques c.length_datos htomados
  rw [crearArchivo_eq hexiste hsize habre hnombre htomados]
  -- the older files keep their blocks and the new one has those that were taken
  have hviejos : ∀ a ∈ fs.archivos, bloquesDe f
      (writeAll fs.bloques (asignar f fs.bitmap c.size c.datos).escrituras) a =
      bloquesDe f fs.bloques a := by
    intro a ha
    refine bloquesDe_congr (hsano.caben a ha) ?_
    intro i hi
    refine hown.anteriores fs.bloques i ?_
    rw [hi, hsano.exacto.ocupados]
    exact List.mem_flatMap.mpr ⟨a, ha, List.mem_cons_self⟩
  have hnuevo : bloquesDe f
      (writeAll fs.bloques (asignar f fs.bitmap c.size c.datos).escrituras)
      (metadatosDe f c indice) = indice :: ds := by
    simp only [bloquesDe, metadatosDe, hescrituras, ← hlen]
    rw [punterosEn_nuevos hindice]
    intro b hb
    have hlt := libre_lt (htomados.mem_libres (List.mem_cons_of_mem _ hb))
    omega
  have hbloques : (fs.archivos ++ [metadatosDe f c indice]).flatMap (bloquesDe f
      (writeAll fs.bloques (asignar f fs.bitmap c.size c.datos).escrituras)) =
      fs.archivos.flatMap (bloquesDe f fs.bloques) ++ indice :: ds := by
    rw [List.flatMap_append, List.flatMap_singleton, hnuevo, List.flatMap_congr hviejos]
  constructor
  · constructor
    · intro b
      simp only [hbloques, List.mem_append, ← hsano.exacto.ocupados b, hocupado b,
        Bool.or_eq_true, decide_eq_true_eq]
    · simp only [hbloques]
      exact htomados.nodup_append hsano.exacto.unicos (fun b => (hsano.exacto.ocupados b).mpr)
    · rfl
  · intro a ha
    rcases List.mem_append.mp ha with ha | ha
    · exact hsano.caben a ha
    · rw [List.mem_singleton.mp ha]
      simp only [metadatosDe]
      omega

/-- A formatted file system has no files and no occupied blocks. -/
theorem sano_formatear (f : Formato) : Sano (formatear f) := by
  refine ⟨⟨?_, List.nodup_nil, rfl⟩, ?_⟩
  · intro b
    simp [formatear]
  · intro a ha
    cases ha

end Calls

/-- In every run of calls without a defect the bitmap is exactly the blocks of the
files. -/
theorem bitmap_is_blocks_of_files
    {f : Formato} {cs : List Creacion} {fs : Fs f}
    (hrun : Run (fun a c b => (crearArchivo f c a).1 = b) (SinDefecto f) (formatear f) cs fs) :
    BitmapExacto fs := by
  refine (hrun.invariant (I := Sano) (sano_formatear f) ?_).exacto
  intro a b c hsano hok hstep
  rw [← hstep]
  exact hsano.crear hok

/-- A dump of one block. -/
def unDump (nombre : List Char) : Creacion where
  nombre := nombre
  size := 8
  datos := List.replicate 8 1
  length_datos := rfl
  existe := false
  abre := true

/-- A dump for which there are not enough blocks. -/
def dumpGrande : Creacion where
  nombre := ['g']
  size := 64
  datos := List.replicate 64 1
  length_datos := rfl
  existe := false
  abre := true

/-- A file, a call that is refused and another file. -/
theorem bitmap_is_blocks_of_files_unDump :
    ∃ fs : Fs formatoDeOcho,
      Run (fun a c b => (crearArchivo formatoDeOcho c a).1 = b) (SinDefecto formatoDeOcho)
        (formatear formatoDeOcho) [unDump ['d'], dumpGrande, unDump ['e']] fs ∧
      fs.archivos.length = 2 ∧ BitmapExacto fs := by
  have huno : SinDefecto formatoDeOcho (formatear formatoDeOcho) (unDump ['d']) := by
    refine Or.inr (Or.inr (Or.inr ⟨rfl, ?_, by decide, by decide,
      cabe_of_lt tomados_unBloque (by decide) (by decide)⟩))
    intro a ha
    cases ha
  have hdos : SinDefecto formatoDeOcho
      (crearArchivo formatoDeOcho (unDump ['d']) (formatear formatoDeOcho)).1 dumpGrande :=
    Or.inr (Or.inr (Or.inl (by decide)))
  have htomados : Tomados formatoDeOcho (crearArchivo formatoDeOcho dumpGrande
      (crearArchivo formatoDeOcho (unDump ['d']) (formatear formatoDeOcho)).1).1.bitmap 8 2 [3] :=
    ⟨by decide, [4, 5, 6, 7], by decide⟩
  have htres : SinDefecto formatoDeOcho (crearArchivo formatoDeOcho dumpGrande
      (crearArchivo formatoDeOcho (unDump ['d']) (formatear formatoDeOcho)).1).1 (unDump ['e']) :=
    Or.inr (Or.inr (Or.inr ⟨rfl, by decide, by decide, by decide,
      cabe_of_lt htomados (by decide) (by decide)⟩))
  have hrun : Run (fun a c b => (crearArchivo formatoDeOcho c a).1 = b)
      (SinDefecto formatoDeOcho) (formatear formatoDeOcho) [unDump ['d'], dumpGrande, unDump ['e']]
      _ :=
    Run.snoc (Run.snoc (Run.snoc Run.nil huno rfl) hdos rfl) htres rfl
  exact ⟨_, hrun, by decide, bitmap_is_blocks_of_files hrun⟩

/-- When the name is used again the metadata is replaced, and the blocks of the first
file stay occupied without a file. -/
theorem bitmap_keeps_blocks_of_replaced_file :
    ¬ ∀ (f : Formato) (cs : List Creacion) (fs : Fs f),
        Run (fun a c b => (crearArchivo f c a).1 = b) anyLabel (formatear f) cs fs →
        BitmapExacto fs := by
  intro hclaim
  have hexact := hclaim formatoDeOcho _ _
    (Run.snoc (Run.snoc Run.nil trivial rfl) trivial rfl :
      Run _ anyLabel _ ([] ++ [unDump ['d']] ++ [unDump ['d']]) _)
  have hblock := (hexact.ocupados 0).mp (by decide)
  revert hblock
  decide

end FileSystem
end SinIdeas
