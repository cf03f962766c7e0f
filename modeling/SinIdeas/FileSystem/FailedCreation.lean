import SinIdeas.FileSystem.Files
import SinIdeas.FileSystem.LowestBlocks

/-!
# Creations that fail

`crear_archivo` takes the blocks of the file, writes its data and saves the bitmap
before it opens the metadata file. When that fails it gives back the index block, in
memory alone: the data blocks stay occupied, and all of them in the saved bitmap.
-/

namespace SinIdeas
namespace FileSystem

/-- A call that returns `-1` leaves the marks of the bitmap, in memory and saved. -/
structure SinRastro (f : Formato) (c : Creacion) (fs : Fs f) : Prop where
  bitmap : (crearArchivo f c fs).2 = false →
    ∀ b, (crearArchivo f c fs).1.bitmap.ocupado b = fs.bitmap.ocupado b
  bitmapDat : (crearArchivo f c fs).2 = false →
    ∀ b, (crearArchivo f c fs).1.bitmapDat.ocupado b = fs.bitmapDat.ocupado b

/-- The call returns before it takes a block. -/
def SeRechaza (f : Formato) (c : Creacion) (fs : Fs f) : Prop :=
  c.existe = true ∨ c.size = 0 ∨
  contarBloquesLibres fs.bitmap < (f.bloquesNecesarios c.size + 1) % 2 ^ 32 ∨
  buscarBloqueLibre fs.bitmap = none

/-- The index block is the only one that the file takes, and the saved bitmap has it as
occupied although it is free. -/
def SoloIndice (f : Formato) (c : Creacion) (fs : Fs f) : Prop :=
  f.bloquesNecesarios c.size = 0 ∧
  ∀ b, fs.bitmapDat.ocupado b =
    (fs.bitmap.ocupado b || decide (buscarBloqueLibre fs.bitmap = some b))

section FailedCreation

variable {f : Formato} {c : Creacion} {fs : Fs f}

/-- A call that gets past the check without enough blocks leaves one of them occupied. -/
theorem crearArchivo_agotada
    {b : Nat}
    (hexiste : ¬ c.existe = true)
    (hsize : c.size ≠ 0)
    (hcount : ¬ contarBloquesLibres fs.bitmap < (f.bloquesNecesarios c.size + 1) % 2 ^ 32)
    (hfind : buscarBloqueLibre fs.bitmap = some b)
    (hlibres : fs.bitmap.libres.length ≤ f.bloquesNecesarios c.size) :
    (crearArchivo f c fs).2 = false ∧ (crearArchivo f c fs).1.bitmap.ocupado b = true := by
  have hindice := (asignar_sinBloques c.datos (Nat.lt_succ_of_le hlibres)).1
  unfold crearArchivo
  rw [if_neg hexiste, if_neg hsize]
  simp only [asignarBloques, hindice]
  exact ⟨trivial, ocupado_asignar_of_find c.datos hcount hfind⟩

/-- A call that takes its blocks and cannot write its metadata leaves the marks as they
were only if it takes a single block that the saved bitmap has as occupied already. -/
theorem sinRastro_sinMetadatos_iff
    {indice : Nat} {ds : List Nat}
    (hexiste : ¬ c.existe = true)
    (hsize : c.size ≠ 0)
    (habre : ¬ c.abre = true)
    (htomados : Tomados f fs.bitmap c.size indice ds) :
    SinRastro f c fs ↔ SoloIndice f c fs := by
  have hcrear := crearArchivo_tomados hexiste hsize htomados
  rw [if_neg habre] at hcrear
  have hfalse : (crearArchivo f c fs).2 = false := by rw [hcrear]
  have hbitmap : (crearArchivo f c fs).1.bitmap =
      marcarBloque indice false (asignar f fs.bitmap c.size c.datos).bitmap := by rw [hcrear]
  have hdat : (crearArchivo f c fs).1.bitmapDat =
      (asignar f fs.bitmap c.size c.datos).bitmap := by rw [hcrear]
  obtain ⟨_, hocupado, _, _⟩ := asignar_eq c.datos htomados
  have hlen := htomados.1
  have hlibre : ∀ b ∈ indice :: ds, fs.bitmap.ocupado b = false := by
    intro b hb
    exact (mem_libres.mp (htomados.mem_libres hb)).2
  have hfind : buscarBloqueLibre fs.bitmap = some indice := by
    obtain ⟨_, resto, hlibres⟩ := htomados
    rw [buscarBloqueLibre_eq, hlibres]
    rfl
  constructor
  · rintro ⟨hmemoria, hguardado⟩
    -- a data block stays occupied, so there is none
    have hnil : ds = [] := by
      cases hds : ds with
      | nil =>
          rfl
      | cons d ds' =>
          have hlt : indice < d := by
            have hsorted := htomados.pairwise
            rw [hds] at hsorted
            exact (List.pairwise_cons.mp hsorted).1 d List.mem_cons_self
          have hsame := hmemoria hfalse d
          rw [hbitmap, ocupado_desmarcar, hocupado, hlibre d (by simp [hds])] at hsame
          simp [hds, Nat.ne_of_gt hlt] at hsame
    rw [hnil] at hlen hocupado
    refine ⟨hlen.symm, ?_⟩
    intro b
    rw [← hguardado hfalse b, hdat, hocupado b, hfind]
    simp [eq_comm]
  · rintro ⟨hcero, hguardado⟩
    have hnil : ds = [] := List.length_eq_zero_iff.mp (hlen.trans hcero)
    rw [hnil] at hocupado
    constructor
    · intro _ b
      rw [hbitmap, ocupado_desmarcar, hocupado b]
      by_cases hb : b = indice
      · rw [hb, hlibre indice List.mem_cons_self]
        simp
      · simp [hb]
    · intro _ b
      rw [hdat, hocupado b, hguardado b, hfind]
      simp [eq_comm]

end FailedCreation

/-- A creation that fails leaves no blocks behind exactly when it fails before it takes
one, or does not fail, or the only block it takes is one that the saved bitmap has already. -/
theorem failed_creation_leaves_no_blocks_iff
    (f : Formato) (c : Creacion) (fs : Fs f) :
    SinRastro f c fs ↔
      SeRechaza f c fs ∨
      (f.bloquesNecesarios c.size < contarBloquesLibres fs.bitmap ∧
        (c.abre = true ∨ SoloIndice f c fs)) := by
  by_cases hrechaza : SeRechaza f c fs
  · have hsame := crearArchivo_rechazada hrechaza
    refine iff_of_true ⟨?_, ?_⟩ (Or.inl hrechaza)
    · intro _ b
      rw [hsame]
    · intro _ b
      rw [hsame]
  rw [or_iff_right hrechaza]
  obtain ⟨hexiste, hrest⟩ := not_or.mp hrechaza
  obtain ⟨hsize, hrest⟩ := not_or.mp hrest
  obtain ⟨hcount, hfind⟩ := not_or.mp hrest
  rw [contarBloquesLibres_eq]
  by_cases hlibres : f.bloquesNecesarios c.size < fs.bitmap.libres.length
  · obtain ⟨indice, ds, htomados⟩ := exists_tomados _ hlibres
    simp only [hlibres, true_and]
    by_cases habre : c.abre = true
    · have htrue : (crearArchivo f c fs).2 = true := by
        rw [crearArchivo_tomados hexiste hsize htomados, if_pos habre]
      refine iff_of_true ⟨?_, ?_⟩ (Or.inl habre)
      · intro hfalse
        rw [htrue] at hfalse
        cases hfalse
      · intro hfalse
        rw [htrue] at hfalse
        cases hfalse
    · rw [or_iff_right habre]
      exact sinRastro_sinMetadatos_iff hexiste hsize habre htomados
  · obtain ⟨b, hb⟩ := Option.ne_none_iff_exists'.mp hfind
    obtain ⟨hfalse, hocupado⟩ := crearArchivo_agotada hexiste hsize hcount hb (not_lt.mp hlibres)
    refine iff_of_false ?_ (fun h => hlibres h.1)
    intro hrastro
    have hlibre := (mem_libres.mp (mem_libres_of_buscar hb)).2
    rw [hrastro.bitmap hfalse b, hlibre] at hocupado
    cases hocupado

/-- A dump of one block whose metadata file cannot be opened: its data block stays occupied. -/
theorem failed_creation_keeps_data_block :
    ¬ ∀ (f : Formato) (c : Creacion) (fs : Fs f), SinRastro f c fs := by
  intro hclaim
  have hrastro := hclaim formatoDeOcho { unDump ['d'] with abre := false } (formatear formatoDeOcho)
  exact absurd (hrastro.bitmap (by decide) 1) (by decide)

end FileSystem
end SinIdeas
