import SinIdeas.FileSystem.Files

/-!
# Blocks that exist

The bitmap has a bit for every block rounded up to whole bytes, and `bloques.dat` has
`block_count * block_size` bytes, a product of 32 bits. Every block that is handed out
exists exactly when neither of them loses something: no bit of the last byte is left
over, and the product does not wrap around.
-/

namespace SinIdeas
namespace FileSystem

open Lib

/-- The arguments of a call of `asignar_bloques`. -/
structure LlamadaAsignar where
  size : UInt32
  datos : List UInt8
  length_datos : datos.length = size.toNat

/-- The bitmap, and the blocks that the calls so far have handed out. -/
structure Entregas (f : Formato) where
  bitmap : Bitmap f.bitmapSize
  entregados : List Nat
  deriving DecidableEq

/-- Before the first call. -/
def sinEntregas (f : Formato) : Entregas f where
  bitmap := Bitmap.vacio f.bitmapSize
  entregados := []

/-- A call of `asignar_bloques` that ends well. -/
def entregar (f : Formato) (s : Entregas f) (p : LlamadaAsignar) : Option (Entregas f) :=
  let r := asignar f s.bitmap p.size p.datos
  r.indice.map (fun indice =>
    { bitmap := r.bitmap, entregados := s.entregados ++ indice :: r.punteros })

/-- The ranges of bytes of two blocks have no byte in common. -/
def Separados (f : Formato) (b c : Nat) : Prop :=
  f.desplazamiento b + f.blockSize ≤ f.desplazamiento c ∨
  f.desplazamiento c + f.blockSize ≤ f.desplazamiento b

/-- Every block handed out is a block of `bloques.dat` with bytes of its own, and there
are not more free blocks than blocks. -/
structure BloquesExisten (f : Formato) (s : Entregas f) : Prop where
  existen : ∀ b ∈ s.entregados, b < f.blockCount
  dentro : ∀ b ∈ s.entregados,
    f.desplazamiento b + f.blockSize ≤ (formatear f).bloques.length
  separados : s.entregados.Pairwise (Separados f)
  ajenos : ∀ b ∈ s.entregados, ∀ c < f.blockCount, c ≠ b → Separados f b c
  libres : contarBloquesLibres s.bitmap ≤ f.blockCount

/-- The occupied blocks are those handed out, each of them once. -/
structure EntregadosUnaVez {f : Formato} (s : Entregas f) : Prop where
  ocupados : ∀ b, s.bitmap.ocupado b = true ↔ b ∈ s.entregados
  unicos : s.entregados.Nodup

section Runs

variable {f : Formato} {s t : Entregas f} {p : LlamadaAsignar}

/-- A call with enough free blocks hands out the lowest ones. -/
theorem entregar_eq
    {indice : Nat} {ds : List Nat}
    (htomados : Tomados f s.bitmap p.size indice ds) :
    entregar f s p = some
      { bitmap := (asignar f s.bitmap p.size p.datos).bitmap
        entregados := s.entregados ++ indice :: ds } := by
  obtain ⟨hindice, _, hpunteros, _⟩ := asignar_eq p.datos htomados
  simp only [entregar, hindice, hpunteros, Option.map_some]

/-- A call that ends well has found enough free blocks. -/
theorem entregar_cases
    (h : entregar f s p = some t) :
    ∃ indice ds, Tomados f s.bitmap p.size indice ds ∧
      t = { bitmap := (asignar f s.bitmap p.size p.datos).bitmap
            entregados := s.entregados ++ indice :: ds } := by
  obtain ⟨indice, hindice, _⟩ := Option.map_eq_some_iff.mp h
  obtain ⟨ds, htomados⟩ := exists_tomados_of_indice hindice
  rw [entregar_eq htomados, Option.some.injEq] at h
  exact ⟨indice, ds, htomados, h.symm⟩

theorem entregadosUnaVez_sinEntregas (f : Formato) : EntregadosUnaVez (sinEntregas f) := by
  constructor
  · intro b
    simp [sinEntregas]
  · exact List.nodup_nil

/-- No block is handed out twice. -/
theorem EntregadosUnaVez.entregar
    (hs : EntregadosUnaVez s)
    (h : entregar f s p = some t) :
    EntregadosUnaVez t := by
  obtain ⟨indice, ds, htomados, rfl⟩ := entregar_cases h
  obtain ⟨_, hocupado, _, _⟩ := asignar_eq p.datos htomados
  constructor
  · intro b
    simp only [hocupado b, Bool.or_eq_true, decide_eq_true_eq, List.mem_append, hs.ocupados b]
  · exact htomados.nodup_append hs.unicos (fun b => (hs.ocupados b).mpr)

theorem entregadosUnaVez_of_run
    {ps : List LlamadaAsignar}
    (hrun : Run (fun a p b => entregar f a p = some b) anyLabel (sinEntregas f) ps s) :
    EntregadosUnaVez s := by
  refine hrun.invariant (entregadosUnaVez_sinEntregas f) ?_
  intro a b p ha _ hstep
  exact ha.entregar hstep

end Runs

section Ranges

variable {f : Formato}

theorem length_bloques_formatear (f : Formato) :
    (formatear f).bloques.length = f.blockCount * f.blockSize % 2 ^ 32 :=
  List.length_replicate

/-- No bit is left over exactly when there are whole bytes of blocks. -/
theorem bits_eq_blockCount_iff (f : Formato) : 8 * f.bitmapSize ≤ f.blockCount ↔ f.blockCount % 8 = 0 := by
  unfold Formato.bitmapSize
  omega

/-- A block that exists ends in `bloques.dat`. -/
theorem add_blockSize_le
    {b : Nat}
    (hb : b < f.blockCount) :
    b * f.blockSize + f.blockSize ≤ f.blockCount * f.blockSize := by
  rw [← Nat.succ_mul]
  exact Nat.mul_le_mul_right _ hb

/-- Where the product does not wrap around, no offset of a block does. -/
theorem desplazamiento_of_existe
    {b : Nat}
    (hbytes : f.blockCount * f.blockSize < 2 ^ 32)
    (hb : b < f.blockCount) :
    f.desplazamiento b = b * f.blockSize := by
  have hle := add_blockSize_le hb
  exact desplazamiento_of_lt (by omega)

/-- Different blocks have different bytes. -/
theorem separados_of_ne
    {b c : Nat}
    (hbytes : f.blockCount * f.blockSize < 2 ^ 32)
    (hb : b < f.blockCount)
    (hc : c < f.blockCount)
    (hne : c ≠ b) :
    Separados f b c := by
  unfold Separados
  rw [desplazamiento_of_existe hbytes hb, desplazamiento_of_existe hbytes hc,
    ← Nat.succ_mul, ← Nat.succ_mul]
  rcases Nat.lt_or_gt_of_ne hne with hlt | hlt
  · right
    exact Nat.mul_le_mul_right _ hlt
  · left
    exact Nat.mul_le_mul_right _ hlt

/-- With whole bytes of blocks and a product below `2^32` the blocks handed out exist. -/
theorem EntregadosUnaVez.existen
    {s : Entregas f}
    (hs : EntregadosUnaVez s)
    (hwhole : f.blockCount % 8 = 0)
    (hbytes : f.blockCount * f.blockSize < 2 ^ 32) :
    BloquesExisten f s := by
  have hbits := (bits_eq_blockCount_iff f).mpr hwhole
  have hexiste : ∀ b ∈ s.entregados, b < f.blockCount := by
    intro b hb
    have hlt := lt_of_ocupado ((hs.ocupados b).mpr hb)
    omega
  constructor
  · exact hexiste
  · intro b hb
    rw [length_bloques_formatear, Nat.mod_eq_of_lt hbytes,
      desplazamiento_of_existe hbytes (hexiste b hb)]
    exact add_blockSize_le (hexiste b hb)
  · refine hs.unicos.imp_of_mem ?_
    intro b c hb hc hne
    exact separados_of_ne hbytes (hexiste b hb) (hexiste c hc) hne.symm
  · intro b hb c hc hne
    exact separados_of_ne hbytes (hexiste b hb) hc hne
  · rw [contarBloquesLibres_eq]
    exact (length_libres_le_bits s.bitmap).trans hbits

/-- A file of `k` data blocks, with one byte in the last of them. -/
def archivoDeBloques (f : Formato) (k : Nat) : LlamadaAsignar where
  size := UInt32.ofNat ((k - 1) * f.blockSize + 1)
  datos := List.replicate (UInt32.ofNat ((k - 1) * f.blockSize + 1)).toNat 0
  length_datos := List.length_replicate

theorem bloquesNecesarios_archivoDeBloques
    {k : Nat}
    (hpos : 0 < k)
    (hbytes : k * f.blockSize < 2 ^ 32) :
    f.bloquesNecesarios (archivoDeBloques f k).size = k := by
  have hblock := f.blockSize_pos
  have hmul : k * f.blockSize = (k - 1) * f.blockSize + f.blockSize := by
    rw [← Nat.succ_mul, Nat.succ_eq_add_one, Nat.sub_add_cancel hpos]
  have hsize : (archivoDeBloques f k).size.toNat = (k - 1) * f.blockSize + 1 := by
    simp only [archivoDeBloques, UInt32.toNat_ofNat']
    exact Nat.mod_eq_of_lt (by omega)
  have hsum : (archivoDeBloques f k).size.toNat + f.blockSize - 1 = k * f.blockSize := by omega
  rw [Formato.bloquesNecesarios, hsum, Nat.mod_eq_of_lt hbytes, Nat.mul_div_cancel _ hblock]

/-- A first call takes the blocks from the first one on. -/
theorem entregar_archivoDeBloques
    {k : Nat}
    (hpos : 0 < k)
    (hk : k < 8 * f.bitmapSize)
    (hbytes : k * f.blockSize < 2 ^ 32) :
    ∃ s, entregar f (sinEntregas f) (archivoDeBloques f k) = some s ∧
      s.entregados = List.range (k + 1) := by
  have hn := bloquesNecesarios_archivoDeBloques hpos hbytes
  have hlibres : (sinEntregas f).bitmap.libres = List.range (8 * f.bitmapSize) := libres_vacio _
  have hle : f.bloquesNecesarios (archivoDeBloques f k).size <
      (sinEntregas f).bitmap.libres.length := by
    rw [hn, hlibres, List.length_range]
    exact hk
  obtain ⟨indice, ds, htomados⟩ := exists_tomados _ hle
  have htake := htomados.take
  rw [hn, hlibres, List.take_range, Nat.min_eq_left hk] at htake
  exact ⟨_, entregar_eq htomados, htake.symm⟩

/-- Where the product wraps around, the block that holds its remainder does not end in
`bloques.dat`. -/
theorem exists_bloque_fuera
    (hbytes : 2 ^ 32 ≤ f.blockCount * f.blockSize) :
    ∃ b, b < f.blockCount ∧ b * f.blockSize < 2 ^ 32 ∧
      f.blockCount * f.blockSize % 2 ^ 32 < b * f.blockSize + f.blockSize := by
  have hpos := f.blockSize_pos
  have hmod := Nat.mod_lt (f.blockCount * f.blockSize) (show 0 < 2 ^ 32 by omega)
  have hdiv := Nat.div_mul_le_self (f.blockCount * f.blockSize % 2 ^ 32) f.blockSize
  refine ⟨f.blockCount * f.blockSize % 2 ^ 32 / f.blockSize, ?_, by omega, ?_⟩
  · rw [Nat.div_lt_iff_lt_mul hpos]
    omega
  · exact Nat.lt_div_mul_add hpos

end Ranges

/-- In every sequence of calls every block handed out exists, exactly when the blocks fill
whole bytes of the bitmap and their bytes can be counted in 32 bits. -/
theorem allocated_blocks_exist_iff
    (f : Formato) :
    (∀ (ps : List LlamadaAsignar) (s : Entregas f),
      Run (fun a p b => entregar f a p = some b) anyLabel (sinEntregas f) ps s →
      BloquesExisten f s) ↔
    f.blockCount % 8 = 0 ∧ f.blockCount * f.blockSize < 2 ^ 32 := by
  constructor
  · intro h
    have hinicio := h [] _ Run.nil
    have hwhole : f.blockCount % 8 = 0 := by
      rw [← bits_eq_blockCount_iff]
      have hle := hinicio.libres
      rw [contarBloquesLibres_eq, sinEntregas, libres_vacio, List.length_range] at hle
      exact hle
    refine ⟨hwhole, ?_⟩
    by_contra hwraps
    obtain ⟨b, hb, hlow, hfuera⟩ := exists_bloque_fuera (not_lt.mp hwraps)
    have hbits : f.blockCount ≤ 8 * f.bitmapSize := by
      unfold Formato.bitmapSize
      omega
    -- a file has a data block, so it takes block 1 even if block 0 is the one outside
    have hlow' : max b 1 * f.blockSize < 2 ^ 32 := by
      rcases Nat.eq_zero_or_pos b with rfl | hpos
      · simpa using f.blockSize_lt
      · rw [Nat.max_eq_left hpos]
        exact hlow
    obtain ⟨s, hstep, hentregados⟩ := entregar_archivoDeBloques (f := f) (k := max b 1)
      (by omega) (by omega) hlow'
    have hrun := h _ s (Run.snoc Run.nil trivial hstep)
    have hdentro := hrun.dentro b (by rw [hentregados, List.mem_range]; omega)
    rw [length_bloques_formatear, desplazamiento_of_lt hlow] at hdentro
    omega
  · rintro ⟨hwhole, hbytes⟩ ps s hrun
    exact (entregadosUnaVez_of_run hrun).existen hwhole hbytes

/-- One block of eight bytes. -/
def formatoDeUnBloque : Formato where
  blockSize := 8
  blockCount := 1
  mountDir := ['m']
  blockSize_pos := formatoDeOcho.blockSize_pos
  blockSize_lt := formatoDeOcho.blockSize_lt
  blockCount_lt := by decide

/-- With one block, a file of eight bytes takes blocks 0 and 1. -/
theorem padding_bits_are_handed_out :
    ¬ ∀ (f : Formato) (ps : List LlamadaAsignar) (s : Entregas f),
        Run (fun a p b => entregar f a p = some b) anyLabel (sinEntregas f) ps s →
        BloquesExisten f s := by
  intro hclaim
  have hrun : Run (fun a p b => entregar formatoDeUnBloque a p = some b) anyLabel
      (sinEntregas formatoDeUnBloque) [⟨8, List.replicate 8 1, rfl⟩] _ :=
    run_of_isSome (entregar formatoDeUnBloque) id (by decide) (by decide)
  exact absurd ((hclaim _ _ _ hrun).existen 1 (by decide)) (by decide)

end FileSystem
end SinIdeas
