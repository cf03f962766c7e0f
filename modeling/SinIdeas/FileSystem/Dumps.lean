import SinIdeas.FileSystem.Files

/-!
# Dumps at the same time

Every DUMP_MEMORY runs `crear_archivo` in a thread of its own. The threads share the
bitmap, where a search and a mark are each done under `bitmap_mutex` but not
together, and `file_bloques_mutex`, which is taken after the index block was found
and marked and released after the last data block. A step of the system is one of
these sections of one thread; what a thread writes to `bloques.dat` decides nothing.
-/

namespace SinIdeas
namespace FileSystem

open Lib

/-- Where a thread is: counting the free blocks, with the byte to read and those it has
counted; looking for its index block; marking the one it found; waiting for
`file_bloques_mutex`; at the head of the loop over the data blocks; marking the one it
found; writing the metadata. Or it has returned, with the file made or given back, refused
by the count, or without a block to take. -/
inductive Lugar where
  | contar (byte libres : Nat)
  | buscarIndice
  | marcarIndice (b : Nat)
  | entrar
  | datos
  | marcarDato (b : Nat)
  | metadatos
  | listo
  | rechazado
  | sinBloques
  deriving DecidableEq

/-- A thread of `ejecutar_dump_memory`, with the blocks it has found. -/
structure Pedido where
  creacion : Creacion
  lugar : Lugar
  indice : Option Nat
  datos : List Nat
  deriving DecidableEq

/-- The bitmap, the thread that has `file_bloques_mutex` and the threads. -/
structure Dumps (f : Formato) where
  bitmap : Bitmap f.bitmapSize
  fileBloquesMutex : Option Nat
  pedidos : List Pedido
  deriving DecidableEq

namespace Pedido

/-- A thread that has just been created: `crear_archivo` looks at the name and at the
size before it asks for blocks. -/
def nuevo (c : Creacion) : Pedido where
  creacion := c
  lugar := if c.existe ∨ c.size = 0 then .rechazado else .contar 0 0
  indice := none
  datos := []

/-- The blocks assigned to the request. -/
def bloques (p : Pedido) : List Nat := p.indice.toList ++ p.datos

/-- A block that was found and is not marked yet. -/
def pendiente (p : Pedido) : Option Nat :=
  match p.lugar with
  | .marcarIndice b => some b
  | .marcarDato b => some b
  | _ => none

/-- `bloques_necesarios` of the request. -/
def necesarios (f : Formato) (p : Pedido) : Nat := f.bloquesNecesarios p.creacion.size

/-- The next section of the thread is a search. -/
def Busca (f : Formato) (p : Pedido) : Prop :=
  p.lugar = .buscarIndice ∨ p.lugar = .datos ∧ p.datos.length ≠ p.necesarios f

instance decidableBusca (f : Formato) (p : Pedido) : Decidable (p.Busca f) :=
  inferInstanceAs (Decidable (_ ∨ _))

/-- The request has counted the free blocks and passes the check. -/
def pasa (f : Formato) (p : Pedido) : Bool :=
  match p.lugar with
  | .contar byte libres =>
      decide (f.bitmapSize ≤ byte ∧ (p.necesarios f + 1) % 2 ^ 32 ≤ libres)
  | _ => false

/-- How many blocks the request has been promised and has not marked. -/
def falta (f : Formato) (p : Pedido) : Nat :=
  match p.lugar with
  | .buscarIndice => p.necesarios f - p.datos.length + 1
  | .marcarIndice _ => p.necesarios f - p.datos.length + 1
  | .marcarDato _ => p.necesarios f - p.datos.length + 1
  | .entrar => p.necesarios f - p.datos.length
  | .datos => p.necesarios f - p.datos.length
  | _ => 0

end Pedido

section Steps

variable (f : Formato)

/-- The next section of thread `i`; `none` when it has returned or waits for the lock. -/
def pasoPedido (i : Nat) (bitmap : Bitmap f.bitmapSize) (cerrojo : Option Nat) (p : Pedido) :
    Option (Bitmap f.bitmapSize × Option Nat × Pedido) :=
  match p.lugar with
  | .contar i libres =>
      -- The count is not under `bitmap_mutex`: other threads may mark between two bytes.
      match bitmap.bytes[i]? with
      | some byte =>
          let enByte := (List.range 8).countP (bitLibre byte)
          some (bitmap, cerrojo, { p with lugar := .contar (i + 1) (libres + enByte) })
      | none =>
          if libres < (p.necesarios f + 1) % 2 ^ 32 then
            some (bitmap, cerrojo, { p with lugar := .rechazado })
          else
            some (bitmap, cerrojo, { p with lugar := .buscarIndice })
  | .buscarIndice =>
      match buscarBloqueLibre bitmap with
      | none => some (bitmap, cerrojo, { p with lugar := .sinBloques })
      | some b => some (bitmap, cerrojo, { p with lugar := .marcarIndice b, indice := some b })
  | .marcarIndice b => some (marcarBloque b true bitmap, cerrojo, { p with lugar := .entrar })
  | .entrar => if cerrojo = none then some (bitmap, some i, { p with lugar := .datos }) else none
  | .datos =>
      if p.datos.length = p.necesarios f then
        some (bitmap, none, { p with lugar := .metadatos })
      else
        match buscarBloqueLibre bitmap with
        | none => some (bitmap, none, { p with lugar := .sinBloques })
        | some b =>
            some (bitmap, cerrojo, { p with lugar := .marcarDato b, datos := p.datos ++ [b] })
  | .marcarDato b => some (marcarBloque b true bitmap, cerrojo, { p with lugar := .datos })
  | .metadatos =>
      if p.creacion.abre then
        some (bitmap, cerrojo, { p with lugar := .listo })
      else do
        -- The index block is given back, the data blocks stay marked.
        let b ← p.indice
        some (marcarBloque b false bitmap, cerrojo, { p with lugar := .listo, indice := none })
  | .listo => none
  | .rechazado => none
  | .sinBloques => none

/-- A request comes in, or a thread goes on. -/
inductive EventoDump where
  | llega (c : Creacion)
  | avanza (i : Nat)
  deriving DecidableEq

/-- One step of the file system. -/
def pasoDump (s : Dumps f) : EventoDump → Option (Dumps f)
  | .llega c => some { s with pedidos := s.pedidos ++ [Pedido.nuevo c] }
  | .avanza i => do
      let p ← s.pedidos[i]?
      let (bitmap, cerrojo, p) ← pasoPedido f i s.bitmap s.fileBloquesMutex p
      some { bitmap, fileBloquesMutex := cerrojo, pedidos := s.pedidos.set i p }

variable {f}

/-- A bitmap and no requests. -/
def Dumps.inicio (bitmap : Bitmap f.bitmapSize) : Dumps f :=
  { bitmap, fileBloquesMutex := none, pedidos := [] }

/-- No block is assigned to two requests. -/
def Disjuntos (s : Dumps f) : Prop :=
  s.pedidos.Pairwise (fun p q => p.bloques.Disjoint q.bloques)

/-- No request that passed the check has run out of blocks. -/
def SinFaltantes (s : Dumps f) : Prop :=
  ∀ p ∈ s.pedidos, p.lugar ≠ .sinBloques

/-- A search does not find a block that another thread has found and not yet marked. -/
def SinCarrera (s : Dumps f) : EventoDump → Prop
  | .llega _ => True
  | .avanza i => ∀ p ∈ s.pedidos[i]?, p.Busca f →
      ∀ b ∈ buscarBloqueLibre s.bitmap, ∀ q ∈ s.pedidos, q.pendiente ≠ some b

/-- A request passes the check only when the free blocks are enough for it and for what
the others were promised. -/
def HayParaTodos (s : Dumps f) : EventoDump → Prop
  | .llega _ => True
  | .avanza i => ∀ p ∈ s.pedidos[i]?, p.pasa f = true →
      p.necesarios f + 1 + (s.pedidos.map (Pedido.falta f)).sum ≤ contarBloquesLibres s.bitmap

instance decidableDisjuntos (s : Dumps f) : Decidable (Disjuntos s) :=
  inferInstanceAs (Decidable (s.pedidos.Pairwise (fun p q => ∀ b ∈ p.bloques, b ∉ q.bloques)))

instance decidableSinFaltantes (s : Dumps f) : Decidable (SinFaltantes s) :=
  inferInstanceAs (Decidable (∀ p ∈ s.pedidos, p.lugar ≠ .sinBloques))

instance decidableSinCarrera (s : Dumps f) : ∀ e, Decidable (SinCarrera s e)
  | .llega _ => inferInstanceAs (Decidable True)
  | .avanza i => inferInstanceAs (Decidable (∀ p ∈ s.pedidos[i]?, p.Busca f →
      ∀ b ∈ buscarBloqueLibre s.bitmap, ∀ q ∈ s.pedidos, q.pendiente ≠ some b))

instance decidableHayParaTodos (s : Dumps f) : ∀ e, Decidable (HayParaTodos s e)
  | .llega _ => inferInstanceAs (Decidable True)
  | .avanza i => inferInstanceAs (Decidable (∀ p ∈ s.pedidos[i]?, p.pasa f = true →
      p.necesarios f + 1 + (s.pedidos.map (Pedido.falta f)).sum ≤ contarBloquesLibres s.bitmap))

end Steps

/-! ## What one section does -/

/-- What a section of a thread does to the bitmap and to its blocks: nothing, a block is
found, the block it found is marked, or the index block is given back. -/
inductive EfectoDump (f : Formato) (bitmap : Bitmap f.bitmapSize) (p : Pedido) :
    Bitmap f.bitmapSize → Pedido → Prop
  | quieto {p' : Pedido} :
      p.pendiente = none →
      p'.pendiente = none →
      p'.bloques = p.bloques →
      EfectoDump f bitmap p bitmap p'
  | busca {b : Nat} {p' : Pedido} :
      p.Busca f →
      buscarBloqueLibre bitmap = some b →
      p'.pendiente = some b →
      p'.bloques.Perm (b :: p.bloques) →
      EfectoDump f bitmap p bitmap p'
  | marca {b : Nat} {p' : Pedido} :
      p.pendiente = some b →
      p'.pendiente = none →
      p'.bloques = p.bloques →
      EfectoDump f bitmap p (marcarBloque b true bitmap) p'
  | devuelve {b : Nat} {p' : Pedido} :
      p.pendiente = none →
      p'.pendiente = none →
      p.bloques = b :: p'.bloques →
      EfectoDump f bitmap p (marcarBloque b false bitmap) p'

/-- A thread that has not looked for its index block has none. -/
def Pedido.SinIndice (p : Pedido) : Prop :=
  match p.lugar with
  | .contar _ _ => p.indice = none
  | .buscarIndice => p.indice = none
  | _ => True

section Sections

variable {f : Formato} {bitmap bitmap' : Bitmap f.bitmapSize} {cerrojo cerrojo' : Option Nat}
  {i : Nat} {p p' q : Pedido} {l : List Pedido}

theorem pendiente_of_busca
    (h : p.Busca f) :
    p.pendiente = none := by
  rcases h with hlugar | ⟨hlugar, -⟩ <;> rw [Pedido.pendiente, hlugar]

theorem efecto_of_pasoPedido
    (hp : p.SinIndice)
    (h : pasoPedido f i bitmap cerrojo p = some (bitmap', cerrojo', p')) :
    EfectoDump f bitmap p bitmap' p' ∧ p'.SinIndice := by
  unfold Pedido.SinIndice at hp
  cases hlugar : p.lugar with
  | contar byte libres =>
      have hindice : p.indice = none := by simpa only [hlugar] using hp
      simp only [pasoPedido, hlugar] at h
      split at h
      · cases h
        exact ⟨.quieto (by simp [Pedido.pendiente, hlugar]) rfl rfl, hindice⟩
      · split at h
        · cases h
          exact ⟨.quieto (by simp [Pedido.pendiente, hlugar]) rfl rfl, trivial⟩
        · cases h
          exact ⟨.quieto (by simp [Pedido.pendiente, hlugar]) rfl rfl, hindice⟩
  | buscarIndice =>
      have hindice : p.indice = none := by simpa only [hlugar] using hp
      simp only [pasoPedido, hlugar] at h
      split at h
      · cases h
        exact ⟨.quieto (by simp [Pedido.pendiente, hlugar]) rfl rfl, trivial⟩
      · rename_i b hfind
        cases h
        refine ⟨.busca (Or.inl hlugar) hfind rfl ?_, trivial⟩
        simp [Pedido.bloques, hindice]
  | marcarIndice b =>
      simp only [pasoPedido, hlugar] at h
      cases h
      exact ⟨.marca (by simp [Pedido.pendiente, hlugar]) rfl rfl, trivial⟩
  | entrar =>
      simp only [pasoPedido, hlugar] at h
      split at h
      · cases h
        exact ⟨.quieto (by simp [Pedido.pendiente, hlugar]) rfl rfl, trivial⟩
      · cases h
  | datos =>
      simp only [pasoPedido, hlugar] at h
      split at h
      · cases h
        exact ⟨.quieto (by simp [Pedido.pendiente, hlugar]) rfl rfl, trivial⟩
      · rename_i hmas
        split at h
        · cases h
          exact ⟨.quieto (by simp [Pedido.pendiente, hlugar]) rfl rfl, trivial⟩
        · rename_i b hfind
          cases h
          refine ⟨.busca (Or.inr ⟨hlugar, hmas⟩) hfind rfl ?_, trivial⟩
          rw [Pedido.bloques, Pedido.bloques, ← List.append_assoc]
          exact List.perm_append_singleton _ _
  | marcarDato b =>
      simp only [pasoPedido, hlugar] at h
      cases h
      exact ⟨.marca (by simp [Pedido.pendiente, hlugar]) rfl rfl, trivial⟩
  | metadatos =>
      simp only [pasoPedido, hlugar] at h
      split at h
      · cases h
        exact ⟨.quieto (by simp [Pedido.pendiente, hlugar]) rfl rfl, trivial⟩
      · obtain ⟨b, hb, h⟩ := Option.bind_eq_some_iff.mp h
        cases h
        refine ⟨.devuelve (by simp [Pedido.pendiente, hlugar]) rfl ?_, trivial⟩
        simp [Pedido.bloques, hb]
  | listo => simp [pasoPedido, hlugar] at h
  | rechazado => simp [pasoPedido, hlugar] at h
  | sinBloques => simp [pasoPedido, hlugar] at h

/-- A thread that looks for a block takes the first free one. -/
theorem pasoPedido_busca
    {b : Nat}
    (hbusca : p.Busca f) (hfind : buscarBloqueLibre bitmap = some b)
    (h : pasoPedido f i bitmap cerrojo p = some (bitmap', cerrojo', p')) :
    b ∈ p'.bloques := by
  rcases hbusca with hlugar | ⟨hlugar, hmas⟩
  · simp only [pasoPedido, hlugar, hfind] at h
    cases h
    simp [Pedido.bloques]
  · simp only [pasoPedido, hlugar, hfind, if_neg hmas] at h
    cases h
    simp [Pedido.bloques]

/-- The threads before and after the one that moves. -/
theorem exists_otros
    (h : l[i]? = some p) :
    ∃ antes despues, l = antes ++ p :: despues ∧ ∀ q, l.set i q = antes ++ q :: despues := by
  obtain ⟨hi, rfl⟩ := List.getElem?_eq_some_iff.mp h
  refine ⟨l.take i, l.drop (i + 1), ?_, ?_⟩
  · rw [← List.drop_eq_getElem_cons hi, List.take_append_drop]
  · intro q
    rw [List.set_eq_take_append_cons_drop, if_pos hi]

end Sections

/-! ## Blocks of different requests -/

section Disjointness

variable {f : Formato} {bitmap bitmap' : Bitmap f.bitmapSize} {p p' q : Pedido}
  {s s' : Dumps f} {e : EventoDump}

/-- The blocks of a request are marked, but for one that it has just found. -/
structure Propio (bitmap : Bitmap f.bitmapSize) (p : Pedido) : Prop where
  unicos : p.bloques.Nodup
  ocupados : ∀ b ∈ p.bloques, bitmap.ocupado b = true ∨ p.pendiente = some b
  rango : ∀ b, p.pendiente = some b → b ∈ p.bloques ∧ b < 8 * f.bitmapSize
  sinIndice : p.SinIndice

/-- Every request has its own blocks. -/
structure Asignados (s : Dumps f) : Prop where
  disjuntos : Disjuntos s
  propios : ∀ p ∈ s.pedidos, Propio s.bitmap p

/-- The blocks of the thread that moves, after a search that found nobody's block. -/
theorem Propio.mueve
    (hp : Propio bitmap p) (hefecto : EfectoDump f bitmap p bitmap' p') (hindice : p'.SinIndice) :
    Propio bitmap' p' := by
  cases hefecto with
  | quieto hpend hpend' hbloques =>
      refine ⟨by rw [hbloques]; exact hp.unicos, ?_, by simp [hpend'], hindice⟩
      intro b hb
      rw [hbloques] at hb
      have hocupado := hp.ocupados b hb
      rw [hpend] at hocupado
      exact Or.inl (by simpa using hocupado)
  | @busca b _ hbusca hfind hpend' hperm =>
      have hlibre := mem_libres_of_buscar hfind
      obtain ⟨hrango, hclear⟩ := mem_libres.mp hlibre
      have hmarcados : ∀ c ∈ p.bloques, bitmap.ocupado c = true := by
        intro c hc
        have hocupado := hp.ocupados c hc
        rw [pendiente_of_busca hbusca] at hocupado
        simpa using hocupado
      have hnuevo : b ∉ p.bloques := by
        intro hmem
        rw [hmarcados b hmem] at hclear
        cases hclear
      refine ⟨?_, ?_, ?_, hindice⟩
      · rw [hperm.nodup_iff, List.nodup_cons]
        exact ⟨hnuevo, hp.unicos⟩
      · intro c hc
        rcases List.mem_cons.mp (hperm.mem_iff.mp hc) with rfl | hc
        · exact Or.inr hpend'
        · exact Or.inl (hmarcados c hc)
      · intro c hc
        rw [hpend', Option.some.injEq] at hc
        subst hc
        exact ⟨hperm.mem_iff.mpr List.mem_cons_self, hrango⟩
  | @marca b _ hpend hpend' hbloques =>
      have hrango := (hp.rango b hpend).2
      refine ⟨by rw [hbloques]; exact hp.unicos, ?_, by simp [hpend'], hindice⟩
      intro c hc
      rw [hbloques] at hc
      left
      rw [ocupado_marcar hrango]
      rcases hp.ocupados c hc with hocupado | hsame
      · rw [hocupado]
        rfl
      · rw [hpend, Option.some.injEq] at hsame
        simp [hsame]
  | @devuelve b _ hpend hpend' hbloques =>
      have hnodup := hp.unicos
      rw [hbloques, List.nodup_cons] at hnodup
      refine ⟨hnodup.2, ?_, by simp [hpend'], hindice⟩
      intro c hc
      have hocupado := hp.ocupados c (by rw [hbloques]; exact List.mem_cons_of_mem _ hc)
      rw [hpend] at hocupado
      left
      have hne : c ≠ b := by
        rintro rfl
        exact hnodup.1 hc
      rw [ocupado_desmarcar]
      simpa [hne] using hocupado

/-- The blocks of a thread that stays where it is. -/
theorem Propio.queda
    (hp : Propio bitmap p) (hq : Propio bitmap q) (hdisjuntos : p.bloques.Disjoint q.bloques)
    (hefecto : EfectoDump f bitmap p bitmap' p') :
    Propio bitmap' q := by
  cases hefecto with
  | quieto => exact hq
  | busca => exact hq
  | @marca b _ hpend =>
      refine ⟨hq.unicos, ?_, hq.rango, hq.sinIndice⟩
      intro c hc
      rcases hq.ocupados c hc with hocupado | hsame
      · left
        rw [ocupado_marcar (hp.rango b hpend).2, hocupado]
        rfl
      · exact Or.inr hsame
  | @devuelve b _ _ _ hbloques =>
      refine ⟨hq.unicos, ?_, hq.rango, hq.sinIndice⟩
      intro c hc
      rcases hq.ocupados c hc with hocupado | hsame
      · left
        have hne : c ≠ b := by
          rintro rfl
          exact hdisjuntos (by rw [hbloques]; exact List.mem_cons_self) hc
        rw [ocupado_desmarcar, hocupado]
        simp [hne]
      · exact Or.inr hsame

/-- The thread that moves and another one keep their blocks apart, when the search finds a
block that the other one is not about to mark. -/
theorem disjoint_of_efecto
    (hq : Propio bitmap q) (hdisjuntos : p.bloques.Disjoint q.bloques)
    (hlibre : p.Busca f → ∀ b ∈ buscarBloqueLibre bitmap, q.pendiente ≠ some b)
    (hefecto : EfectoDump f bitmap p bitmap' p') :
    p'.bloques.Disjoint q.bloques := by
  cases hefecto with
  | quieto _ _ hbloques => rwa [hbloques]
  | @busca b _ hbusca hfind _ hperm =>
      intro d hd hdq
      rcases List.mem_cons.mp (hperm.mem_iff.mp hd) with rfl | hd
      · rcases hq.ocupados d hdq with hocupado | hpend
        · rw [(mem_libres.mp (mem_libres_of_buscar hfind)).2] at hocupado
          cases hocupado
        · exact hlibre hbusca d hfind hpend
      · exact hdisjuntos hd hdq
  | marca _ _ hbloques => rwa [hbloques]
  | devuelve _ _ hbloques =>
      intro d hd hdq
      exact hdisjuntos (by rw [hbloques]; exact List.mem_cons_of_mem _ hd) hdq

theorem Propio.nuevo
    (bitmap : Bitmap f.bitmapSize) (c : Creacion) :
    Propio bitmap (Pedido.nuevo c) := by
  have hpend : (Pedido.nuevo c).pendiente = none := by
    unfold Pedido.nuevo Pedido.pendiente
    split_ifs <;> rfl
  have hindice : (Pedido.nuevo c).SinIndice := by
    unfold Pedido.nuevo Pedido.SinIndice
    split_ifs <;> simp
  refine ⟨List.nodup_nil, ?_, by simp [hpend], hindice⟩
  intro b hb
  cases hb

theorem disjuntos_iff_of_split
    {antes despues : List Pedido} :
    (antes ++ p :: despues).Pairwise (fun p q => p.bloques.Disjoint q.bloques) ↔
      (∀ q ∈ antes ++ despues, p.bloques.Disjoint q.bloques) ∧
      (antes ++ despues).Pairwise (fun p q => p.bloques.Disjoint q.bloques) := by
  rw [List.pairwise_middle List.disjoint_symm, List.pairwise_cons]

/-- A step in which no search finds a block that is about to be marked. -/
theorem Asignados.paso
    (hs : Asignados s) (hok : SinCarrera s e) (h : pasoDump f s e = some s') :
    Asignados s' := by
  cases e with
  | llega c =>
      cases h
      constructor
      · refine List.pairwise_append.mpr ⟨hs.disjuntos, List.pairwise_singleton _ _, ?_⟩
        intro p _ q hq b _ hb
        rw [List.mem_singleton.mp hq] at hb
        cases hb
      · intro p hp
        rcases List.mem_append.mp hp with hp | hp
        · exact hs.propios p hp
        · rw [List.mem_singleton.mp hp]
          exact Propio.nuevo _ c
  | avanza i =>
      obtain ⟨p, hp, h⟩ := Option.bind_eq_some_iff.mp h
      obtain ⟨⟨bitmap', cerrojo', p'⟩, hpaso, h⟩ := Option.bind_eq_some_iff.mp h
      cases h
      obtain ⟨antes, despues, hsplit, hset⟩ := exists_otros hp
      have hpropio : ∀ q ∈ p :: (antes ++ despues), Propio s.bitmap q := by
        intro q hq
        refine hs.propios q ?_
        rw [hsplit]
        exact (List.perm_middle.mem_iff).mpr hq
      have hdisjuntos := hs.disjuntos
      rw [Disjuntos, hsplit, disjuntos_iff_of_split] at hdisjuntos
      have hmio := hpropio p List.mem_cons_self
      have hotro : ∀ q ∈ antes ++ despues, Propio s.bitmap q :=
        fun q hq => hpropio q (List.mem_cons_of_mem _ hq)
      obtain ⟨hefecto, hindice⟩ := efecto_of_pasoPedido hmio.sinIndice hpaso
      constructor
      · rw [Disjuntos, hset, disjuntos_iff_of_split]
        refine ⟨?_, hdisjuntos.2⟩
        intro q hq
        refine disjoint_of_efecto (hotro q hq) (hdisjuntos.1 q hq) ?_ hefecto
        intro hbusca b hb
        refine hok p hp hbusca b hb q ?_
        rw [hsplit]
        exact (List.perm_middle.mem_iff).mpr (List.mem_cons_of_mem _ hq)
      · intro q hq
        rw [hset] at hq
        rcases List.mem_cons.mp ((List.perm_middle.mem_iff).mp hq) with rfl | hq
        · exact hmio.mueve hefecto hindice
        · exact hmio.queda (hotro q hq) (hdisjuntos.1 q hq) hefecto

/-- After a search that finds a block about to be marked, the block has two requests. -/
theorem not_disjuntos_of_carrera
    (hs : Asignados s) (h : pasoDump f s e = some s') (hno : ¬ SinCarrera s e) :
    ¬ Disjuntos s' := by
  cases e with
  | llega c => exact absurd trivial hno
  | avanza i =>
      simp only [SinCarrera, not_forall, not_not] at hno
      obtain ⟨p, hp, hbusca, b, hfind, q, hq, hpend⟩ := hno
      obtain ⟨p₀, hp₀, h⟩ := Option.bind_eq_some_iff.mp h
      obtain rfl : p = p₀ := Option.some.inj (hp.symm.trans hp₀)
      obtain ⟨⟨bitmap', cerrojo', p'⟩, hpaso, h⟩ := Option.bind_eq_some_iff.mp h
      cases h
      obtain ⟨antes, despues, hsplit, hset⟩ := exists_otros hp
      rw [Disjuntos, hset, disjuntos_iff_of_split]
      rintro ⟨hdisjuntos, -⟩
      have hb : b ∈ q.bloques := ((hs.propios q hq).rango b hpend).1
      rw [hsplit] at hq
      rcases List.mem_cons.mp ((List.perm_middle.mem_iff).mp hq) with rfl | hq
      · rw [pendiente_of_busca hbusca] at hpend
        cases hpend
      · exact hdisjuntos q hq (pasoPedido_busca hbusca hfind hpaso) hb

end Disjointness

/-! ## Promised blocks -/

section Promises

variable {f : Formato} {bitmap bitmap' : Bitmap f.bitmapSize} {cerrojo cerrojo' : Option Nat}
  {i : Nat} {p p' : Pedido} {s s' : Dumps f} {e : EventoDump}

/-- The free blocks are enough for what the requests were promised. -/
structure Prometidos (s : Dumps f) : Prop where
  datos : ∀ p ∈ s.pedidos, p.datos.length ≤ p.necesarios f
  alcanzan : (s.pedidos.map (Pedido.falta f)).sum ≤ s.bitmap.libres.length
  sinFaltantes : SinFaltantes s

/-- A section of a thread with enough free blocks for it and for the others, who were
promised `resto`. -/
theorem pasoPedido_promesa
    {resto : Nat}
    (hdatos : p.datos.length ≤ p.necesarios f)
    (hfalta : p.falta f + resto ≤ bitmap.libres.length)
    (hpasa : p.pasa f = true → p.necesarios f + 1 + resto ≤ bitmap.libres.length)
    (h : pasoPedido f i bitmap cerrojo p = some (bitmap', cerrojo', p')) :
    p'.datos.length ≤ p'.necesarios f ∧ p'.lugar ≠ .sinBloques ∧
      p'.falta f + resto ≤ bitmap'.libres.length := by
  have hmarcar : ∀ b, bitmap.libres.length ≤ (marcarBloque b true bitmap).libres.length + 1 :=
    fun b => length_libres_le_marcar b bitmap
  cases hlugar : p.lugar with
  | contar byte libres =>
      simp only [pasoPedido, hlugar] at h
      simp only [Pedido.falta, hlugar] at hfalta
      split at h
      · cases h
        exact ⟨hdatos, by simp, hfalta⟩
      · rename_i hbyte
        split at h
        · cases h
          exact ⟨hdatos, by simp, hfalta⟩
        · rename_i hcount
          cases h
          rw [List.getElem?_eq_none_iff, bitmap.length_bytes] at hbyte
          have hpasado : p.pasa f = true := by
            simp only [Pedido.pasa, hlugar, decide_eq_true_eq]
            exact ⟨hbyte, Nat.le_of_not_lt hcount⟩
          have henough := hpasa hpasado
          refine ⟨hdatos, by simp, ?_⟩
          simp only [Pedido.falta, Pedido.necesarios] at henough ⊢
          omega
  | buscarIndice =>
      simp only [pasoPedido, hlugar] at h
      simp only [Pedido.falta, hlugar] at hfalta
      split at h
      · rename_i hfind
        rw [buscarBloqueLibre_eq, List.head?_eq_none_iff] at hfind
        rw [hfind, List.length_nil] at hfalta
        omega
      · cases h
        exact ⟨hdatos, by simp, hfalta⟩
  | marcarIndice b =>
      simp only [pasoPedido, hlugar] at h
      simp only [Pedido.falta, hlugar] at hfalta
      cases h
      refine ⟨hdatos, by simp, ?_⟩
      have hb := hmarcar b
      simp only [Pedido.falta, Pedido.necesarios] at hfalta ⊢
      omega
  | entrar =>
      simp only [pasoPedido, hlugar] at h
      simp only [Pedido.falta, hlugar] at hfalta
      split at h
      · cases h
        exact ⟨hdatos, by simp, hfalta⟩
      · cases h
  | datos =>
      simp only [pasoPedido, hlugar] at h
      simp only [Pedido.falta, hlugar] at hfalta
      split at h
      · cases h
        refine ⟨hdatos, by simp, ?_⟩
        simp only [Pedido.falta]
        omega
      · rename_i hmas
        split at h
        · rename_i hfind
          rw [buscarBloqueLibre_eq, List.head?_eq_none_iff] at hfind
          rw [hfind, List.length_nil] at hfalta
          omega
        · cases h
          have hlen : ∀ b, (p.datos ++ [b]).length = p.datos.length + 1 :=
            fun b => List.length_append
          simp only [Pedido.falta, Pedido.necesarios, hlen] at hdatos hmas hfalta ⊢
          refine ⟨by omega, by simp, by omega⟩
  | marcarDato b =>
      simp only [pasoPedido, hlugar] at h
      simp only [Pedido.falta, hlugar] at hfalta
      cases h
      refine ⟨hdatos, by simp, ?_⟩
      have hb := hmarcar b
      simp only [Pedido.falta, Pedido.necesarios] at hfalta ⊢
      omega
  | metadatos =>
      simp only [pasoPedido, hlugar] at h
      simp only [Pedido.falta, hlugar] at hfalta
      split at h
      · cases h
        exact ⟨hdatos, by simp, hfalta⟩
      · obtain ⟨b, _, h⟩ := Option.bind_eq_some_iff.mp h
        cases h
        refine ⟨hdatos, by simp, ?_⟩
        exact le_trans hfalta (length_libres_le_desmarcar b bitmap)
  | listo => simp [pasoPedido, hlugar] at h
  | rechazado => simp [pasoPedido, hlugar] at h
  | sinBloques => simp [pasoPedido, hlugar] at h

theorem falta_nuevo
    (f : Formato) (c : Creacion) :
    (Pedido.nuevo c).falta f = 0 := by
  unfold Pedido.nuevo Pedido.falta
  split_ifs <;> rfl

/-- A step in which a request passes the check only with enough blocks for all. -/
theorem Prometidos.paso
    (hs : Prometidos s) (hok : HayParaTodos s e) (h : pasoDump f s e = some s') :
    Prometidos s' := by
  cases e with
  | llega c =>
      cases h
      refine ⟨?_, ?_, ?_⟩
      · intro p hp
        rcases List.mem_append.mp hp with hp | hp
        · exact hs.datos p hp
        · rw [List.mem_singleton.mp hp]
          exact Nat.zero_le _
      · simpa [falta_nuevo] using hs.alcanzan
      · intro p hp
        rcases List.mem_append.mp hp with hp | hp
        · exact hs.sinFaltantes p hp
        · rw [List.mem_singleton.mp hp]
          unfold Pedido.nuevo
          split_ifs <;> simp
  | avanza i =>
      obtain ⟨p, hp, h⟩ := Option.bind_eq_some_iff.mp h
      obtain ⟨⟨bitmap', cerrojo', p'⟩, hpaso, h⟩ := Option.bind_eq_some_iff.mp h
      cases h
      obtain ⟨antes, despues, hsplit, hset⟩ := exists_otros hp
      have hsum : ∀ q, ((antes ++ q :: despues).map (Pedido.falta f)).sum =
          q.falta f + ((antes ++ despues).map (Pedido.falta f)).sum := by
        intro q
        simp only [List.map_append, List.map_cons, List.sum_append, List.sum_cons]
        omega
      have halcanzan := hs.alcanzan
      rw [hsplit, hsum] at halcanzan
      have hmem : p ∈ s.pedidos := List.mem_of_getElem? hp
      obtain ⟨hdatos', hlugar', halcanzan'⟩ := pasoPedido_promesa (hs.datos p hmem) halcanzan
        (by
          intro hpasa
          have henough := hok p hp hpasa
          rw [contarBloquesLibres_eq, hsplit, hsum] at henough
          omega) hpaso
      refine ⟨?_, ?_, ?_⟩
      · intro q hq
        rcases List.mem_or_eq_of_mem_set hq with hq | rfl
        · exact hs.datos q hq
        · exact hdatos'
      · rw [hset, hsum]
        exact halcanzan'
      · intro q hq
        rcases List.mem_or_eq_of_mem_set hq with hq | rfl
        · exact hs.sinFaltantes q hq
        · exact hlugar'

end Promises

/-- `es` lead from a bitmap and no requests to `s`, and each of them met `ok`. -/
def CorridaDumps {f : Formato} (ok : Dumps f → EventoDump → Prop) (bitmap : Bitmap f.bitmapSize)
    (es : List EventoDump) (s : Dumps f) : Prop :=
  Run (fun a e b => pasoDump f a e = some b) ok (Dumps.inicio bitmap) es s

/-- Requests handled at the same time keep their blocks apart exactly in the runs in
which no search finds a block that another request has found and not yet marked; and
none runs out of blocks where the check of each one counts what the others were promised. -/
theorem concurrent_dumps_are_disjoint_iff
    {f : Formato} {bitmap : Bitmap f.bitmapSize} {es : List EventoDump} {s : Dumps f} :
    (CorridaDumps SinCarrera bitmap es s ↔
      CorridaDumps (fun a _ => Disjuntos a) bitmap es s ∧ Disjuntos s) ∧
    (CorridaDumps HayParaTodos bitmap es s → SinFaltantes s) := by
  constructor
  · have hstart : Asignados (Dumps.inicio bitmap) := by
      refine ⟨List.Pairwise.nil, ?_⟩
      intro p hp
      cases hp
    refine Run.guarded_iff_of_strong hstart Asignados.disjuntos ?_ ?_
    · intro a b e ha hstep hok
      exact ha.paso hok hstep
    · intro a b e ha hstep hno
      exact not_disjuntos_of_carrera ha hstep hno
  · intro hrun
    have hstart : Prometidos (Dumps.inicio bitmap) := by
      refine ⟨?_, Nat.zero_le _, ?_⟩
      · intro p hp
        cases hp
      · intro p hp
        cases hp
    refine (hrun.invariant (I := Prometidos) hstart ?_).sinFaltantes
    intro a b e ha hok hstep
    exact ha.paso hok hstep

/-- Two dumps of one block. -/
def dosDumps : List EventoDump := [.llega (unDump ['d']), .llega (unDump ['e'])]

/-- Each of the two takes its index block, and then the rest of its sections. -/
def alternados : List EventoDump :=
  dosDumps ++ List.replicate 4 (.avanza 0) ++ List.replicate 4 (.avanza 1) ++
    List.replicate 5 (.avanza 0) ++ List.replicate 5 (.avanza 1)

theorem concurrent_dumps_are_disjoint_dosDumps :
    ∃ s : Dumps formatoDeOcho,
      CorridaDumps SinCarrera (Bitmap.vacio _) alternados s ∧ s.pedidos.length = 2 ∧
      (∀ p ∈ s.pedidos, p.lugar = .listo) ∧ Disjuntos s ∧ SinFaltantes s := by
  have hrun : CorridaDumps (f := formatoDeOcho) SinCarrera (Bitmap.vacio _) alternados _ :=
    run_of_isSome (pasoDump formatoDeOcho) id (by decide) (by decide)
  have hprometidos : CorridaDumps (f := formatoDeOcho) HayParaTodos (Bitmap.vacio _)
      alternados _ :=
    run_of_isSome (pasoDump formatoDeOcho) id (by decide) (by decide)
  refine ⟨_, hrun, by decide, by decide, ?_, ?_⟩
  · exact (concurrent_dumps_are_disjoint_iff.1.mp hrun).2
  · exact concurrent_dumps_are_disjoint_iff.2 hprometidos

/-- Two dumps that look for their index block before either marks it have the same one. -/
theorem concurrent_dumps_share_index_block :
    ¬ ∀ (f : Formato) (bitmap : Bitmap f.bitmapSize) (es : List EventoDump) (s : Dumps f),
        CorridaDumps anyLabel bitmap es s → Disjuntos s ∧ SinFaltantes s := by
  intro hclaim
  have hrun : CorridaDumps (f := formatoDeOcho) anyLabel (Bitmap.vacio _)
      (dosDumps ++ List.replicate 3 (.avanza 0) ++ List.replicate 4 (.avanza 1) ++
        [.avanza 0]) _ :=
    run_of_isSome (pasoDump formatoDeOcho) id (by decide) (by decide)
  have hdisjuntos := (hclaim _ _ _ _ hrun).1
  revert hdisjuntos
  decide

end FileSystem
end SinIdeas
