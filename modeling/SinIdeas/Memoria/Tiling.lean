import Mathlib.Data.List.Chain
import SinIdeas.Lib.Runs
import SinIdeas.Lib.StableSort
import SinIdeas.Lib.Layout
import SinIdeas.Memoria.FixedPartitions

/-!
# Dynamic partitions tile the user memory

Under ESQUEMA=DINAMICAS the occupied partitions, in the order of the process
table, are packed in `[0, TAM_MEMORIA)` and the partition list is the tiling
they induce. Every request keeps both facts: a new process goes to the
beginning of a gap, which is where the stable sort by base puts it.
-/

namespace SinIdeas
namespace Memoria

open Lib

/-- The partitions of the resident processes, in the order of the table. -/
def ocupadas (procs : List MemPcb) : List MemPartition := procs.map occupiedPartition

/-- The partition that a tile stands for. -/
def tilePartition : Tile Nat MemPartition → MemPartition
  | .gap a b => freePartition (UInt32.ofNat a) (UInt32.ofNat b)
  | .seg p => p

/-- `limite = base + size`, with no wrap-around. -/
def MemPcb.Exacto (p : MemPcb) : Prop := p.limite.toNat = p.base.toNat + p.size.toNat

/-- What a tiled memory is: the statement about `partition_list`. -/
structure TilesMemory (tamMemoria : UInt32) (g : Globals) : Prop where
  first : ∃ p, g.partitionList.head? = some p ∧ p.base = 0
  contiguous : g.partitionList.IsChain (fun p q => p.limite = q.base)
  last : ∃ p, g.partitionList.getLast? = some p ∧ p.limite = tamMemoria
  sizes : ∀ p ∈ g.partitionList, p.size.toNat + p.base.toNat = p.limite.toNat
  noAdjacentFree :
    g.partitionList.IsChain (fun p q => ¬ (p.isFree = true ∧ q.isFree = true))
  noEmptyFree : ∀ p ∈ g.partitionList, p.isFree = true → 0 < p.size
  occupied :
    (g.partitionList.filter (fun p => !p.isFree)).map
        (fun p => (p.pid, p.base, p.limite)) =
      g.memoryProcessList.map (fun p => (p.pid, p.base, p.limite))
  exact : ∀ p ∈ g.memoryProcessList, p.limite.toNat = p.base.toNat + p.size.toNat
  disjoint : g.memoryProcessList.Pairwise (fun p q => p.limite ≤ q.base)

/-- The invariant: the occupied partitions are packed, every process has the
size of its region and the partition list is built from the table. -/
structure Ordenada (tamMemoria : UInt32) (g : Globals) : Prop where
  packed :
    Packed MemPartition.lo MemPartition.hi 0 tamMemoria.toNat (ocupadas g.memoryProcessList)
  exacto : ∀ p ∈ g.memoryProcessList, p.Exacto
  built : g.partitionList = dynamicPartitions tamMemoria 0 g.memoryProcessList

section PartitionList

variable {tamMemoria : UInt32}

/-- A gap of the tiling is the free partition that the loop adds. -/
theorem map_tilePartition_gapBetween
    (a b : UInt32) :
    (gapBetween a.toNat b.toNat).map tilePartition =
      if a < b then [freePartition a b] else [] := by
  by_cases h : a < b
  · have hnat : a.toNat < b.toNat := UInt32.lt_iff_toNat_lt.mp h
    simp [gapBetween, h, hnat, tilePartition]
  · have hnat : ¬ a.toNat < b.toNat := fun hlt => h (UInt32.lt_iff_toNat_lt.mpr hlt)
    simp [gapBetween, h, hnat]

/-- The loop that builds the list computes the tiling of the process table. -/
theorem dynamicPartitions_eq_tiling
    (base : UInt32) (procs : List MemPcb) :
    dynamicPartitions tamMemoria base procs =
      (tiling MemPartition.lo MemPartition.hi base.toNat tamMemoria.toNat
        (ocupadas procs)).map tilePartition := by
  induction procs generalizing base with
  | nil =>
      exact (map_tilePartition_gapBetween base tamMemoria).symm
  | cons p procs ih =>
      simp only [dynamicPartitions, ocupadas, List.map_cons, tiling, List.map_append]
      rw [ih, ← map_tilePartition_gapBetween]
      rfl

/-- The list depends on the table only through the occupied partitions. -/
theorem dynamicPartitions_congr
    {base : UInt32} {procs procs' : List MemPcb}
    (h : ocupadas procs' = ocupadas procs) :
    dynamicPartitions tamMemoria base procs' = dynamicPartitions tamMemoria base procs := by
  rw [dynamicPartitions_eq_tiling, dynamicPartitions_eq_tiling, h]

/-- The size field of a free partition is its length. -/
theorem freePartition_size
    {base limite : UInt32}
    (h : base.toNat ≤ limite.toNat) :
    (freePartition base limite).size.toNat = limite.toNat - base.toNat :=
  UInt32.toNat_sub_of_le _ _ (UInt32.le_iff_toNat_le.mpr h)

/-- A tile of a packed table, as a partition: its ends, its size and its flag. -/
structure TilePartition (t : Tile Nat MemPartition) : Prop where
  lo : (tilePartition t).base.toNat = t.left MemPartition.lo
  hi : (tilePartition t).limite.toNat = t.right MemPartition.hi
  size : (tilePartition t).size.toNat = t.right MemPartition.hi - t.left MemPartition.lo
  free : (tilePartition t).isFree = t.seg?.isNone

theorem tilePartition_spec
    {procs : List MemPcb} {base : Nat} {t : Tile Nat MemPartition}
    (hp : Packed MemPartition.lo MemPartition.hi base tamMemoria.toNat (ocupadas procs))
    (ht : t ∈ tiling MemPartition.lo MemPartition.hi base tamMemoria.toNat (ocupadas procs)) :
    TilePartition t := by
  obtain ⟨_, hle, htam⟩ := hp.tile_bounds ht
  cases t with
  | gap a b =>
      simp only [Tile.left, Tile.right] at hle htam
      have hlt : tamMemoria.toNat < 4294967296 := tamMemoria.toNat_lt
      have ha : (UInt32.ofNat a).toNat = a := by
        simp; omega
      have hb : (UInt32.ofNat b).toNat = b := by
        simp; omega
      refine ⟨ha, hb, ?_, rfl⟩
      have hle' : (UInt32.ofNat a).toNat ≤ (UInt32.ofNat b).toNat := by
        omega
      have hsize := freePartition_size hle'
      rw [ha, hb] at hsize
      exact hsize
  | seg p =>
      have hmem : p ∈ ocupadas procs := by
        have hsegs : p ∈ (tiling MemPartition.lo MemPartition.hi base tamMemoria.toNat
            (ocupadas procs)).filterMap Tile.seg? :=
          List.mem_filterMap.mpr ⟨_, ht, rfl⟩
        rwa [filterMap_tiling] at hsegs
      obtain ⟨pcb, _, rfl⟩ := List.mem_map.mp hmem
      exact ⟨rfl, rfl, freePartition_size hle, rfl⟩

/-- The occupied entries of the list are those of the process table, in order. -/
theorem filter_dynamicPartitions
    (base : UInt32) (procs : List MemPcb) :
    (dynamicPartitions tamMemoria base procs).filter (fun p => !p.isFree) =
      ocupadas procs := by
  induction procs generalizing base with
  | nil =>
      unfold dynamicPartitions
      split_ifs <;> simp [freePartition, ocupadas]
  | cons p procs ih =>
      unfold dynamicPartitions
      rw [List.filter_append, List.filter_cons, ih]
      split_ifs <;> simp_all [freePartition, occupiedPartition, ocupadas]

/-- The invariant describes a tiled memory. -/
theorem Ordenada.tilesMemory
    {g : Globals}
    (htam : 0 < tamMemoria)
    (h : Ordenada tamMemoria g) :
    TilesMemory tamMemoria g := by
  have hlist : g.partitionList =
      (tiling MemPartition.lo MemPartition.hi 0 tamMemoria.toNat
        (ocupadas g.memoryProcessList)).map tilePartition :=
    h.built.trans (dynamicPartitions_eq_tiling 0 _)
  have htiles := h.packed.tiles
  have htam' : 0 < tamMemoria.toNat := UInt32.lt_iff_toNat_lt.mp htam
  obtain ⟨t₀, ht₀, hleft⟩ := htiles.head htam'
  obtain ⟨t₁, ht₁, hright⟩ := htiles.getLast (by rintro heq; simp [heq] at ht₀)
  refine
    { first := ?_, contiguous := ?_, last := ?_, sizes := ?_, noAdjacentFree := ?_,
      noEmptyFree := ?_, occupied := ?_, exact := h.exacto, disjoint := ?_ }
  · refine ⟨tilePartition t₀, by rw [hlist, List.head?_map, ht₀]; rfl, ?_⟩
    exact UInt32.toNat_inj.mp
      ((tilePartition_spec h.packed (List.mem_of_head? ht₀)).lo.trans hleft)
  · rw [hlist, List.isChain_map]
    refine htiles.isChain.imp_of_mem_imp (fun s t hs ht hst => UInt32.toNat_inj.mp ?_)
    rw [(tilePartition_spec h.packed hs).hi, hst, (tilePartition_spec h.packed ht).lo]
  · refine ⟨tilePartition t₁, by rw [hlist, List.getLast?_map, ht₁]; rfl, ?_⟩
    exact UInt32.toNat_inj.mp
      ((tilePartition_spec h.packed (List.mem_of_getLast? ht₁)).hi.trans hright)
  · intro p hp
    rw [hlist] at hp
    obtain ⟨t, ht, rfl⟩ := List.mem_map.mp hp
    have hspec := tilePartition_spec h.packed ht
    have hbounds := h.packed.tile_bounds ht
    rw [hspec.size, hspec.lo, hspec.hi]
    omega
  · rw [hlist, List.isChain_map]
    refine (isChain_tiling 0 tamMemoria.toNat _).imp_of_mem_imp ?_
    intro s t hs ht hst hfree
    rw [(tilePartition_spec h.packed hs).free, (tilePartition_spec h.packed ht).free] at hfree
    simp only [Option.isNone_iff_eq_none] at hfree
    exact hst.elim (fun hne => hne hfree.1) (fun hne => hne hfree.2)
  · intro p hp hfree
    rw [hlist] at hp
    obtain ⟨t, ht, rfl⟩ := List.mem_map.mp hp
    have hspec := tilePartition_spec h.packed ht
    cases t with
    | gap a b =>
        have hlt := lt_of_gap_mem ht
        refine UInt32.lt_iff_toNat_lt.mpr ?_
        rw [hspec.size]
        exact Nat.sub_pos_of_lt hlt
    | seg q =>
        rw [hspec.free] at hfree
        cases hfree
  · rw [h.built, filter_dynamicPartitions, ocupadas, List.map_map]
    rfl
  · have hpair := h.packed.pairwise
    rw [ocupadas, List.pairwise_map] at hpair
    exact hpair.imp (fun hle => UInt32.le_iff_toNat_le.mpr hle)

end PartitionList

section Steps

variable {cfg : Config} {g : Globals}

/-- A table with the same regions and sizes keeps the invariant. -/
theorem Ordenada.of_same_regions
    {g' : Globals}
    (h : Ordenada cfg.tamMemoria g)
    (hocc : ocupadas g'.memoryProcessList = ocupadas g.memoryProcessList)
    (hexacto : ∀ p ∈ g'.memoryProcessList, p.Exacto)
    (hlist : g'.partitionList = g.partitionList) :
    Ordenada cfg.tamMemoria g' where
  packed := hocc ▸ h.packed
  exacto := hexacto
  built := by rw [hlist, h.built, dynamicPartitions_congr hocc]

/-- The left end of the region of a process, as the sort key. -/
def claveBase (p : MemPcb) : Nat := p.base.toNat

/-- `ordenar_por_base` compares the left ends. -/
theorem ordenarPorBase_eq : ordenarPorBase = byKey claveBase := by
  funext a b
  rw [Bool.eq_iff_iff, ordenarPorBase, byKey, decide_eq_true_iff, decide_eq_true_iff]
  exact UInt32.lt_iff_toNat_lt

/-- A packed process table is sorted by base. -/
theorem sorted_of_packed
    {procs : List MemPcb} {a b : Nat}
    (hp : Packed MemPartition.lo MemPartition.hi a b (ocupadas procs)) :
    Sorted claveBase procs := by
  have hsorted := hp.sorted
  rwa [ocupadas, List.pairwise_map] at hsorted

/-- Changing a process in place keeps the invariant if its region and size stay. -/
theorem Ordenada.modificar
    {pid : UInt32} {f : MemPcb → MemPcb}
    (h : Ordenada cfg.tamMemoria g)
    (hf : ∀ p, buscarProcesoPorPid g pid = some p →
      occupiedPartition (f p) = occupiedPartition p ∧ (f p).size = p.size) :
    Ordenada cfg.tamMemoria (modificarProceso g pid f) := by
  refine h.of_same_regions (map_modifyFirst (fun p hp => (hf p hp).1)) ?_ rfl
  intro q hq
  rcases mem_modifyFirst hq with hq | ⟨p, hp, rfl⟩
  · exact h.exacto q hq
  · obtain ⟨hocc, hsize⟩ := hf p hp
    have hp' := h.exacto p (List.mem_of_find?_eq_some hp)
    simp only [occupiedPartition, MemPartition.mk.injEq] at hocc
    rw [MemPcb.Exacto, hocc.2.1, hocc.2.2.1, hsize]
    exact hp'

variable (hsort : StableFor ordenarPorBase (cfg.listSort ordenarPorBase))
variable (htam : 0 < cfg.tamMemoria)
include hsort htam

/-- Rebuilding the list sorts the table and computes its tiling. -/
theorem Ordenada.update
    {sorted : List MemPcb}
    (heq : cfg.listSort ordenarPorBase g.memoryProcessList = sorted)
    (hpacked :
      Packed MemPartition.lo MemPartition.hi 0 cfg.tamMemoria.toNat (ocupadas sorted))
    (hexacto : ∀ p ∈ sorted, p.Exacto) :
    Ordenada cfg.tamMemoria (updateDynamicPartitionList cfg g) := by
  have hprocs : (updateDynamicPartitionList cfg g).memoryProcessList = sorted := by
    cases hg : g.memoryProcessList with
    | nil =>
        rw [hg] at heq
        have hnil : sorted = [] := List.perm_nil.mp (heq ▸ hsort.perm [])
        simp [updateDynamicPartitionList, buildDynamicPartitionList, hg, hnil]
    | cons p procs =>
        simp [updateDynamicPartitionList, buildDynamicPartitionList, hg, ← heq]
  refine ⟨hprocs ▸ hpacked, hprocs ▸ hexacto, ?_⟩
  rw [hprocs]
  cases hg : g.memoryProcessList with
  | nil =>
      rw [hg] at heq
      have hnil : sorted = [] := List.perm_nil.mp (heq ▸ hsort.perm [])
      simp [updateDynamicPartitionList, buildDynamicPartitionList, hg, hnil,
        dynamicPartitions, htam, freePartition]
  | cons p procs =>
      simp [updateDynamicPartitionList, buildDynamicPartitionList, hg, ← heq]

/-- Rebuilding the list of a packed table changes nothing else. -/
theorem Ordenada.rebuild
    (hpacked : Packed MemPartition.lo MemPartition.hi 0 cfg.tamMemoria.toNat
      (ocupadas g.memoryProcessList))
    (hexacto : ∀ p ∈ g.memoryProcessList, p.Exacto) :
    Ordenada cfg.tamMemoria (updateDynamicPartitionList cfg g) := by
  refine Ordenada.update hsort htam ?_ hpacked hexacto
  rw [ordenarPorBase_eq] at hsort ⊢
  exact hsort.sort_of_sorted (sorted_of_packed hpacked)

/-- A new process in a free partition: the sort puts it where the partition is. -/
theorem Ordenada.crear
    {selected : MemPartition} {partitions : List MemPartition} {criteria : Criteria}
    {pid size : UInt32}
    (h : Ordenada cfg.tamMemoria g)
    (halloc : allocateProcessInPartition g.partitionList size criteria pid =
      some (selected, partitions)) :
    Ordenada cfg.tamMemoria
      (updateDynamicPartitionList cfg
        (crearProcesoMem { g with partitionList := partitions }
          pid selected.base (selected.base + size) size)) := by
  obtain ⟨before, p, after, hlist, hfree, hfits, rfl, -⟩ := allocateProcessInPartition_spec halloc
  have hmem : p ∈ g.partitionList := by
    simp [hlist]
  rw [h.built, dynamicPartitions_eq_tiling] at hmem
  obtain ⟨t, ht, rfl⟩ := List.mem_map.mp hmem
  have hspec := tilePartition_spec h.packed ht
  cases t with
  | seg q =>
      rw [hspec.free] at hfree
      cases hfree
  | gap a b =>
      have hab : a < b := lt_of_gap_mem ht
      have hb : b ≤ cfg.tamMemoria.toNat := (h.packed.tile_bounds ht).2.2
      have htop : cfg.tamMemoria.toNat < 4294967296 := cfg.tamMemoria.toNat_lt
      obtain ⟨o₁, o₂, hocc, hp₁, hp₂⟩ := h.packed.split_of_gap ht
      obtain ⟨l₁, l₂, hprocs, rfl, rfl⟩ := List.map_eq_append_iff.mp hocc
      -- the region of the new process starts at `a` and ends before `b`
      have hbase : (tilePartition (.gap a b)).base.toNat = a := hspec.lo
      have hsize : size.toNat ≤ b - a := by
        have hle := UInt32.le_iff_toNat_le.mp hfits
        rw [hspec.size] at hle
        exact hle
      have hlim : ((tilePartition (.gap a b)).base + size).toNat = a + size.toNat := by
        rw [UInt32.toNat_add, hbase]
        omega
      -- and its entry moves from the end of the table to the place of the gap
      have hplace : cfg.listSort ordenarPorBase
          (g.memoryProcessList ++ [nuevoProceso pid (tilePartition (.gap a b)).base
            ((tilePartition (.gap a b)).base + size) size]) =
          l₁ ++ nuevoProceso pid (tilePartition (.gap a b)).base
            ((tilePartition (.gap a b)).base + size) size :: l₂ := by
        have hsorted := sorted_of_packed h.packed
        rw [ordenarPorBase_eq] at hsort ⊢
        refine (hsort.sort_append_singleton hsorted).trans ?_
        rw [hprocs]
        refine insertAfter_append (fun q hq => ?_) (fun q hq => ?_)
        · have hbound := hp₁.mem_bounds (List.mem_map_of_mem hq)
          exact (hbound.2.1.trans hbound.2.2).trans_eq hbase.symm
        · have hbound := hp₂.mem_bounds (List.mem_map_of_mem hq)
          exact hbase.trans_lt (hab.trans_le hbound.1)
      refine Ordenada.update hsort htam hplace ?_ ?_
      · rw [ocupadas, List.map_append, List.map_cons]
        refine hp₁.append ⟨?_, ?_, hp₂.weaken_left ?_⟩
        · exact hbase.ge
        · exact (hbase.trans_le (Nat.le_add_right a size.toNat)).trans_eq hlim.symm
        · refine hlim.trans_le ?_
          omega
      · intro q hq
        rcases List.mem_append.mp hq with hq | hq
        · exact h.exacto q (by simp [hprocs, hq])
        · rcases List.mem_cons.mp hq with rfl | hq
          · exact hlim.trans (congrArg (· + size.toNat) hbase.symm)
          · exact h.exacto q (by simp [hprocs, hq])

/-- One request keeps the invariant, if it changes no region of its own accord. -/
theorem Ordenada.step_of_regiones
    {g' : Globals} {p : Peticion}
    (hesq : cfg.esquema = .dinamicas)
    (h : Ordenada cfg.tamMemoria g)
    (hreg : ∀ pid tid r, p = .executionContextUpdate pid tid r →
      ∀ q ∈ buscarProcesoPorPid g pid, r.base = q.base ∧ r.limite = q.limite)
    (hstep : atiende cfg g p = some g') :
    Ordenada cfg.tamMemoria g' := by
  cases efecto_of_atiende hstep with
  | processCreate pid size =>
      simp only [verificarEspacioYCrearProceso, hesq]
      split
      · exact h
      · exact h.crear hsort htam ‹_›
  | processExit pid =>
      simp only [eliminarProcesoMem, hesq]
      split_ifs
      · refine Ordenada.rebuild hsort htam (h.packed.sublist ?_) ?_
        · exact List.eraseP_sublist.map occupiedPartition
        · exact fun q hq => h.exacto q (List.mem_of_mem_eraseP hq)
      · exact h
  | threadCreate pid tid filePath =>
      unfold verificarYAgregarHilo
      split
      · exact h
      · exact h.modificar (fun _ _ => ⟨rfl, rfl⟩)
  | threadExit pid tid =>
      simp only [eliminarHiloMem, hesq]
      split
      · exact h
      · split_ifs
        · have hmod : Ordenada cfg.tamMemoria (modificarProceso g pid (fun proceso =>
              { proceso with threads := proceso.threads.eraseP (fun hilo => hilo.tid == tid) })) :=
            h.modificar (fun _ _ => ⟨rfl, rfl⟩)
          exact Ordenada.rebuild hsort htam hmod.packed hmod.exacto
        · exact h
  | executionContextUpdate pid tid r =>
      refine h.modificar (fun q hq => ⟨?_, rfl⟩)
      obtain ⟨hbase, hlimite⟩ := hreg pid tid r rfl q hq
      simp [occupiedPartition, hbase, hlimite]
  | consulta p g' hprocs hlist =>
      exact h.of_same_regions (by rw [hprocs]) (hprocs ▸ h.exacto) hlist

/-- One request keeps the invariant. -/
theorem Ordenada.step
    {g' : Globals} {p : Peticion}
    (hesq : cfg.esquema = .dinamicas)
    (h : Ordenada cfg.tamMemoria g)
    (hreg : Regular g p)
    (hstep : atiende cfg g p = some g') :
    Ordenada cfg.tamMemoria g' := by
  refine h.step_of_regiones hsort htam hesq ?_ hstep
  rintro pid tid r rfl
  exact hreg

omit hsort in
/-- The empty memory is a single free partition. -/
theorem ordenada_inicializar
    (hesq : cfg.esquema = .dinamicas) :
    Ordenada cfg.tamMemoria (inicializar cfg) where
  packed := Nat.zero_le _
  exacto := by simp [inicializar]
  built := by
    simp [inicializar, hesq, buildDynamicPartitionList, dynamicPartitions, htam, freePartition]

end Steps

/-- Under ESQUEMA=DINAMICAS the partition list is an exact tiling of the user
memory after every sequence of requests, for every search criterion. -/
theorem dynamic_partitions_tile_memory
    (cfg : Config)
    (hesq : cfg.esquema = .dinamicas)
    (htam : 0 < cfg.tamMemoria)
    (hsort : StableFor ordenarPorBase (cfg.listSort ordenarPorBase))
    {peticiones : List Peticion} {g : Globals}
    (hrun : Run (fun g p g' => atiende cfg g p = some g') Regular
      (inicializar cfg) peticiones g) :
    TilesMemory cfg.tamMemoria g :=
  (hrun.invariant (I := Ordenada cfg.tamMemoria) (ordenada_inicializar htam hesq)
    (fun h hreg hstep => h.step hsort htam hesq hreg hstep)).tilesMemory htam

/-- A memory of 64 bytes, searched for the best partition. -/
def configDinamicas : Config where
  esquema := .dinamicas
  algoritmoBusqueda := .best
  tamMemoria := 64
  particiones := []
  scripts := fun _ => none
  listSort := fun _ => insertionSortBy claveBase

theorem estable_configDinamicas :
    StableFor ordenarPorBase (configDinamicas.listSort ordenarPorBase) := by
  rw [ordenarPorBase_eq]
  exact stableFor_insertionSortBy

/-- Three processes, one of them empty, a hole and its reuse. -/
def peticionesDinamicas : List Peticion :=
  [.processCreate 0 16, .processCreate 1 0, .processCreate 2 48, .processExit 0,
   .processCreate 3 8, .threadCreate 3 0 ['a'], .threadExit 3 0]

theorem dynamic_partitions_tile_memory_64 :
    ∃ h : (execute (atiende configDinamicas) (inicializar configDinamicas)
        peticionesDinamicas).isSome = true,
      TilesMemory 64 ((execute (atiende configDinamicas) (inicializar configDinamicas)
        peticionesDinamicas).get h) := by
  refine ⟨by decide, ?_⟩
  exact dynamic_partitions_tile_memory configDinamicas rfl (by decide) estable_configDinamicas
    (run_of_isSome (atiende configDinamicas) (fun h => h) (by decide) _)

end Memoria
end SinIdeas
