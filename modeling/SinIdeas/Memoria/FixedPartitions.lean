import SinIdeas.Lib.Layout
import SinIdeas.Memoria.ProcessTable

/-!
# Fixed partitions

Under ESQUEMA=FIJAS the partitions keep the place and the size of the
configuration; requests only change their owners. Every resident process has an
occupied partition with its PID in which it fits.
-/

namespace SinIdeas
namespace Memoria

open Lib

/-- Left end of a partition. -/
def MemPartition.lo (p : MemPartition) : Nat := p.base.toNat

/-- Right end of a partition. -/
def MemPartition.hi (p : MemPartition) : Nat := p.limite.toNat

/-- The bytes that the configured partitions take together. -/
def bytesConfigurados (sizes : List UInt32) : Nat := (sizes.map UInt32.toNat).sum

/-- The partition given to a process. -/
structure Aloja (q : MemPartition) (p : MemPcb) : Prop where
  ocupada : q.isFree = false
  pid : q.pid = p.pid
  base : q.base = p.base
  size : p.size ≤ q.size

/-- The invariant of the fixed scheme. -/
structure Fijada (cfg : Config) (g : Globals) : Prop where
  marco : g.partitionList.map liberarParticion = buildStaticPartitionList cfg.particiones
  pids : (g.memoryProcessList.map MemPcb.pid).Nodup
  limites : ∀ p ∈ g.memoryProcessList, p.limite = p.base + p.size
  alojado : ∀ p ∈ g.memoryProcessList, ∃ q ∈ g.partitionList, Aloja q p

section Static

/-- Configured partitions that fit in the memory are packed in it. -/
theorem packed_staticPartitions
    {base tam : UInt32} {sizes : List UInt32}
    (hfit : base.toNat + bytesConfigurados sizes ≤ tam.toNat) :
    Packed MemPartition.lo MemPartition.hi base.toNat tam.toNat
      (staticPartitions base sizes) := by
  induction sizes generalizing base with
  | nil =>
      exact (Nat.le_add_right _ _).trans hfit
  | cons size sizes ih =>
      have htam : tam.toNat < 4294967296 := tam.toNat_lt
      simp only [bytesConfigurados, List.map_cons, List.sum_cons] at hfit
      have hadd : (base + size).toNat = base.toNat + size.toNat := by
        rw [UInt32.toNat_add]
        omega
      refine ⟨le_rfl, ?_, ?_⟩
      · simp only [MemPartition.lo, MemPartition.hi]
        omega
      · refine ih ?_
        simp only [bytesConfigurados]
        omega

/-- A configured partition ends where its size says. -/
theorem limite_of_mem_staticPartitions
    {base : UInt32} {sizes : List UInt32} {q : MemPartition}
    (hq : q ∈ staticPartitions base sizes) :
    q.limite = q.base + q.size := by
  induction sizes generalizing base with
  | nil =>
      simp [staticPartitions] at hq
  | cons size sizes ih =>
      rcases List.mem_cons.mp hq with rfl | hq
      · rfl
      · exact ih hq

end Static

section Steps

variable {cfg : Config} {g : Globals}

theorem fijada_inicializar
    (hesq : cfg.esquema = .fijas) :
    Fijada cfg (inicializar cfg) where
  marco := by
    have hfree : ∀ (base : UInt32) (sizes : List UInt32),
        (staticPartitions base sizes).map liberarParticion = staticPartitions base sizes := by
      intro base sizes
      induction sizes generalizing base with
      | nil =>
          rfl
      | cons size sizes ih =>
          simp [staticPartitions, liberarParticion, ih]
    simp [inicializar, hesq, buildStaticPartitionList, hfree]
  pids := List.nodup_nil
  limites := by simp [inicializar]
  alojado := by simp [inicializar]

/-- Changing a process in place keeps the invariant if its region stays. -/
theorem Fijada.modificar
    {pid : UInt32} {f : MemPcb → MemPcb}
    (h : Fijada cfg g)
    (hf : ∀ p, buscarProcesoPorPid g pid = some p →
      (f p).pid = p.pid ∧ (f p).base = p.base ∧ (f p).limite = p.limite ∧
        (f p).size = p.size) :
    Fijada cfg (modificarProceso g pid f) where
  marco := h.marco
  pids := by
    rw [pids_modificar (fun p hp => (hf p hp).1)]
    exact h.pids
  limites := limites_modificar h.limites (fun p hp => (hf p hp).2)
  alojado q hq := by
    rcases mem_modifyFirst hq with hq | ⟨p, hp, rfl⟩
    · exact h.alojado q hq
    · obtain ⟨hpid, hbase, -, hsize⟩ := hf p hp
      obtain ⟨r, hr, hal⟩ := h.alojado p (List.mem_of_find?_eq_some hp)
      exact ⟨r, hr, hal.ocupada, hal.pid.trans hpid.symm, hal.base.trans hbase.symm,
        hsize ▸ hal.size⟩

/-- A new process in a free partition. -/
theorem Fijada.crear
    {selected : MemPartition} {partitions : List MemPartition} {criteria : Criteria}
    {pid size : UInt32}
    (h : Fijada cfg g)
    (hnew : buscarProcesoPorPid g pid = none)
    (halloc : allocateProcessInPartition g.partitionList size criteria pid =
      some (selected, partitions)) :
    Fijada cfg (crearProcesoMem { g with partitionList := partitions }
      pid selected.base (selected.base + size) size) := by
  obtain ⟨before, p, after, hlist, hfree, hfits, rfl, rfl⟩ :=
    allocateProcessInPartition_spec halloc
  refine ⟨?_, nodup_pids_crear _ _ _ h.pids hnew, limites_crear _ _ _ h.limites, ?_⟩
  · have hmarco := h.marco
    rw [hlist] at hmarco
    simpa [crearProcesoMem, liberarParticion] using hmarco
  · intro q hq
    rcases List.mem_append.mp hq with hq | hq
    · obtain ⟨r, hr, hal⟩ := h.alojado q hq
      refine ⟨r, ?_, hal⟩
      -- the partition of a resident process is not the free one that was taken
      have hne : r ≠ p := by
        rintro rfl
        rw [hal.ocupada] at hfree
        cases hfree
      rw [hlist] at hr
      rcases List.mem_append.mp hr with hr | hr
      · exact List.mem_append_left _ hr
      · refine List.mem_append_right _ (List.mem_cons_of_mem _ ?_)
        exact (List.mem_cons.mp hr).resolve_left hne
    · rw [List.mem_singleton.mp hq]
      exact ⟨{ p with isFree := false, pid := pid }, by simp [crearProcesoMem],
        rfl, rfl, rfl, hfits⟩

/-- A process that ends gives back its own partition only. -/
theorem Fijada.eliminar
    {pid : UInt32}
    (hesq : cfg.esquema = .fijas)
    (h : Fijada cfg g) :
    Fijada cfg (eliminarProcesoMem cfg g pid) := by
  simp only [eliminarProcesoMem, hesq]
  split_ifs with hfound
  · refine ⟨?_, ?_, ?_, ?_⟩
    · refine (map_modifyFirst (fun q _ => ?_)).trans h.marco
      rfl
    · exact h.pids.sublist (List.eraseP_sublist.map MemPcb.pid)
    · exact fun q hq => h.limites q (List.mem_of_mem_eraseP hq)
    · intro q hq
      have hmem := List.mem_of_mem_eraseP hq
      obtain ⟨r, hr, hal⟩ := h.alojado q hmem
      refine ⟨r, mem_modifyFirst_of_neg hr ?_, hal⟩
      -- the PIDs are distinct, so what is left has another one
      have hpid : q.pid ≠ pid := by
        obtain ⟨p, hp⟩ := Option.isSome_iff_exists.mp hfound
        obtain ⟨a, l₁, l₂, -, ha, hsplit, herase⟩ :=
          List.exists_of_eraseP (List.mem_of_find?_eq_some hp) (List.find?_some hp)
        have hnodup := h.pids
        rw [hsplit] at hnodup
        simp only [herase, List.mem_append] at hq
        simp only [List.map_append, List.map_cons, List.nodup_append, List.nodup_cons,
          List.mem_map, List.mem_cons] at hnodup
        simp only [beq_iff_eq] at ha
        rintro rfl
        rcases hq with hq | hq
        · exact hnodup.2.2 q.pid ⟨q, hq, rfl⟩ a.pid (Or.inl rfl) ha.symm
        · exact hnodup.2.1.1 ⟨q, hq, ha.symm⟩
      simpa [hal.pid] using hpid
  · exact h

/-- One request keeps the invariant. -/
theorem Fijada.step
    {g' : Globals} {p : Peticion}
    (hesq : cfg.esquema = .fijas)
    (h : Fijada cfg g)
    (hreg : Regular g p)
    (hstep : atiende cfg g p = some g') :
    Fijada cfg g' := by
  cases efecto_of_atiende hstep with
  | processCreate pid size =>
      simp only [verificarEspacioYCrearProceso, hesq]
      split
      · exact h
      · exact h.crear hreg ‹_›
  | processExit pid =>
      exact h.eliminar hesq
  | threadCreate pid tid filePath =>
      unfold verificarYAgregarHilo
      split
      · exact h
      · exact h.modificar (fun _ _ => ⟨rfl, rfl, rfl, rfl⟩)
  | threadExit pid tid =>
      have hne : cfg.esquema ≠ .dinamicas := by
        simp [hesq]
      simp only [eliminarHiloMem, if_neg hne]
      split
      · exact h
      · split_ifs
        · exact h.modificar (fun _ _ => ⟨rfl, rfl, rfl, rfl⟩)
        · exact h
  | executionContextUpdate pid tid r =>
      exact h.modificar (fun q hq => ⟨rfl, (hreg q hq).1, (hreg q hq).2, rfl⟩)
  | consulta p g' hprocs hlist =>
      exact ⟨hlist ▸ h.marco, hprocs ▸ h.pids, hprocs ▸ h.limites,
        hprocs ▸ hlist ▸ h.alojado⟩

end Steps

end Memoria
end SinIdeas
