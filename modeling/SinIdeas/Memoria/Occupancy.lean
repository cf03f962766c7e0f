import SinIdeas.Lib.Runs
import SinIdeas.Memoria.FixedPartitions

/-!
# Occupation of the fixed partitions

Who occupies a partition is recorded twice, in the partition and in the process
table. The two agree: the PIDs of the occupied partitions are, up to order, the PIDs
of the table. The PID `-1` stands for a free partition, so no process may have it.
-/

namespace SinIdeas
namespace Memoria

open Lib

/-- The PIDs that the occupied partitions record. -/
def pidsOcupados (l : List MemPartition) : List UInt32 :=
  (l.filter (fun q => !q.isFree)).map MemPartition.pid

/-- The two records of the occupation agree. -/
structure Ocupacion (g : Globals) : Prop where
  libres : ∀ q ∈ g.partitionList, q.isFree = true → q.pid = pidLibre
  residentes : pidLibre ∉ g.memoryProcessList.map MemPcb.pid
  ocupantes : (pidsOcupados g.partitionList).Perm (g.memoryProcessList.map MemPcb.pid)

/-- The requests of the fixed scheme: those of `Regular`, and the PID of a free partition
is not given to a process. -/
def RegularFija (g : Globals) (p : Peticion) : Prop :=
  Regular g p ∧
    match p with
    | .processCreate pid _ => pid ≠ pidLibre
    | _ => True

section Lists

@[simp] theorem pidsOcupados_append (l m : List MemPartition) :
    pidsOcupados (l ++ m) = pidsOcupados l ++ pidsOcupados m := by
  simp [pidsOcupados]

@[simp] theorem pidsOcupados_cons_free
    {q : MemPartition}
    (h : q.isFree = true) (l : List MemPartition) :
    pidsOcupados (q :: l) = pidsOcupados l := by
  simp [pidsOcupados, h]

@[simp] theorem pidsOcupados_cons_occupied
    {q : MemPartition}
    (h : q.isFree = false) (l : List MemPartition) :
    pidsOcupados (q :: l) = q.pid :: pidsOcupados l := by
  simp [pidsOcupados, h]

theorem mem_pidsOcupados
    {l : List MemPartition} {pid : UInt32} :
    pid ∈ pidsOcupados l ↔ ∃ q ∈ l, q.isFree = false ∧ q.pid = pid := by
  simp [pidsOcupados, and_assoc]

/-- Occupied partitions with different PIDs, place by place. -/
theorem pidsOcupados_nodup_pairwise
    {l : List MemPartition}
    (h : (pidsOcupados l).Nodup) :
    l.Pairwise (fun a b => a.isFree = false → b.isFree = false → a.pid ≠ b.pid) := by
  rw [pidsOcupados, List.Nodup, List.pairwise_map, List.pairwise_filter] at h
  refine h.imp (fun hab ha hb => hab (by simp [ha]) (by simp [hb]))

end Lists

section Steps

variable {cfg : Config} {g : Globals}

theorem ocupacion_inicializar
    (hesq : cfg.esquema = .fijas) :
    Ocupacion (inicializar cfg) := by
  have hfree : ∀ (base : UInt32) (sizes : List UInt32), ∀ q ∈ staticPartitions base sizes,
      q.isFree = true ∧ q.pid = pidLibre := by
    intro base sizes
    induction sizes generalizing base with
    | nil =>
        simp [staticPartitions]
    | cons size sizes ih =>
        intro q hq
        rcases List.mem_cons.mp hq with rfl | hq
        · exact ⟨rfl, rfl⟩
        · exact ih _ q hq
  have hlist : (inicializar cfg).partitionList = staticPartitions 0 cfg.particiones := by
    simp [inicializar, hesq, buildStaticPartitionList]
  refine ⟨?_, ?_, ?_⟩
  · rw [hlist]
    exact fun q hq _ => (hfree _ _ q hq).2
  · simp [inicializar]
  · have hnone : pidsOcupados (inicializar cfg).partitionList = [] := by
      rw [hlist, pidsOcupados, List.map_eq_nil_iff, List.filter_eq_nil_iff]
      intro q hq
      simp [(hfree _ _ q hq).1]
    rw [hnone]
    exact List.Perm.refl _

/-- Tables with the same PIDs and the same partitions. -/
theorem Ocupacion.of_eq
    {g' : Globals}
    (h : Ocupacion g)
    (hpids : g'.memoryProcessList.map MemPcb.pid = g.memoryProcessList.map MemPcb.pid)
    (hlist : g'.partitionList = g.partitionList) :
    Ocupacion g' :=
  ⟨hlist ▸ h.libres, hpids ▸ h.residentes, hpids ▸ hlist ▸ h.ocupantes⟩

theorem Ocupacion.modificar
    {pid : UInt32} {f : MemPcb → MemPcb}
    (h : Ocupacion g)
    (hf : ∀ p, (f p).pid = p.pid) :
    Ocupacion (modificarProceso g pid f) :=
  h.of_eq (pids_modificar (fun p _ => hf p)) rfl

/-- A process is placed in a free partition. -/
theorem Ocupacion.crear
    {selected : MemPartition} {partitions : List MemPartition} {criteria : Criteria}
    {pid size : UInt32} {base limite : UInt32}
    (h : Ocupacion g)
    (hpid : pid ≠ pidLibre)
    (halloc : allocateProcessInPartition g.partitionList size criteria pid =
      some (selected, partitions)) :
    Ocupacion (crearProcesoMem { g with partitionList := partitions } pid base limite size) := by
  obtain ⟨before, p, after, hlist, hfree, -, rfl, rfl⟩ := allocateProcessInPartition_spec halloc
  have hocup : pidsOcupados g.partitionList = pidsOcupados before ++ pidsOcupados after := by
    rw [hlist, pidsOcupados_append, pidsOcupados_cons_free hfree]
  refine ⟨?_, ?_, ?_⟩
  · intro q hq hqfree
    rcases List.mem_append.mp hq with hq | hq
    · exact h.libres q (hlist ▸ List.mem_append_left _ hq) hqfree
    · rcases List.mem_cons.mp hq with rfl | hq
      · cases hqfree
      · exact h.libres q (hlist ▸ List.mem_append_right _ (List.mem_cons_of_mem _ hq)) hqfree
  · simp only [crearProcesoMem, List.map_append, List.mem_append, not_or]
    exact ⟨h.residentes, by simpa [nuevoProceso] using hpid.symm⟩
  · have hperm := h.ocupantes
    rw [hocup] at hperm
    simp only [crearProcesoMem, pidsOcupados_append, List.map_append, List.map_cons, List.map_nil,
      nuevoProceso]
    rw [pidsOcupados_cons_occupied rfl]
    exact List.perm_middle.trans ((hperm.cons pid).trans (List.perm_append_singleton _ _).symm)

/-- The partition of a process that ends is the first one with its PID. -/
theorem Ocupacion.eliminar
    {pid : UInt32}
    (hesq : cfg.esquema = .fijas)
    (h : Ocupacion g) :
    Ocupacion (eliminarProcesoMem cfg g pid) := by
  simp only [eliminarProcesoMem, hesq]
  split_ifs with hfound
  · obtain ⟨p, hp⟩ := Option.isSome_iff_exists.mp hfound
    have hppid : p.pid = pid := by
      simpa using List.find?_some hp
    have hresident : pid ∈ g.memoryProcessList.map MemPcb.pid :=
      List.mem_map.mpr ⟨p, List.mem_of_find?_eq_some hp, hppid⟩
    have hne : pid ≠ pidLibre := fun heq => h.residentes (heq ▸ hresident)
    -- some partition has the PID, and the first one that has it is occupied
    obtain ⟨r, hr, hrocc, hrpid⟩ := mem_pidsOcupados.mp (h.ocupantes.mem_iff.mpr hresident)
    obtain ⟨q, hq⟩ : ∃ q, g.partitionList.find? (fun q => q.pid == pid) = some q := by
      refine Option.isSome_iff_exists.mp ?_
      rw [List.find?_isSome]
      exact ⟨r, hr, by simp [hrpid]⟩
    have hqpid : q.pid = pid := by
      simpa using List.find?_some hq
    have hqocc : q.isFree = false := by
      cases hfree : q.isFree with
      | false => rfl
      | true =>
          exact absurd (hqpid.symm.trans (h.libres q (List.mem_of_find?_eq_some hq) hfree)) hne
    obtain ⟨a, b, hlist, hmod⟩ := modifyFirst_split (f := liberarParticion) hq
    refine ⟨?_, ?_, ?_⟩
    · intro s hs hsfree
      rcases mem_modifyFirst hs with hs | ⟨s, -, rfl⟩
      · exact h.libres s hs hsfree
      · rfl
    · exact fun hmem => h.residentes ((List.eraseP_sublist.map MemPcb.pid).subset hmem)
    · have htable : (g.memoryProcessList.eraseP (fun p => p.pid == pid)).map MemPcb.pid =
          (g.memoryProcessList.map MemPcb.pid).erase pid := by
        rw [List.erase_eq_eraseP', List.eraseP_map]
        rfl
      have hperm := h.ocupantes.erase pid
      simp only [htable, hmod, pidsOcupados_append]
      rw [hlist, pidsOcupados_append, pidsOcupados_cons_occupied hqocc, hqpid] at hperm
      rw [pidsOcupados_cons_free rfl]
      refine List.Perm.trans ?_ hperm
      have hmid : (pidsOcupados a ++ pid :: pidsOcupados b).Perm (pid :: (pidsOcupados a ++ pidsOcupados b)) :=
        List.perm_middle
      simpa using (hmid.erase pid).symm
  · exact h

/-- One request keeps the two records in agreement. -/
theorem Ocupacion.step
    {g' : Globals} {p : Peticion}
    (hesq : cfg.esquema = .fijas)
    (h : Ocupacion g)
    (hreg : RegularFija g p)
    (hstep : atiende cfg g p = some g') :
    Ocupacion g' := by
  cases efecto_of_atiende hstep with
  | processCreate pid size =>
      simp only [verificarEspacioYCrearProceso, hesq]
      split
      · exact h
      · exact h.crear hreg.2 ‹_›
  | processExit pid =>
      exact h.eliminar hesq
  | threadCreate pid tid filePath =>
      unfold verificarYAgregarHilo
      split
      · exact h
      · exact h.modificar (fun _ => rfl)
  | threadExit pid tid =>
      have hne : cfg.esquema ≠ .dinamicas := by
        simp [hesq]
      simp only [eliminarHiloMem, if_neg hne]
      split
      · exact h
      · split_ifs
        · exact h.modificar (fun _ => rfl)
        · exact h
  | executionContextUpdate pid tid r =>
      exact h.modificar (fun _ => rfl)
  | consulta p g' hprocs hlist =>
      exact h.of_eq (by rw [hprocs]) hlist

end Steps

/-- The partitions follow one another without gaps from `base` on. -/
def Contiguas (base : UInt32) : List MemPartition → Prop
  | [] => True
  | q :: qs => q.base = base ∧ Contiguas q.limite qs

/-- The process has the partition: the partition records its PID, and its region starts
where the partition starts and lies inside it. -/
structure Ocupa (p : MemPcb) (q : MemPartition) : Prop where
  ocupada : q.isFree = false
  pid : q.pid = p.pid
  base : p.base = q.base
  dentro : p.base.toNat + p.size.toNat ≤ q.limite.toNat
  limite : p.limite.toNat = p.base.toNat + p.size.toNat

/-- What the fixed scheme promises: the places of the partitions are the configured ones,
each partition is free or has exactly one process, each process has exactly one
partition, and a process that ends frees its own partition and changes no other. -/
structure ParticionesFijas (cfg : Config) (g : Globals) : Prop where
  lugares : g.partitionList.map (fun q => (q.base, q.limite)) =
    (inicializar cfg).partitionList.map (fun q => (q.base, q.limite))
  contiguas : Contiguas 0 g.partitionList
  particion : ∀ q ∈ g.partitionList, (q.isFree = true ∧ q.pid = pidLibre) ∨
    ∃ p ∈ g.memoryProcessList, Ocupa p q ∧
      ∀ p' ∈ g.memoryProcessList, p'.base = q.base ∨ p'.pid = q.pid → p' = p
  proceso : ∀ p ∈ g.memoryProcessList, ∃ i q, g.partitionList[i]? = some q ∧ Ocupa p q ∧
    (∀ j r, g.partitionList[j]? = some r → r.base = p.base ∨ r.pid = p.pid → j = i) ∧
    (eliminarProcesoMem cfg g p.pid).partitionList =
      g.partitionList.set i (liberarParticion q)

section Guarantee

variable {cfg : Config} {g : Globals}

theorem contiguas_staticPartitions (base : UInt32) (sizes : List UInt32) :
    Contiguas base (staticPartitions base sizes) := by
  induction sizes generalizing base with
  | nil =>
      trivial
  | cons size sizes ih =>
      exact ⟨rfl, ih (base + size)⟩

theorem contiguas_map_liberar
    {base : UInt32} {l : List MemPartition}
    (h : Contiguas base (l.map liberarParticion)) :
    Contiguas base l := by
  induction l generalizing base with
  | nil =>
      trivial
  | cons q l ih =>
      exact ⟨h.1, ih h.2⟩

theorem size_of_mem_staticPartitions
    {base : UInt32} {sizes : List UInt32} {q : MemPartition}
    (hq : q ∈ staticPartitions base sizes) :
    q.size ∈ sizes := by
  induction sizes generalizing base with
  | nil =>
      simp [staticPartitions] at hq
  | cons size sizes ih =>
      rcases List.mem_cons.mp hq with rfl | hq
      · exact List.mem_cons_self ..
      · exact List.mem_cons_of_mem _ (ih hq)

variable (hpos : ∀ size ∈ cfg.particiones, 0 < size)
  (hfit : bytesConfigurados cfg.particiones < 2 ^ 32)

include hfit

theorem Fijada.packed
    (h : Fijada cfg g) :
    Packed MemPartition.lo MemPartition.hi 0 4294967295 (g.partitionList.map liberarParticion) := by
  rw [h.marco]
  have hmax : (0 : UInt32).toNat + bytesConfigurados cfg.particiones ≤
      (4294967295 : UInt32).toNat := by
    simp only [UInt32.toNat_zero, UInt32.reduceToNat]
    omega
  exact packed_staticPartitions hmax

/-- A partition ends where its size says, as numbers. -/
theorem Fijada.limite_particion
    {q : MemPartition}
    (h : Fijada cfg g)
    (hq : q ∈ g.partitionList) :
    q.limite.toNat = q.base.toNat + q.size.toNat := by
  have hmem : liberarParticion q ∈ buildStaticPartitionList cfg.particiones := by
    rw [← h.marco]
    exact List.mem_map_of_mem hq
  have hlimite : q.limite = q.base + q.size :=
    limite_of_mem_staticPartitions (q := liberarParticion q) hmem
  obtain ⟨-, hle, -⟩ := (h.packed hfit).mem_bounds (List.mem_map_of_mem hq)
  simp only [MemPartition.lo, MemPartition.hi, liberarParticion] at hle
  rw [hlimite, UInt32.toNat_add] at hle ⊢
  have hb := q.base.toNat_lt
  have hs := q.size.toNat_lt
  omega

include hpos

/-- No two partitions start at the same place. -/
theorem Fijada.bases_crecen
    (h : Fijada cfg g) :
    g.partitionList.Pairwise (fun a b => a.base.toNat < b.base.toNat) := by
  have hpair := (h.packed hfit).pairwise
  rw [List.pairwise_map] at hpair
  refine hpair.imp_of_mem (fun {a b} ha _ hab => ?_)
  have hmem : liberarParticion a ∈ buildStaticPartitionList cfg.particiones := by
    rw [← h.marco]
    exact List.mem_map_of_mem ha
  have hsize := UInt32.lt_iff_toNat_lt.mp (hpos a.size (size_of_mem_staticPartitions (q := liberarParticion a) hmem))
  have hlimite := h.limite_particion hfit ha
  simp only [MemPartition.lo, MemPartition.hi, liberarParticion, UInt32.toNat_zero] at hab hsize
  omega

/-- A partition is determined by its base. -/
theorem Fijada.index_of_base
    {i j : Nat} {q r : MemPartition}
    (h : Fijada cfg g)
    (hi : g.partitionList[i]? = some q)
    (hj : g.partitionList[j]? = some r)
    (hbase : r.base = q.base) :
    j = i := by
  obtain ⟨hilt, rfl⟩ := List.getElem?_eq_some_iff.mp hi
  obtain ⟨hjlt, rfl⟩ := List.getElem?_eq_some_iff.mp hj
  have hpair := List.pairwise_iff_getElem.mp (h.bases_crecen hpos hfit)
  rcases lt_trichotomy i j with hij | hij | hij
  · have hlt := hpair i j hilt hjlt hij
    rw [hbase] at hlt
    omega
  · exact hij.symm
  · have hlt := hpair j i hjlt hilt hij
    rw [hbase] at hlt
    omega

omit hpos hfit in
/-- An occupied partition is determined by its PID. -/
theorem Ocupacion.index_of_pid
    {i j : Nat} {q r : MemPartition}
    (h : Ocupacion g)
    (hpids : (g.memoryProcessList.map MemPcb.pid).Nodup)
    (hi : g.partitionList[i]? = some q)
    (hocc : q.isFree = false)
    (hj : g.partitionList[j]? = some r)
    (hpid : r.pid = q.pid) :
    j = i := by
  have hresident : q.pid ∈ g.memoryProcessList.map MemPcb.pid :=
    h.ocupantes.mem_iff.mp (mem_pidsOcupados.mpr ⟨q, List.mem_of_getElem? hi, hocc, rfl⟩)
  have hrocc : r.isFree = false := by
    cases hfree : r.isFree with
    | false => rfl
    | true =>
        have hlibre := h.libres r (List.mem_of_getElem? hj) hfree
        rw [hpid] at hlibre
        exact absurd (hlibre ▸ hresident) h.residentes
  have hpair := List.pairwise_iff_getElem.mp
    (pidsOcupados_nodup_pairwise (h.ocupantes.nodup_iff.mpr hpids))
  obtain ⟨hilt, rfl⟩ := List.getElem?_eq_some_iff.mp hi
  obtain ⟨hjlt, rfl⟩ := List.getElem?_eq_some_iff.mp hj
  rcases lt_trichotomy i j with hij | hij | hij
  · exact absurd hpid.symm (hpair i j hilt hjlt hij hocc hrocc)
  · exact hij.symm
  · exact absurd hpid (hpair j i hjlt hilt hij hrocc hocc)

omit hpos in
/-- A process is inside the partition that it was given. -/
theorem Fijada.ocupa
    {p : MemPcb} {q : MemPartition}
    (h : Fijada cfg g)
    (hp : p ∈ g.memoryProcessList)
    (hq : q ∈ g.partitionList)
    (hal : Aloja q p) :
    Ocupa p q := by
  have hlimite := h.limite_particion hfit hq
  have hsize := UInt32.le_iff_toNat_le.mp hal.size
  have hlt := q.limite.toNat_lt
  have hdentro : p.base.toNat + p.size.toNat ≤ q.limite.toNat := by
    rw [hlimite, ← hal.base]
    omega
  refine ⟨hal.ocupada, hal.pid, hal.base.symm, hdentro, ?_⟩
  rw [h.limites p hp, UInt32.toNat_add]
  omega

/-- The invariants give the promise. -/
theorem Fijada.particionesFijas
    (hesq : cfg.esquema = .fijas)
    (h : Fijada cfg g)
    (ho : Ocupacion g) :
    ParticionesFijas cfg g := by
  have hsame : ∀ {p p' : MemPcb}, p ∈ g.memoryProcessList → p' ∈ g.memoryProcessList →
      p'.pid = p.pid → p' = p :=
    fun hp hp' hpid => List.inj_on_of_nodup_map h.pids hp' hp hpid
  refine ⟨?_, ?_, ?_, ?_⟩
  · have hinit : (inicializar cfg).partitionList = g.partitionList.map liberarParticion := by
      rw [h.marco]
      simp [inicializar, hesq]
    rw [hinit, List.map_map]
    rfl
  · refine contiguas_map_liberar ?_
    rw [h.marco]
    exact contiguas_staticPartitions 0 cfg.particiones
  · intro q hq
    obtain ⟨i, hi⟩ := List.mem_iff_getElem?.mp hq
    cases hfree : q.isFree with
    | true =>
        exact Or.inl ⟨rfl, ho.libres q hq hfree⟩
    | false =>
        -- the process with the PID that the partition records is the one placed in it
        obtain ⟨p, hp, hpid⟩ := List.mem_map.mp
          (ho.ocupantes.mem_iff.mp (mem_pidsOcupados.mpr ⟨q, hq, hfree, rfl⟩))
        obtain ⟨r, hr, hal⟩ := h.alojado p hp
        obtain ⟨j, hj⟩ := List.mem_iff_getElem?.mp hr
        obtain rfl := ho.index_of_pid h.pids hi hfree hj (hal.pid.trans hpid)
        obtain rfl : q = r := Option.some.inj (hi.symm.trans hj)
        refine Or.inr ⟨p, hp, h.ocupa hfit hp hq hal, ?_⟩
        rintro p' hp' (hbase | hpid')
        · obtain ⟨r', hr', hal'⟩ := h.alojado p' hp'
          obtain ⟨j', hj'⟩ := List.mem_iff_getElem?.mp hr'
          obtain rfl := h.index_of_base hpos hfit hi hj' (hal'.base.trans hbase)
          obtain rfl : q = r' := Option.some.inj (hi.symm.trans hj')
          exact hsame hp hp' (hal'.pid.symm.trans hal.pid)
        · exact hsame hp hp' (hpid'.trans hal.pid)
  · intro p hp
    obtain ⟨q, hq, hal⟩ := h.alojado p hp
    obtain ⟨i, hi⟩ := List.mem_iff_getElem?.mp hq
    have hindex : ∀ j r, g.partitionList[j]? = some r → r.pid = p.pid → j = i :=
      fun j r hj hpid => ho.index_of_pid h.pids hi hal.ocupada hj (hpid.trans hal.pid.symm)
    refine ⟨i, q, hi, h.ocupa hfit hp hq hal, ?_, ?_⟩
    · rintro j r hj (hbase | hpid)
      · exact h.index_of_base hpos hfit hi hj (hbase.trans hal.base.symm)
      · exact hindex j r hj hpid
    · have hfound : (buscarProcesoPorPid g p.pid).isSome := by
        rw [buscarProcesoPorPid, List.find?_isSome]
        exact ⟨p, hp, beq_self_eq_true _⟩
      simp only [eliminarProcesoMem, hfound, if_true, hesq]
      refine modifyFirst_eq_set hi (by simp [hal.pid]) (fun j r hji hj => ?_)
      have hne : r.pid ≠ p.pid := fun hpid => by
        have heq := hindex j r hj hpid
        omega
      simpa using hne

end Guarantee

/-- Under ESQUEMA=FIJAS the partitions isolate the processes and are given back, after
every sequence of requests in which no process has the PID of a free partition. -/
theorem fixed_partitions_isolate
    {cfg : Config} {peticiones : List Peticion} {g : Globals}
    (hesq : cfg.esquema = .fijas)
    (hpos : ∀ size ∈ cfg.particiones, 0 < size)
    (hfit : bytesConfigurados cfg.particiones < 2 ^ 32)
    (hrun : Run (fun g p g' => atiende cfg g p = some g') RegularFija
      (inicializar cfg) peticiones g) :
    ParticionesFijas cfg g := by
  have hinv : Fijada cfg g ∧ Ocupacion g :=
    hrun.invariant (I := fun g => Fijada cfg g ∧ Ocupacion g)
      ⟨fijada_inicializar hesq, ocupacion_inicializar hesq⟩
      (fun h hreg hstep => ⟨h.1.step hesq hreg.1 hstep, h.2.step hesq hreg hstep⟩)
  exact hinv.1.particionesFijas hpos hfit hesq hinv.2

/-- Two partitions, the first too small for a process of 16 bytes. -/
def configFijas : Config where
  esquema := .fijas
  algoritmoBusqueda := .first
  tamMemoria := 40
  particiones := [8, 32]
  scripts := fun _ => none
  listSort := fun _ l => l

instance decidableRegularFija (g : Globals) (p : Peticion) : Decidable (RegularFija g p) :=
  match p with
  | .processCreate pid size =>
      inferInstanceAs (Decidable (Regular g (.processCreate pid size) ∧ pid ≠ pidLibre))
  | .processExit .. | .threadCreate .. | .threadExit .. | .instructionRequest ..
  | .executionContext .. | .executionContextUpdate .. | .readMemRequest ..
  | .writeMemRequest .. => inferInstanceAs (Decidable (Regular g _ ∧ True))

/-- A partition that is used twice. -/
theorem fixed_partitions_isolate_8_32 :
    ∃ h : (execute (atiende configFijas) (inicializar configFijas)
        [.processCreate 0 16, .processExit 0, .processCreate 1 8]).isSome = true,
      ParticionesFijas configFijas ((execute (atiende configFijas) (inicializar configFijas)
        [.processCreate 0 16, .processExit 0, .processCreate 1 8]).get h) :=
  ⟨by decide, fixed_partitions_isolate rfl (by simp [configFijas]) (by decide)
    (run_of_isSome (atiende configFijas) id (by decide) _)⟩

/-- The process with PID `-1` gives back the first free partition instead of its own,
which stays occupied without a process. -/
theorem fixed_partition_not_released :
    ¬ ∀ (cfg : Config) (peticiones : List Peticion) (g : Globals),
        cfg.esquema = .fijas →
        (∀ size ∈ cfg.particiones, 0 < size) →
        bytesConfigurados cfg.particiones < 2 ^ 32 →
        Run (fun g p g' => atiende cfg g p = some g') Regular (inicializar cfg) peticiones g →
        ParticionesFijas cfg g := by
  intro hclaim
  have hrun : Run (fun g p g' => atiende configFijas g p = some g') Regular
      (inicializar configFijas) [.processCreate pidLibre 16, .processExit pidLibre] _ :=
    run_of_isSome (atiende configFijas) id (by decide) (by decide)
  have hfijas := hclaim configFijas _ _ rfl (by simp [configFijas]) (by decide) hrun
  rcases hfijas.particion
      { pid := pidLibre, base := 8, limite := 40, size := 32, isFree := false }
      (by decide) with ⟨hfree, -⟩ | ⟨p, hp, -⟩
  · cases hfree
  · exact List.not_mem_nil hp

end Memoria
end SinIdeas
