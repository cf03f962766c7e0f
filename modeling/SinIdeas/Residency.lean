import SinIdeas.Kernel.LiveThreads
import SinIdeas.Memoria.Occupancy
import SinIdeas.Memoria.ProcessEntry
import SinIdeas.Memoria.Rebuild

/-!
# The table of memoria as residency

The process table, up to its order, is the residency that the kernel counts on: the
requests of the kernel change it as it expects, and those of the CPU leave it and the
partitions alone. What is free and what is occupied follows the table.
-/

namespace SinIdeas
namespace Memoria

open Lib
open Kernel (Residencia)

/-- PID and TID of the contexts of a process. -/
def MemPcb.claves (p : MemPcb) : List (UInt32 × UInt32) :=
  p.threads.map (fun hilo => (p.pid, hilo.tid))

/-- The table, up to its order. -/
def residencia (g : Globals) : Residencia where
  procesos := ↑(g.memoryProcessList.map MemPcb.pid)
  hilos := ↑(g.memoryProcessList.flatMap MemPcb.claves)

section Table

variable {cfg : Config} {g g' : Globals} {pid tid : UInt32} {p : MemPcb}

theorem residencia_of_perm
    (h : g'.memoryProcessList.Perm g.memoryProcessList) :
    residencia g' = residencia g :=
  Residencia.ext (Multiset.coe_eq_coe.mpr (h.map MemPcb.pid))
    (Multiset.coe_eq_coe.mpr (h.flatMap_right MemPcb.claves))

/-- A process that is changed in place: the contexts of the others stay. -/
theorem residencia_modificar
    {f : MemPcb → MemPcb}
    (hp : buscarProcesoPorPid g pid = some p)
    (hf : (f p).pid = p.pid) :
    (residencia (modificarProceso g pid f)).procesos = (residencia g).procesos ∧
      ∃ rest : Multiset (UInt32 × UInt32), (residencia g).hilos = ↑p.claves + rest ∧
        (residencia (modificarProceso g pid f)).hilos = ↑(f p).claves + rest := by
  obtain ⟨rest, hold, hnew⟩ := flatMap_modifyFirst (f := f) (g := MemPcb.claves) hp
  refine ⟨?_, ↑rest, ?_, ?_⟩
  · have hpids : (modificarProceso g pid f).memoryProcessList.map MemPcb.pid =
        g.memoryProcessList.map MemPcb.pid := by
      refine pids_modificar (fun q hq => ?_)
      obtain rfl := Option.some.inj (hp.symm.trans hq)
      exact hf
    exact congrArg (fun l : List UInt32 => (↑l : Multiset UInt32)) hpids
  · exact Multiset.coe_eq_coe.mpr hold
  · exact Multiset.coe_eq_coe.mpr hnew

theorem mem_claves :
    (pid, tid) ∈ p.claves ↔
      p.pid = pid ∧ (p.threads.find? (fun hilo => hilo.tid == tid)).isSome = true := by
  simp only [MemPcb.claves, List.mem_map, Prod.mk.injEq, List.find?_isSome, beq_iff_eq]
  constructor
  · rintro ⟨hilo, hhilo, hpid, htid⟩
    exact ⟨hpid, hilo, hhilo, htid⟩
  · rintro ⟨hpid, hilo, hhilo, htid⟩
    exact ⟨hilo, hhilo, hpid, htid⟩

/-- A context that the table has is the one that is found. -/
theorem mem_hilos
    (hpids : (g.memoryProcessList.map MemPcb.pid).Nodup) :
    (pid, tid) ∈ (residencia g).hilos ↔
      ∃ p, buscarProcesoPorPid g pid = some p ∧
        (p.threads.find? (fun hilo => hilo.tid == tid)).isSome = true := by
  simp only [residencia, Multiset.mem_coe, List.mem_flatMap, mem_claves, buscarProcesoPorPid,
    find?_key_iff hpids, and_assoc]

theorem mem_procesos :
    pid ∈ (residencia g).procesos ↔ (buscarProcesoPorPid g pid).isSome = true := by
  simp [residencia, buscarProcesoPorPid]

theorem residencia_crear
    (g : Globals) (pid base limite size : UInt32) :
    residencia (crearProcesoMem g pid base limite size) = (residencia g).conProceso pid := by
  refine Residencia.ext ?_ ?_
  · simp only [residencia, crearProcesoMem, Residencia.conProceso, List.map_append,
      List.map_singleton, nuevoProceso, Multiset.cons_coe, Multiset.coe_eq_coe]
    exact List.perm_append_singleton pid _
  · simp [residencia, crearProcesoMem, Residencia.conProceso, nuevoProceso, MemPcb.claves]

/-- PROCESS_CREATE, in a scheme that exists. -/
theorem residencia_verificarEspacio
    (hperm : ∀ l, (cfg.listSort ordenarPorBase l).Perm l)
    (hesq : cfg.esquema ≠ .otro)
    (g : Globals) (pid size : UInt32) :
    residencia (verificarEspacioYCrearProceso cfg g pid size).1 =
      if (verificarEspacioYCrearProceso cfg g pid size).2 then (residencia g).conProceso pid
      else residencia g := by
  cases hscheme : cfg.esquema with
  | otro =>
      exact absurd hscheme hesq
  | fijas =>
      simp only [verificarEspacioYCrearProceso, hscheme]
      split
      · rfl
      · exact residencia_crear _ _ _ _ _
  | dinamicas =>
      simp only [verificarEspacioYCrearProceso, hscheme]
      split
      · rfl
      · rw [residencia_of_perm (memoryProcessList_update_perm hperm _)]
        exact residencia_crear _ _ _ _ _

/-- THREAD_CREATE. -/
theorem residencia_agregarHilo
    (g : Globals) (pid tid : UInt32) (filePath : List Char) :
    ((verificarYAgregarHilo g pid tid filePath).2 = true ↔ pid ∈ (residencia g).procesos) ∧
      residencia (verificarYAgregarHilo g pid tid filePath).1 =
        if (verificarYAgregarHilo g pid tid filePath).2 then (residencia g).conHilo (pid, tid)
        else residencia g := by
  rw [mem_procesos]
  cases hp : buscarProcesoPorPid g pid with
  | none =>
      simp [verificarYAgregarHilo, hp]
  | some p =>
      simp only [verificarYAgregarHilo, hp, Option.isSome_some, if_true, true_and, iff_self]
      obtain ⟨hprocs, rest, hold, hnew⟩ := residencia_modificar (f := fun proceso =>
        { proceso with threads := proceso.threads ++ [nuevoHilo tid filePath] }) hp rfl
      refine Residencia.ext hprocs ?_
      rw [hnew, Residencia.conHilo, hold, ← Multiset.cons_add, Multiset.cons_coe]
      refine congrArg (· + rest) (Multiset.coe_eq_coe.mpr ?_)
      rw [← buscarProcesoPorPid_pid hp]
      simp only [MemPcb.claves, List.map_append, List.map_singleton, nuevoHilo]
      exact List.perm_append_singleton _ _

/-- With no PID twice, the entry that is erased is all that there is with its PID. -/
theorem eraseP_eq_filter
    {l : List MemPcb}
    (hpids : (l.map MemPcb.pid).Nodup) :
    l.eraseP (fun proceso => proceso.pid == pid) = l.filter (fun proceso => proceso.pid ≠ pid) := by
  induction l with
  | nil =>
      rfl
  | cons q l ih =>
      rw [List.map_cons, List.nodup_cons] at hpids
      by_cases hq : q.pid = pid
      · have hrest : ∀ a ∈ l, a.pid ≠ pid := fun a ha heq =>
          hpids.1 (hq ▸ heq ▸ List.mem_map_of_mem ha)
        rw [List.eraseP_cons_of_pos (by simpa using hq),
          List.filter_cons_of_neg (by simpa using hq),
          List.filter_eq_self.mpr (by simpa using hrest)]
      · rw [List.eraseP_cons_of_neg (by simpa using hq),
          List.filter_cons_of_pos (by simpa using hq), ih hpids.2]

/-- PROCESS_EXIT, whether the process is there or not. -/
theorem residencia_eliminarProceso
    (hperm : ∀ l, (cfg.listSort ordenarPorBase l).Perm l)
    (hpids : (g.memoryProcessList.map MemPcb.pid).Nodup)
    (pid : UInt32) :
    residencia (eliminarProcesoMem cfg g pid) = (residencia g).sinProceso pid := by
  have htable : (eliminarProcesoMem cfg g pid).memoryProcessList.Perm
      (g.memoryProcessList.filter (fun proceso => proceso.pid ≠ pid)) := by
    rw [← eraseP_eq_filter hpids]
    unfold eliminarProcesoMem
    split_ifs with hfound
    · simp only
      split
      · exact memoryProcessList_update_perm hperm _
      · exact List.Perm.refl _
      · exact List.Perm.refl _
    · rw [List.eraseP_of_forall_not]
      simpa [buscarProcesoPorPid] using hfound
  refine Residencia.ext ?_ ?_
  · refine (Multiset.coe_eq_coe.mpr (htable.map MemPcb.pid)).trans ?_
    rw [Residencia.sinProceso, residencia, Multiset.filter_coe, List.filter_map]
    rfl
  · refine (Multiset.coe_eq_coe.mpr (htable.flatMap_right MemPcb.claves)).trans ?_
    rw [Residencia.sinProceso, residencia, Multiset.filter_coe]
    refine congrArg _ ?_
    -- the contexts of an entry have its PID, so they all go or all stay
    induction g.memoryProcessList with
    | nil =>
        rfl
    | cons q l ih =>
        by_cases hq : q.pid = pid
        · have hnone : q.claves.filter (fun i => i.1 ≠ pid) = [] := by
            simp [MemPcb.claves, hq]
          rw [List.filter_cons_of_neg (by simpa using hq), List.flatMap_cons, List.filter_append,
            hnone, ih, List.nil_append]
        · have hall : q.claves.filter (fun i => i.1 ≠ pid) = q.claves := by
            simp [MemPcb.claves, hq]
          rw [List.filter_cons_of_pos (by simpa using hq), List.flatMap_cons, List.flatMap_cons,
            List.filter_append, hall, ih]

theorem claves_eraseP
    (hpid : p.pid = pid)
    (hhilo : (p.threads.find? (fun hilo => hilo.tid == tid)).isSome = true) :
    p.claves.Perm ((pid, tid) ::
      MemPcb.claves { p with threads := p.threads.eraseP (fun hilo => hilo.tid == tid) }) := by
  obtain ⟨hilo, hfind⟩ := Option.isSome_iff_exists.mp hhilo
  obtain ⟨a, l₁, l₂, -, ha, hsplit, herase⟩ :=
    List.exists_of_eraseP (List.mem_of_find?_eq_some hfind) (List.find?_some hfind)
  rw [beq_iff_eq] at ha
  simp only [MemPcb.claves, herase]
  rw [hsplit, List.map_append, List.map_append, List.map_cons, ha, hpid]
  exact List.perm_middle

/-- THREAD_EXIT, whether the thread is there or not. -/
theorem residencia_eliminarHilo
    (hperm : ∀ l, (cfg.listSort ordenarPorBase l).Perm l)
    (hpids : (g.memoryProcessList.map MemPcb.pid).Nodup)
    (pid tid : UInt32) :
    residencia (eliminarHiloMem cfg g pid tid) = (residencia g).sinHilo (pid, tid) := by
  have hfuera : (pid, tid) ∉ (residencia g).hilos →
      residencia g = (residencia g).sinHilo (pid, tid) := by
    intro hout
    exact Residencia.ext rfl (Multiset.erase_of_notMem hout).symm
  rw [mem_hilos hpids] at hfuera
  unfold eliminarHiloMem
  cases hp : buscarProcesoPorPid g pid with
  | none =>
      exact hfuera (by simp [hp])
  | some p =>
      simp only
      obtain ⟨hprocs, rest, hold, hnew⟩ := residencia_modificar (f := fun proceso =>
        { proceso with threads := proceso.threads.eraseP (fun hilo => hilo.tid == tid) }) hp rfl
      have hsale : (p.threads.find? (fun hilo => hilo.tid == tid)).isSome = true →
          residencia (modificarProceso g pid (fun proceso =>
            { proceso with threads := proceso.threads.eraseP (fun hilo => hilo.tid == tid) })) =
              (residencia g).sinHilo (pid, tid) := by
        intro hhilo
        have hpid := buscarProcesoPorPid_pid hp
        refine Residencia.ext hprocs (hnew.trans ?_)
        rw [Residencia.sinHilo, hold, Multiset.coe_eq_coe.mpr (claves_eraseP hpid hhilo),
          ← Multiset.cons_coe, Multiset.cons_add, Multiset.erase_cons_head]
      split_ifs with hhilo hscheme
      · rw [residencia_of_perm (memoryProcessList_update_perm hperm _)]
        exact hsale hhilo
      · exact hsale hhilo
      · refine hfuera ?_
        rintro ⟨q, hq, hfound⟩
        obtain rfl := Option.some.inj (hp.symm.trans hq)
        exact hhilo hfound

/-- The requests of the CPU leave the residency and the partitions alone. -/
theorem residencia_deCpu
    {peticion : Peticion}
    (hcpu : peticion.deCpu = true)
    (hstep : atiende cfg g peticion = some g') :
    residencia g' = residencia g ∧ g'.partitionList = g.partitionList := by
  cases efecto_of_atiende hstep with
  | executionContextUpdate pid tid r =>
      refine ⟨?_, rfl⟩
      cases hp : buscarProcesoPorPid g pid with
      | none =>
          refine residencia_of_perm (List.Perm.of_eq (modifyFirst_eq_self (fun q hq => ?_)))
          rw [buscarProcesoPorPid, hq] at hp
          cases hp
      | some p =>
          obtain ⟨hprocs, rest, hold, hnew⟩ := residencia_modificar (f := fun proceso =>
            { proceso with
              base := r.base
              limite := r.limite
              threads := modifyFirst (fun hilo => hilo.tid == tid)
                (fun hilo => { hilo with regs := MemRegister.ofRegister r }) proceso.threads })
            hp rfl
          refine Residencia.ext hprocs (hnew.trans ?_)
          rw [hold]
          refine congrArg (fun l : List (UInt32 × UInt32) => (↑l : Multiset _) + rest) ?_
          exact map_modifyFirst (fun _ _ => rfl)
  | consulta p g' hprocs hlist =>
      exact ⟨residencia_of_perm (List.Perm.of_eq hprocs), hlist⟩
  | _ => cases hcpu

end Table

/-- The partitions follow the table: the fixed ones are those of the configuration and
occupied by the resident processes; without processes, the dynamic ones are a single hole. -/
structure Cuadra (cfg : Config) (g : Globals) : Prop where
  marco : cfg.esquema = .fijas →
    g.partitionList.map liberarParticion = (inicializar cfg).partitionList
  ocupacion : cfg.esquema = .fijas → Ocupacion g
  vacia : cfg.esquema = .dinamicas → g.memoryProcessList = [] →
    g.partitionList = (inicializar cfg).partitionList

section Partitions

variable {cfg : Config} {g g' : Globals} {pid : UInt32}

theorem cuadra_inicializar (cfg : Config) : Cuadra cfg (inicializar cfg) where
  marco hesq := by
    have hmarco := (fijada_inicializar hesq).marco
    rw [hmarco]
    simp [inicializar, hesq]
  ocupacion := ocupacion_inicializar
  vacia _ _ := rfl

/-- Other contexts, for the same processes in the same partitions. -/
theorem Cuadra.of_procesos
    (h : Cuadra cfg g)
    (hprocs : (residencia g').procesos = (residencia g).procesos)
    (hlist : g'.partitionList = g.partitionList) :
    Cuadra cfg g' := by
  have hperm : (g'.memoryProcessList.map MemPcb.pid).Perm (g.memoryProcessList.map MemPcb.pid) :=
    Multiset.coe_eq_coe.mp hprocs
  refine ⟨fun hesq => hlist ▸ h.marco hesq, fun hesq => ?_, fun hesq hnil => ?_⟩
  · obtain ⟨hlibres, hresidentes, hocupantes⟩ := h.ocupacion hesq
    refine ⟨hlist ▸ hlibres, fun hmem => hresidentes (hperm.subset hmem), ?_⟩
    rw [hlist]
    exact hocupantes.trans hperm.symm
  · rw [hnil] at hperm
    rw [hlist]
    exact h.vacia hesq (List.map_eq_nil_iff.mp hperm.nil_eq.symm)

/-- The dynamic list of an empty table is the one of the start. -/
theorem partitionList_update
    (hperm : ∀ l, (cfg.listSort ordenarPorBase l).Perm l)
    (hesq : cfg.esquema = .dinamicas)
    (hnil : (updateDynamicPartitionList cfg g).memoryProcessList = []) :
    (updateDynamicPartitionList cfg g).partitionList = (inicializar cfg).partitionList := by
  have hempty : g.memoryProcessList = [] := by
    have htable := memoryProcessList_update_perm hperm g
    rw [hnil] at htable
    exact htable.nil_eq.symm
  simp [updateDynamicPartitionList, hempty, inicializar, hesq]

theorem Cuadra.update
    (hperm : ∀ l, (cfg.listSort ordenarPorBase l).Perm l)
    (hesq : cfg.esquema = .dinamicas)
    (g : Globals) :
    Cuadra cfg (updateDynamicPartitionList cfg g) where
  marco hfijas := by
    rw [hesq] at hfijas
    cases hfijas
  ocupacion hfijas := by
    rw [hesq] at hfijas
    cases hfijas
  vacia _ hnil := partitionList_update hperm hesq hnil

theorem Cuadra.fijas
    (hesq : cfg.esquema = .fijas)
    (hmarco : g.partitionList.map liberarParticion = (inicializar cfg).partitionList)
    (hocupacion : Ocupacion g) :
    Cuadra cfg g where
  marco _ := hmarco
  ocupacion _ := hocupacion
  vacia hdin := by
    rw [hesq] at hdin
    cases hdin

theorem Cuadra.crear
    {size : UInt32}
    (hperm : ∀ l, (cfg.listSort ordenarPorBase l).Perm l)
    (h : Cuadra cfg g)
    (hpid : pid ≠ pidLibre) :
    Cuadra cfg (verificarEspacioYCrearProceso cfg g pid size).1 := by
  unfold verificarEspacioYCrearProceso
  split
  · exact h
  · rename_i hesq
    split
    · exact h
    · rename_i selected partitions halloc
      refine Cuadra.fijas hesq ?_ ((h.ocupacion hesq).crear hpid halloc)
      obtain ⟨before, p, after, hlist, -, -, rfl, rfl⟩ := allocateProcessInPartition_spec halloc
      have hmarco := h.marco hesq
      rw [hlist] at hmarco
      simpa [crearProcesoMem, liberarParticion] using hmarco
  · rename_i hesq
    split
    · exact h
    · exact Cuadra.update hperm hesq _

theorem Cuadra.eliminarProceso
    (hperm : ∀ l, (cfg.listSort ordenarPorBase l).Perm l)
    (h : Cuadra cfg g) (pid : UInt32) :
    Cuadra cfg (eliminarProcesoMem cfg g pid) := by
  cases hesq : cfg.esquema with
  | fijas =>
      refine Cuadra.fijas hesq ?_ ((h.ocupacion hesq).eliminar hesq)
      simp only [eliminarProcesoMem, hesq]
      split_ifs
      · refine (map_modifyFirst (fun q _ => ?_)).trans (h.marco hesq)
        rfl
      · exact h.marco hesq
  | dinamicas =>
      simp only [eliminarProcesoMem, hesq]
      split_ifs
      · exact Cuadra.update hperm hesq _
      · exact h
  | otro =>
      exact ⟨by simp [hesq], by simp [hesq], by simp [hesq]⟩

theorem Cuadra.eliminarHilo
    (hperm : ∀ l, (cfg.listSort ordenarPorBase l).Perm l)
    (hpids : (g.memoryProcessList.map MemPcb.pid).Nodup)
    (h : Cuadra cfg g) (pid tid : UInt32) :
    Cuadra cfg (eliminarHiloMem cfg g pid tid) := by
  have hprocs := congrArg Residencia.procesos (residencia_eliminarHilo hperm hpids pid tid)
  revert hprocs
  unfold eliminarHiloMem
  split
  · exact fun _ => h
  · split_ifs with _ hesq
    · exact fun _ => Cuadra.update hperm hesq _
    · exact fun hprocs => h.of_procesos hprocs rfl
    · exact fun _ => h

end Partitions

end Memoria
end SinIdeas
