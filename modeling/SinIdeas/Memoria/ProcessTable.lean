import SinIdeas.Memoria.Requests

/-!
# The process table

What a request can do to the process table, whatever the scheme: the list of
partitions is rebuilt from the table, which may only change the order of its entries.
-/

namespace SinIdeas
namespace Memoria

open Lib

/-- The table: no PID twice, and every region has the size of its process. -/
structure Regiones (g : Globals) : Prop where
  pids : (g.memoryProcessList.map MemPcb.pid).Nodup
  limites : ∀ p ∈ g.memoryProcessList, p.limite = p.base + p.size

/-- The table that a request leaves, up to its order. -/
inductive EfectoTabla (g : Globals) : Peticion → List MemPcb → Prop
  | igual (p : Peticion) :
      EfectoTabla g p g.memoryProcessList
  | crea (pid base size : UInt32) :
      EfectoTabla g (.processCreate pid size)
        (crearProcesoMem g pid base (base + size) size).memoryProcessList
  | quita (pid : UInt32) :
      EfectoTabla g (.processExit pid)
        (g.memoryProcessList.eraseP (fun proceso => proceso.pid == pid))
  | hilos (p : Peticion) (pid : UInt32) (f : List MemTcb → List MemTcb) :
      EfectoTabla g p
        (modificarProceso g pid (fun proceso => { proceso with threads := f proceso.threads })).memoryProcessList
  | contexto (pid tid : UInt32) (r : Register) :
      EfectoTabla g (.executionContextUpdate pid tid r)
        (actualizarRegistros g pid tid r).memoryProcessList

section Table

variable {cfg : Config} {g g' : Globals}

/-- Rebuilding the list reorders the table. -/
theorem memoryProcessList_update_perm
    (hperm : ∀ l, (cfg.listSort ordenarPorBase l).Perm l)
    (g : Globals) :
    (updateDynamicPartitionList cfg g).memoryProcessList.Perm g.memoryProcessList := by
  unfold updateDynamicPartitionList buildDynamicPartitionList
  split_ifs
  · exact List.Perm.refl _
  · exact hperm g.memoryProcessList

/-- Every answered request has one of the effects on the table. -/
theorem efectoTabla_of_atiende
    {p : Peticion}
    (hperm : ∀ l, (cfg.listSort ordenarPorBase l).Perm l)
    (hstep : atiende cfg g p = some g') :
    ∃ l, EfectoTabla g p l ∧ g'.memoryProcessList.Perm l := by
  cases efecto_of_atiende hstep with
  | processCreate pid size =>
      unfold verificarEspacioYCrearProceso
      split
      · exact ⟨_, .igual _, List.Perm.refl _⟩
      · split
        · exact ⟨_, .igual _, List.Perm.refl _⟩
        · exact ⟨_, .crea pid _ size, List.Perm.refl _⟩
      · split
        · exact ⟨_, .igual _, List.Perm.refl _⟩
        · exact ⟨_, .crea pid _ size, memoryProcessList_update_perm hperm _⟩
  | processExit pid =>
      unfold eliminarProcesoMem
      split_ifs
      · refine ⟨_, .quita pid, ?_⟩
        simp only
        split
        · exact memoryProcessList_update_perm hperm _
        · exact List.Perm.refl _
        · exact List.Perm.refl _
      · exact ⟨_, .igual _, List.Perm.refl _⟩
  | threadCreate pid tid filePath =>
      unfold verificarYAgregarHilo
      split
      · exact ⟨_, .igual _, List.Perm.refl _⟩
      · exact ⟨_, .hilos _ pid (fun threads => threads ++ [nuevoHilo tid filePath]),
          List.Perm.refl _⟩
  | threadExit pid tid =>
      unfold eliminarHiloMem
      split
      · exact ⟨_, .igual _, List.Perm.refl _⟩
      · split_ifs
        · exact ⟨_, .hilos _ pid (fun threads => threads.eraseP (fun hilo => hilo.tid == tid)),
            memoryProcessList_update_perm hperm _⟩
        · exact ⟨_, .hilos _ pid (fun threads => threads.eraseP (fun hilo => hilo.tid == tid)),
            List.Perm.refl _⟩
        · exact ⟨_, .igual _, List.Perm.refl _⟩
  | executionContextUpdate pid tid r =>
      exact ⟨_, .contexto pid tid r, List.Perm.refl _⟩
  | consulta p g' hprocs hlist =>
      exact ⟨_, .igual _, List.Perm.of_eq hprocs⟩

/-- A process that is created has a PID of its own. -/
theorem nodup_pids_crear
    {pid : UInt32}
    (base limite size : UInt32)
    (hpids : (g.memoryProcessList.map MemPcb.pid).Nodup)
    (hnew : buscarProcesoPorPid g pid = none) :
    ((crearProcesoMem g pid base limite size).memoryProcessList.map MemPcb.pid).Nodup := by
  have hfresh : ∀ q ∈ g.memoryProcessList, q.pid ≠ pid := by
    simpa [buscarProcesoPorPid] using hnew
  simp only [crearProcesoMem, List.map_append, List.map_cons, List.map_nil, nuevoProceso]
  refine List.nodup_append.mpr ⟨hpids, by simp, ?_⟩
  intro a ha b hb
  obtain ⟨q, hq, rfl⟩ := List.mem_map.mp ha
  rw [List.mem_singleton.mp hb]
  exact hfresh q hq

/-- A process that is changed in place keeps its PID. -/
theorem pids_modificar
    {pid : UInt32} {f : MemPcb → MemPcb}
    (hf : ∀ p, buscarProcesoPorPid g pid = some p → (f p).pid = p.pid) :
    (modificarProceso g pid f).memoryProcessList.map MemPcb.pid =
      g.memoryProcessList.map MemPcb.pid :=
  map_modifyFirst hf

/-- A process that is created ends where its size says. -/
theorem limites_crear
    (pid base size : UInt32)
    (h : ∀ p ∈ g.memoryProcessList, p.limite = p.base + p.size) :
    ∀ p ∈ (crearProcesoMem g pid base (base + size) size).memoryProcessList,
      p.limite = p.base + p.size := by
  intro p hp
  rcases List.mem_append.mp hp with hp | hp
  · exact h p hp
  · rw [List.mem_singleton.mp hp]
    rfl

/-- A process that is changed in place ends where it did if its region stays. -/
theorem limites_modificar
    {pid : UInt32} {f : MemPcb → MemPcb}
    (h : ∀ p ∈ g.memoryProcessList, p.limite = p.base + p.size)
    (hf : ∀ p, buscarProcesoPorPid g pid = some p →
      (f p).base = p.base ∧ (f p).limite = p.limite ∧ (f p).size = p.size) :
    ∀ p ∈ (modificarProceso g pid f).memoryProcessList, p.limite = p.base + p.size := by
  intro q hq
  rcases mem_modifyFirst hq with hq | ⟨p, hp, rfl⟩
  · exact h q hq
  · obtain ⟨hbase, hlimite, hsize⟩ := hf p hp
    rw [hbase, hlimite, hsize]
    exact h p (List.mem_of_find?_eq_some hp)

/-- Where the regions that come back are those that were handed out, one request keeps the
ends of the regions. -/
theorem EfectoTabla.limites
    {p : Peticion} {l : List MemPcb}
    (hefecto : EfectoTabla g p l)
    (h : ∀ q ∈ g.memoryProcessList, q.limite = q.base + q.size)
    (hregion : ∀ pid tid r, p = .executionContextUpdate pid tid r →
      ∀ q ∈ buscarProcesoPorPid g pid, r.base = q.base ∧ r.limite = q.limite) :
    ∀ q ∈ l, q.limite = q.base + q.size := by
  cases hefecto with
  | igual =>
      exact h
  | crea pid base size =>
      exact limites_crear pid base size h
  | quita pid =>
      exact fun q hq => h q (List.mem_of_mem_eraseP hq)
  | hilos _ pid f =>
      exact limites_modificar h (fun _ _ => ⟨rfl, rfl, rfl⟩)
  | contexto pid tid r =>
      refine limites_modificar h (fun q hq => ?_)
      obtain ⟨hbase, hlimite⟩ := hregion pid tid r rfl q hq
      exact ⟨hbase, hlimite, rfl⟩

/-- Where a process is created with the PID of no other, one request keeps the PIDs apart. -/
theorem EfectoTabla.pids
    {p : Peticion} {l : List MemPcb}
    (hefecto : EfectoTabla g p l)
    (h : (g.memoryProcessList.map MemPcb.pid).Nodup)
    (hnew : ∀ pid size, p = .processCreate pid size → buscarProcesoPorPid g pid = none) :
    (l.map MemPcb.pid).Nodup := by
  cases hefecto with
  | igual =>
      exact h
  | crea pid base size =>
      exact nodup_pids_crear _ _ _ h (hnew pid size rfl)
  | quita pid =>
      exact h.sublist (List.eraseP_sublist.map MemPcb.pid)
  | hilos _ pid f =>
      rw [pids_modificar]
      · exact h
      · exact fun _ _ => rfl
  | contexto pid tid r =>
      rw [actualizarRegistros, pids_modificar]
      · exact h
      · exact fun _ _ => rfl

/-- One request keeps the table sound. -/
theorem Regiones.step
    {p : Peticion}
    (hperm : ∀ l, (cfg.listSort ordenarPorBase l).Perm l)
    (h : Regiones g)
    (hreg : Regular g p)
    (hstep : atiende cfg g p = some g') :
    Regiones g' := by
  obtain ⟨l, hefecto, hl⟩ := efectoTabla_of_atiende hperm hstep
  constructor
  · refine ((hl.map MemPcb.pid).nodup_iff).mpr (hefecto.pids h.pids ?_)
    rintro pid size rfl
    exact hreg
  · intro q hq
    refine hefecto.limites h.limites ?_ q (hl.subset hq)
    rintro pid tid r rfl
    exact hreg

theorem regiones_inicializar (cfg : Config) : Regiones (inicializar cfg) :=
  ⟨List.nodup_nil, by simp [inicializar]⟩

/-- A table in another order is as sound. -/
theorem Regiones.perm
    (h : Regiones g)
    (hperm : g'.memoryProcessList.Perm g.memoryProcessList) :
    Regiones g' :=
  ⟨(hperm.map MemPcb.pid).nodup_iff.mpr h.pids, fun p hp => h.limites p (hperm.subset hp)⟩

end Table

end Memoria
end SinIdeas
