import SinIdeas.Lib.StableSort
import SinIdeas.Memoria.ProcessTable

/-!
# The context of a thread in memoria

The registers of a thread are found by two searches, by PID and by TID. Requests
about other threads and processes leave them alone, whatever they do to the
process table.
-/

namespace SinIdeas
namespace Memoria

open Lib

/-- The entry of a thread. -/
def hiloDe (g : Globals) (pid tid : UInt32) : Option MemTcb := do
  let proceso ← buscarProcesoPorPid g pid
  proceso.threads.find? (fun hilo => hilo.tid == tid)

/-- `hilo` is the entry of the thread, and no PID is in the table twice. -/
structure Guardado (g : Globals) (pid tid : UInt32) (hilo : MemTcb) : Prop where
  pids : (g.memoryProcessList.map MemPcb.pid).Nodup
  hilo : hiloDe g pid tid = some hilo

/-- Requests that do not concern the thread: they neither end it or its process nor
store its context, and a process is created with the PID of no resident one. -/
def Ajena (pid tid : UInt32) (g : Globals) : Peticion → Prop
  | .processCreate p _ => buscarProcesoPorPid g p = none
  | .processExit p => p ≠ pid
  | .threadExit p t => (p, t) ≠ (pid, tid)
  | .executionContextUpdate p t _ => (p, t) ≠ (pid, tid)
  | _ => True

instance decidableAjena (pid tid : UInt32) (g : Globals) : ∀ p, Decidable (Ajena pid tid g p)
  | .processCreate p _ => inferInstanceAs (Decidable (buscarProcesoPorPid g p = none))
  | .processExit p => inferInstanceAs (Decidable (p ≠ pid))
  | .threadExit p t => inferInstanceAs (Decidable ((p, t) ≠ (pid, tid)))
  | .executionContextUpdate p t _ => inferInstanceAs (Decidable ((p, t) ≠ (pid, tid)))
  | .threadCreate .. => inferInstanceAs (Decidable True)
  | .instructionRequest .. => inferInstanceAs (Decidable True)
  | .executionContext .. => inferInstanceAs (Decidable True)
  | .readMemRequest .. => inferInstanceAs (Decidable True)
  | .writeMemRequest .. => inferInstanceAs (Decidable True)

section Search

variable {cfg : Config} {g : Globals} {pid tid : UInt32} {hilo : MemTcb}

theorem hiloDe_some
    (h : hiloDe g pid tid = some hilo) :
    ∃ proceso, buscarProcesoPorPid g pid = some proceso ∧
      proceso.threads.find? (fun hilo => hilo.tid == tid) = some hilo :=
  Option.bind_eq_some_iff.mp h

/-- A table in which the process is found again has the thread too. -/
theorem Guardado.of_table
    {g' : Globals}
    (h : Guardado g pid tid hilo)
    (hpids : (g'.memoryProcessList.map MemPcb.pid).Nodup)
    (hfind : ∀ proceso, buscarProcesoPorPid g pid = some proceso →
      buscarProcesoPorPid g' pid = some proceso) :
    Guardado g' pid tid hilo := by
  obtain ⟨proceso, hproceso, hhilo⟩ := hiloDe_some h.hilo
  refine ⟨hpids, ?_⟩
  simp only [hiloDe, hfind proceso hproceso, Option.bind_eq_bind, Option.bind_some, hhilo]

/-- Changing a process in place: the entry is the one its threads then have. -/
theorem Guardado.modificar
    {p : UInt32} {f : MemPcb → MemPcb} {hilo' : MemTcb}
    (h : Guardado g pid tid hilo)
    (hpid : ∀ proceso, (f proceso).pid = proceso.pid)
    (hne : p ≠ pid → hilo' = hilo)
    (heq : p = pid → ∀ proceso : MemPcb,
      proceso.threads.find? (fun hilo => hilo.tid == tid) = some hilo →
      (f proceso).threads.find? (fun hilo => hilo.tid == tid) = some hilo') :
    Guardado (modificarProceso g p f) pid tid hilo' := by
  obtain ⟨proceso, hproceso, hhilo⟩ := hiloDe_some h.hilo
  refine ⟨?_, ?_⟩
  · rw [pids_modificar (fun q _ => hpid q)]
    exact h.pids
  · by_cases hp : p = pid
    · subst hp
      have hfind : buscarProcesoPorPid (modificarProceso g p f) p = some (f proceso) := by
        rw [buscarProcesoPorPid, modificarProceso,
          find?_modifyFirst (fun q => by rw [hpid q]), ← buscarProcesoPorPid, hproceso]
        rfl
      simp only [hiloDe, hfind, Option.bind_eq_bind, Option.bind_some]
      exact heq rfl proceso hhilo
    · have hfind : buscarProcesoPorPid (modificarProceso g p f) pid = some proceso := by
        rw [buscarProcesoPorPid, modificarProceso, find?_modifyFirst_of_disjoint]
        · exact hproceso
        · intro q hq
          rw [beq_iff_eq] at hq
          simp [hpid, hq, hp]
      simp only [hiloDe, hfind, Option.bind_eq_bind, Option.bind_some, hne hp]
      exact hhilo

/-- The context of the thread is stored. -/
theorem Guardado.actualizar
    (h : Guardado g pid tid hilo)
    (r : Register) :
    Guardado (actualizarRegistros g pid tid r) pid tid
      { hilo with regs := MemRegister.ofRegister r } := by
  refine h.modificar (fun _ => rfl) (fun hne => absurd rfl hne) (fun _ proceso hhilo => ?_)
  dsimp only
  rw [find?_modifyFirst, hhilo]
  · rfl
  · exact fun _ => rfl

/-- The registers handed out are those of the entry. -/
theorem Guardado.obtenerRegistros
    (h : Guardado g pid tid hilo) :
    ∃ r, obtenerRegistrosTcb g pid tid = some r ∧ MemRegister.ofRegister r = hilo.regs := by
  obtain ⟨proceso, hproceso, hhilo⟩ := hiloDe_some h.hilo
  refine ⟨registrosDe proceso hilo, ?_, rfl⟩
  simp [obtenerRegistrosTcb, hproceso, hhilo]

/-- The lines handed out are those of the script of the entry. -/
theorem Guardado.obtenerLinea
    {lineas : List (List Char)}
    (h : Guardado g pid tid hilo)
    (hscript : cfg.scripts hilo.filePath = some lineas)
    (pc : UInt32) :
    obtenerLineaPseudocodigo cfg g pid tid pc = lineas[pc.toNat]? := by
  obtain ⟨proceso, hproceso, hhilo⟩ := hiloDe_some h.hilo
  simp [obtenerLineaPseudocodigo, hproceso, hhilo, hscript]

end Search

section Steps

variable {cfg : Config} {g : Globals} {pid tid : UInt32} {hilo : MemTcb}
variable (hsort : StableFor ordenarPorBase (cfg.listSort ordenarPorBase))

include hsort

/-- Rebuilding the partition list may sort the table, nothing else. -/
theorem Guardado.update
    (h : Guardado g pid tid hilo) :
    Guardado (updateDynamicPartitionList cfg g) pid tid hilo := by
  have hperm := memoryProcessList_update_perm hsort.perm g
  refine h.of_table ((hperm.map MemPcb.pid).nodup_iff.mpr h.pids) (fun proceso hp => ?_)
  exact find?_key_of_perm hperm h.pids hp

omit hsort in
theorem Guardado.crear
    {p base limite size : UInt32} {partitions : List MemPartition}
    (h : Guardado g pid tid hilo)
    (hnew : buscarProcesoPorPid g p = none) :
    Guardado (crearProcesoMem { g with partitionList := partitions } p base limite size)
      pid tid hilo := by
  refine h.of_table (nodup_pids_crear _ _ _ h.pids hnew) (fun proceso hp => ?_)
  rw [buscarProcesoPorPid] at hp
  simp [buscarProcesoPorPid, crearProcesoMem, List.find?_append, hp]

/-- A request that does not concern the thread leaves its entry. -/
theorem Guardado.step
    {g' : Globals} {p : Peticion}
    (h : Guardado g pid tid hilo)
    (hajena : Ajena pid tid g p)
    (hstep : atiende cfg g p = some g') :
    Guardado g' pid tid hilo := by
  cases efecto_of_atiende hstep with
  | processCreate q size =>
      unfold verificarEspacioYCrearProceso
      split
      · exact h
      · split
        · exact h
        · exact h.crear hajena
      · split
        · exact h
        · exact (h.crear hajena).update hsort
  | processExit q =>
      unfold eliminarProcesoMem
      have herase : Guardado
          { g with
            memoryProcessList := g.memoryProcessList.eraseP (fun proceso => proceso.pid == q) }
          pid tid hilo :=
        h.of_table (h.pids.sublist (List.eraseP_sublist.map MemPcb.pid))
          (fun proceso hp => find?_eraseP_of_ne hajena hp)
      split_ifs
      · dsimp only
        split
        · exact herase.update hsort
        · exact herase.of_table herase.pids (fun _ hp => hp)
        · exact herase
      · exact h
  | threadCreate q t filePath =>
      unfold verificarYAgregarHilo
      split
      · exact h
      · refine h.modificar (fun _ => rfl) (fun _ => rfl) (fun _ proceso hhilo => ?_)
        rw [List.find?_append, hhilo]
        rfl
  | threadExit q t =>
      have hmod : Guardado (modificarProceso g q (fun proceso =>
          { proceso with threads := proceso.threads.eraseP (fun hilo => hilo.tid == t) }))
          pid tid hilo := by
        refine h.modificar (fun _ => rfl) (fun _ => rfl) (fun hq proceso hhilo => ?_)
        subst hq
        have hne : t ≠ tid := fun heq => hajena (by rw [heq])
        exact find?_eraseP_of_ne hne hhilo
      unfold eliminarHiloMem
      split
      · exact h
      · split_ifs
        · exact hmod.update hsort
        · exact hmod
        · exact h
  | executionContextUpdate q t r =>
      refine h.modificar (fun _ => rfl) (fun _ => rfl) (fun hq proceso hhilo => ?_)
      subst hq
      have hne : t ≠ tid := fun heq => hajena (by rw [heq])
      dsimp only
      rw [find?_modifyFirst_of_disjoint]
      · exact hhilo
      · intro a ha
        rw [beq_iff_eq] at ha
        simp [ha, hne]
  | consulta p g' hprocs hlist =>
      exact h.of_table (hprocs ▸ h.pids)
        (fun proceso hp => by rw [buscarProcesoPorPid, hprocs]; exact hp)

end Steps

end Memoria
end SinIdeas
