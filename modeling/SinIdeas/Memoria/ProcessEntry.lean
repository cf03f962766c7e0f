import SinIdeas.Isolation
import SinIdeas.Memoria.Occupancy
import SinIdeas.Memoria.OwnBytes

/-!
# The entry of a resident process

What one request does to the entry of a process in the table and to the user memory,
for every scheme. Only requests that name the process change its entry, and only a
WRITE_MEM request changes the user memory.
-/

namespace SinIdeas
namespace Memoria

open Lib

/-- The entry of a process after a request that does not end it. -/
def MemPcb.tras (proceso : MemPcb) : Peticion → MemPcb
  | .threadCreate pid tid filePath =>
      if pid = proceso.pid then
        { proceso with threads := proceso.threads ++ [nuevoHilo tid filePath] }
      else
        proceso
  | .threadExit pid tid =>
      if pid = proceso.pid then
        { proceso with threads := proceso.threads.eraseP (fun hilo => hilo.tid == tid) }
      else
        proceso
  | .executionContextUpdate pid tid r =>
      if pid = proceso.pid then
        { proceso with
          base := r.base
          limite := r.limite
          threads := modifyFirst (fun hilo => hilo.tid == tid)
            (fun hilo => { hilo with regs := MemRegister.ofRegister r }) proceso.threads }
      else
        proceso
  | _ => proceso

/-- The user memory after a request. -/
def bytesTras (memoriaUsuario : List UInt8) : Peticion → Option (List UInt8)
  | .writeMemRequest dir valor => escribirEnMemoria valor memoriaUsuario dir
  | _ => some memoriaUsuario

/-- What every reachable memoria has: a sound table, a user memory of its size, and
regions inside it that end where they should and do not overlap. -/
structure Recinto (cfg : Config) (g : Globals) : Prop where
  regiones : Regiones g
  entera : MemoriaEntera cfg g
  exacta : ∀ p ∈ g.memoryProcessList, p.Exacto
  aislada : Aislada cfg.tamMemoria g

section Entry

variable {cfg : Config} {g g' : Globals} {pid : UInt32} {proceso : MemPcb}

theorem buscarProcesoPorPid_pid
    (hp : buscarProcesoPorPid g pid = some proceso) :
    proceso.pid = pid := by
  simpa using List.find?_some hp

theorem buscar_modificar
    {q : UInt32} {f : MemPcb → MemPcb}
    (hf : ∀ p, (f p).pid = p.pid)
    (hp : buscarProcesoPorPid g pid = some proceso) :
    buscarProcesoPorPid (modificarProceso g q f) pid =
      some (if q = proceso.pid then f proceso else proceso) := by
  have hpid := buscarProcesoPorPid_pid hp
  rw [buscarProcesoPorPid] at hp
  by_cases hq : q = proceso.pid
  · rw [if_pos hq, hq, hpid, buscarProcesoPorPid, modificarProceso,
      find?_modifyFirst (fun p => by rw [hf p]), hp]
    rfl
  · rw [if_neg hq, buscarProcesoPorPid, modificarProceso, find?_modifyFirst_of_disjoint, hp]
    intro p hp
    rw [beq_iff_eq] at hp
    have hne : p.pid ≠ pid := fun heq => hq (hp.symm.trans (heq.trans hpid.symm))
    simp [hf, hne]

theorem buscar_update
    (hperm : ∀ l, (cfg.listSort ordenarPorBase l).Perm l)
    (hpids : (g.memoryProcessList.map MemPcb.pid).Nodup)
    (hp : buscarProcesoPorPid g pid = some proceso) :
    buscarProcesoPorPid (updateDynamicPartitionList cfg g) pid = some proceso :=
  find?_key_of_perm (memoryProcessList_update_perm hperm g) hpids hp

theorem buscar_crear
    {q base limite size : UInt32} {partitions : List MemPartition}
    (hp : buscarProcesoPorPid g pid = some proceso) :
    buscarProcesoPorPid (crearProcesoMem { g with partitionList := partitions } q base limite size)
      pid = some proceso := by
  rw [buscarProcesoPorPid] at hp
  simp [buscarProcesoPorPid, crearProcesoMem, List.find?_append, hp]

theorem buscar_verificarEspacio
    {q size : UInt32}
    (hperm : ∀ l, (cfg.listSort ordenarPorBase l).Perm l)
    (hpids : (g.memoryProcessList.map MemPcb.pid).Nodup)
    (hnew : buscarProcesoPorPid g q = none)
    (hp : buscarProcesoPorPid g pid = some proceso) :
    buscarProcesoPorPid (verificarEspacioYCrearProceso cfg g q size).1 pid = some proceso := by
  unfold verificarEspacioYCrearProceso
  split
  · exact hp
  · split
    · exact hp
    · exact buscar_crear hp
  · split
    · exact hp
    · exact buscar_update hperm (nodup_pids_crear _ _ _ hpids hnew) (buscar_crear hp)

theorem buscar_eliminarProceso
    {q : UInt32}
    (hperm : ∀ l, (cfg.listSort ordenarPorBase l).Perm l)
    (hpids : (g.memoryProcessList.map MemPcb.pid).Nodup)
    (hne : q ≠ pid)
    (hp : buscarProcesoPorPid g pid = some proceso) :
    buscarProcesoPorPid (eliminarProcesoMem cfg g q) pid = some proceso := by
  have herase : (g.memoryProcessList.eraseP (fun p => p.pid == q)).find?
      (fun p => p.pid == pid) = some proceso := find?_eraseP_of_ne hne hp
  unfold eliminarProcesoMem
  split_ifs
  · dsimp only
    split
    · exact buscar_update hperm (hpids.sublist (List.eraseP_sublist.map MemPcb.pid)) herase
    · exact herase
    · exact herase
  · exact hp

theorem buscar_agregarHilo
    {q tid : UInt32} {filePath : List Char}
    (hp : buscarProcesoPorPid g pid = some proceso) :
    buscarProcesoPorPid (verificarYAgregarHilo g q tid filePath).1 pid =
      some (proceso.tras (.threadCreate q tid filePath)) := by
  have hpid := buscarProcesoPorPid_pid hp
  unfold verificarYAgregarHilo
  split
  · rename_i hnone
    have hne : q ≠ proceso.pid := by
      rintro rfl
      rw [hpid, hp] at hnone
      cases hnone
    rw [MemPcb.tras, if_neg hne]
    exact hp
  · exact buscar_modificar (fun _ => rfl) hp

theorem buscar_eliminarHilo
    {q tid : UInt32}
    (hperm : ∀ l, (cfg.listSort ordenarPorBase l).Perm l)
    (hpids : (g.memoryProcessList.map MemPcb.pid).Nodup)
    (hp : buscarProcesoPorPid g pid = some proceso) :
    buscarProcesoPorPid (eliminarHiloMem cfg g q tid) pid =
      some (proceso.tras (.threadExit q tid)) := by
  have hpid := buscarProcesoPorPid_pid hp
  have hmod := buscar_modificar (q := q) (f := fun proceso =>
    { proceso with threads := proceso.threads.eraseP (fun hilo => hilo.tid == tid) })
    (fun _ => rfl) hp
  unfold eliminarHiloMem
  split
  · rename_i hnone
    have hne : q ≠ proceso.pid := by
      rintro rfl
      rw [hpid, hp] at hnone
      cases hnone
    rw [MemPcb.tras, if_neg hne]
    exact hp
  · rename_i encontrado hencontrado
    split_ifs with hhilo hesq
    · refine buscar_update hperm ?_ hmod
      rw [pids_modificar]
      · exact hpids
      · exact fun _ _ => rfl
    · exact hmod
    · -- a thread that is not there is not removed
      rw [hp, MemPcb.tras]
      split_ifs with hq
      · subst hq
        rw [hpid, hp] at hencontrado
        cases hencontrado
        rw [List.eraseP_of_forall_not (by simpa using hhilo)]
      · rfl

/-- The entry of a process that is not ended. -/
theorem buscar_of_atiende
    {p : Peticion}
    (hperm : ∀ l, (cfg.listSort ordenarPorBase l).Perm l)
    (hpids : (g.memoryProcessList.map MemPcb.pid).Nodup)
    (hp : buscarProcesoPorPid g pid = some proceso)
    (hreg : Regular g p)
    (hvive : p ≠ .processExit pid)
    (hstep : atiende cfg g p = some g') :
    buscarProcesoPorPid g' pid = some (proceso.tras p) := by
  cases p with
  | processCreate q size =>
      obtain rfl := Option.some.inj hstep
      exact buscar_verificarEspacio hperm hpids hreg hp
  | processExit q =>
      obtain rfl := Option.some.inj hstep
      exact buscar_eliminarProceso hperm hpids (fun heq => hvive (by rw [heq])) hp
  | threadCreate q tid filePath =>
      obtain rfl := Option.some.inj hstep
      exact buscar_agregarHilo hp
  | threadExit q tid =>
      obtain rfl := Option.some.inj hstep
      exact buscar_eliminarHilo hperm hpids hp
  | executionContextUpdate q tid r =>
      obtain rfl := Option.some.inj hstep
      exact buscar_modificar (fun _ => rfl) hp
  | _ =>
      rcases atiende_consulta rfl hstep with rfl | ⟨dir, valor, buffer, hbuffer, rfl⟩
      · exact hp
      · exact hp

end Entry

section Bytes

variable {cfg : Config} {g g' : Globals}

@[simp] theorem memoriaUsuario_verificarEspacio (pid size : UInt32) :
    (verificarEspacioYCrearProceso cfg g pid size).1.memoriaUsuario = g.memoriaUsuario := by
  unfold verificarEspacioYCrearProceso
  split
  · rfl
  · split <;> rfl
  · split <;> rfl

@[simp] theorem memoriaUsuario_eliminarProceso (pid : UInt32) :
    (eliminarProcesoMem cfg g pid).memoriaUsuario = g.memoriaUsuario := by
  unfold eliminarProcesoMem
  split_ifs
  · dsimp only
    split <;> rfl
  · rfl

@[simp] theorem memoriaUsuario_agregarHilo (pid tid : UInt32) (filePath : List Char) :
    (verificarYAgregarHilo g pid tid filePath).1.memoriaUsuario = g.memoriaUsuario := by
  unfold verificarYAgregarHilo
  split <;> rfl

@[simp] theorem memoriaUsuario_eliminarHilo (pid tid : UInt32) :
    (eliminarHiloMem cfg g pid tid).memoriaUsuario = g.memoriaUsuario := by
  unfold eliminarHiloMem
  split
  · rfl
  · split_ifs <;> rfl

/-- The user memory after an answered request. -/
theorem memoriaUsuario_tras
    {p : Peticion}
    (hstep : atiende cfg g p = some g') :
    bytesTras g.memoriaUsuario p = some g'.memoriaUsuario := by
  cases p with
  | processCreate pid size =>
      obtain rfl := Option.some.inj hstep
      exact congrArg some (memoriaUsuario_verificarEspacio pid size).symm
  | processExit pid =>
      obtain rfl := Option.some.inj hstep
      exact congrArg some (memoriaUsuario_eliminarProceso pid).symm
  | threadCreate pid tid filePath =>
      obtain rfl := Option.some.inj hstep
      exact congrArg some (memoriaUsuario_agregarHilo pid tid filePath).symm
  | threadExit pid tid =>
      obtain rfl := Option.some.inj hstep
      exact congrArg some (memoriaUsuario_eliminarHilo pid tid).symm
  | executionContextUpdate pid tid r =>
      obtain rfl := Option.some.inj hstep
      rfl
  | instructionRequest pid tid pc =>
      simp only [atiende, handleClient] at hstep
      split at hstep <;> exact congrArg (fun g => some g.memoriaUsuario) (Option.some.inj hstep)
  | executionContext pid tid =>
      simp only [atiende, handleClient, Option.bind_eq_bind, Option.map_bind,
        Option.bind_eq_some_iff] at hstep
      obtain ⟨_, _, hg⟩ := hstep
      exact congrArg (fun g => some g.memoriaUsuario) (Option.some.inj hg)
  | readMemRequest dir =>
      simp only [atiende, handleClient, Option.bind_eq_bind, Option.map_bind,
        Option.bind_eq_some_iff] at hstep
      obtain ⟨_, _, hg⟩ := hstep
      exact congrArg (fun g => some g.memoriaUsuario) (Option.some.inj hg)
  | writeMemRequest dir valor =>
      exact (memoryProcessList_of_escritura hstep).2

end Bytes

section Reachable

variable {cfg : Config} {g : Globals} {peticiones : List Peticion}

/-- Without a known scheme no process becomes resident. -/
theorem memoryProcessList_of_otro
    (hesq : cfg.esquema = .otro)
    (hrun : Alcanza cfg Regular peticiones g) :
    g.memoryProcessList = [] := by
  refine hrun.invariant (I := fun g => g.memoryProcessList = []) rfl ?_
  intro a b e ha _ hstep
  cases efecto_of_atiende hstep with
  | consulta p g' hprocs hlist =>
      exact hprocs.trans ha
  | _ =>
      simp [verificarEspacioYCrearProceso, eliminarProcesoMem, verificarYAgregarHilo,
        eliminarHiloMem, actualizarRegistros, modificarProceso, buscarProcesoPorPid, modifyFirst,
        hesq, ha]

theorem exacta_of_alcanza
    (hsort : StableFor ordenarPorBase (cfg.listSort ordenarPorBase))
    (hcfg : cfg.Valida)
    (hrun : Alcanza cfg Regular peticiones g) :
    ∀ p ∈ g.memoryProcessList, p.Exacto := by
  cases hesq : cfg.esquema with
  | fijas =>
      have hfij : Fijada cfg g :=
        hrun.invariant (fijada_inicializar hesq)
          (fun h hreg hstep => h.step hesq hreg hstep)
      have hfit : bytesConfigurados cfg.particiones < 2 ^ 32 :=
        (hcfg.2 hesq).trans_lt cfg.tamMemoria.toNat_lt
      intro p hp
      obtain ⟨q, hq, hal⟩ := hfij.alojado p hp
      have hlimite := hfij.limite_particion hfit hq
      have hsize := UInt32.le_iff_toNat_le.mp hal.size
      have htop := q.limite.toNat_lt
      rw [MemPcb.Exacto, hfij.limites p hp, ← hal.base, UInt32.toNat_add]
      omega
  | dinamicas =>
      exact (hrun.invariant (I := Ordenada cfg.tamMemoria) (ordenada_inicializar hcfg.1 hesq)
        (fun h hreg hstep => h.step hsort hcfg.1 hesq hreg hstep)).exacto
  | otro =>
      simp [memoryProcessList_of_otro hesq hrun]

theorem recinto_of_alcanza
    (hsort : StableFor ordenarPorBase (cfg.listSort ordenarPorBase))
    (hcfg : cfg.Valida)
    (hrun : Alcanza cfg Regular peticiones g) :
    Recinto cfg g where
  regiones := hrun.invariant (regiones_inicializar cfg) (fun h => h.step hsort.perm)
  entera := hrun.invariant (memoriaEntera_inicializar cfg) (fun h _ => h.step)
  exacta := exacta_of_alcanza hsort hcfg hrun
  aislada := aislada_of_alcanza hsort hcfg hrun

end Reachable

end Memoria
end SinIdeas
