import Mathlib.Logic.Relation
import SinIdeas.Lib.History
import SinIdeas.Kernel.Dispatch

/-!
# The kernel as the long-term scheduler sees it

Waiting processes, active processes and memoria change in four ways only: a step
attends threads (`Ajena`), a PROCESS_CREATE adds a waiting process and runs
`try_create_NEW_process_loop`, the dispatcher ends a process, or a dump does.
`paso_largoPlazo` says so of every step.
-/

namespace SinIdeas
namespace Kernel

open Lib

variable {μ : Type}

/-- A request about one thread takes memoria from one state to another. -/
def PideHilo (cfg : Config μ) (m m' : μ) : Prop :=
  ∃ t, m' = (cfg.createThreadMemory m t).1 ∨ m' = (cfg.deleteThreadMemory m t).1

/-- From `k` to `k'` no process is created or ended: memoria gets requests about
threads only, and only the PCBs of active or executing processes change. -/
structure Ajena (cfg : Config μ) (k k' : Globals μ) : Prop where
  viejos : k'.listaTcbsBlockeados = k.listaTcbsBlockeados
  nuevos : k'.listPcbNew = k.listPcbNew
  peticiones : k'.listFirstThreadParams = k.listFirstThreadParams
  emitidos : k'.globalPid = k.globalPid
  activos : k'.listPcbActive = k.listPcbActive
  actual : ∀ p, k'.currentPcbExecuting = some p →
    k.currentPcbExecuting = some p ∨ p ∈ k.listPcbActive
  pcbs : ∀ q, k.currentPcbExecuting ≠ some q → q ∉ k.listPcbActive → k'.pcbs q = k.pcbs q
  memoria : Relation.ReflTransGen (PideHilo cfg) k.memoria k'.memoria

/-- `k'` differs from `k` only in threads, joins, mutexes and requests. -/
def SoloHilos (k k' : Globals μ) : Prop :=
  k' = { k with
    listNewTcb := k'.listNewTcb
    listReadyTcb := k'.listReadyTcb
    listBlockedTcb := k'.listBlockedTcb
    listExitTcb := k'.listExitTcb
    semThreadCount := k'.semThreadCount
    listTcbJoins := k'.listTcbJoins
    globalMutexes := k'.globalMutexes
    ioRequestQueue := k'.ioRequestQueue
    dumps := k'.dumps
    currentTcbExecuting := k'.currentTcbExecuting
    semQuantum := k'.semQuantum
    quantumInterrupted := k'.quantumInterrupted
    nextDir := k'.nextDir
    fase := k'.fase }

/-- From `k` to `k'` the process `pid` is ended. -/
structure FinDe (cfg : Config μ) (pid : Nat) (k k' : Globals μ) : Prop where
  viejos : k'.listaTcbsBlockeados = k.listaTcbsBlockeados
  nuevos : k'.listPcbNew = k.listPcbNew
  peticiones : k'.listFirstThreadParams = k.listFirstThreadParams
  emitidos : k'.globalPid = k.globalPid
  activos : k'.listPcbActive = k.listPcbActive.eraseP (fun p => p == pid)
  actual : k'.currentPcbExecuting = k.currentPcbExecuting
  pcbs : ∀ q, k.currentPcbExecuting ≠ some q → k'.pcbs q = k.pcbs q
  memoria : k'.memoria = (cfg.deleteProcessMemory k.memoria pid (k.pcbs pid).size).1

/-- `create_process` and its first thread's parameters at the end of their lists. -/
def pedirProceso (path : List Char) (size priority : Nat) (k : Globals μ) : Globals μ :=
  let k := createProcess k size
  { k with listFirstThreadParams := k.listFirstThreadParams ++
      [{ nombreArchivo := path, tamanioProceso := size, prioridad := priority }] }

/-- The state in which an event calls `try_create_NEW_process_loop`, if it does. A
PROCESS_EXIT has then done what a SEGMENTATION_FAULT does. -/
def llamadaBucle (cfg : Config μ) (k : Globals μ) : Evento → Option (Globals μ)
  | .respuesta (.processCreate path size priority) =>
      some (pedirProceso path size priority (interruptQuantum k))
  | .seguirFin =>
      match k.fase, k.currentPcbExecuting with
      | .finalizando .processExit _ i, some pid =>
          match finalizarHilo cfg pid i k with
          | some (k, .termina) => some (terminarProceso cfg .segmentationFault pid k)
          | _ => none
      | _, _ => none
  | _ => none

/-- The process that an event ends without calling `try_create_NEW_process_loop`, if it
does: at the end of the loop over its threads after a SEGMENTATION_FAULT or a dump that
failed. -/
def finSinBucle (k : Globals μ) : Evento → Option Nat
  | .seguirFin =>
      match k.fase, k.currentPcbExecuting with
      | .finalizando .segmentationFault _ i, some pid =>
          if i < (k.pcbs pid).tidCount then none else some pid
      | _, _ => none
  | .dumpSeguir j =>
      match k.dumps[j]? with
      | some { fase := .finalizando pid i, .. } =>
          if i < (k.pcbs pid).tidCount then none else some pid
      | _ => none
  | _ => none

section Frame

variable {cfg : Config μ} {k k' k'' : Globals μ}

theorem Ajena.of_soloHilos
    (h : SoloHilos k k') :
    Ajena cfg k k' := by
  rw [h]
  exact ⟨rfl, rfl, rfl, rfl, rfl, fun _ h => Or.inl h, fun _ _ _ => rfl, Relation.ReflTransGen.refl⟩

theorem Ajena.trans
    (h₁ : Ajena cfg k k')
    (h₂ : Ajena cfg k' k'') :
    Ajena cfg k k'' := by
  refine ⟨h₂.viejos.trans h₁.viejos, h₂.nuevos.trans h₁.nuevos,
    h₂.peticiones.trans h₁.peticiones, h₂.emitidos.trans h₁.emitidos,
    h₂.activos.trans h₁.activos, ?_, ?_, h₁.memoria.trans h₂.memoria⟩
  · intro p hp
    rcases h₂.actual p hp with hp | hp
    · exact h₁.actual p hp
    · rw [h₁.activos] at hp
      exact Or.inr hp
  · intro q hcurrent hactive
    have hcurrent' : k'.currentPcbExecuting ≠ some q := by
      intro hq
      rcases h₁.actual q hq with hq | hq
      · exact hcurrent hq
      · exact hactive hq
    rw [h₂.pcbs q hcurrent' (by rwa [h₁.activos]), h₁.pcbs q hcurrent hactive]

/-- A request about a thread, after which only threads change. -/
theorem Ajena.pide
    {m : μ}
    (hmem : PideHilo cfg k.memoria m)
    (h : SoloHilos { k with memoria := m } k') :
    Ajena cfg k k' := by
  have hreq : Ajena cfg k { k with memoria := m } :=
    ⟨rfl, rfl, rfl, rfl, rfl, fun _ h => Or.inl h, fun _ _ _ => rfl,
      Relation.ReflTransGen.single hmem⟩
  exact hreq.trans (Ajena.of_soloHilos h)

/-- The PCB of an active or executing process changes. -/
theorem Ajena.update
    {pid : Nat} {pcb : Pcb}
    (hpid : k.currentPcbExecuting = some pid ∨ pid ∈ k.listPcbActive) :
    Ajena cfg k { k with pcbs := Function.update k.pcbs pid pcb } := by
  refine ⟨rfl, rfl, rfl, rfl, rfl, fun _ h => Or.inl h, ?_, Relation.ReflTransGen.refl⟩
  intro q hcurrent hactive
  refine Function.update_of_ne ?_ _ _
  rintro rfl
  rcases hpid with hpid | hpid
  · exact hcurrent hpid
  · exact hactive hpid

theorem Despierta.ajena
    (h : Despierta k k') :
    Ajena cfg k k' := by
  refine Ajena.of_soloHilos ?_
  rw [h]
  rfl

theorem createThread_ajena
    {pid : Nat}
    (path : List Char) (priority : Nat)
    (hpid : k.currentPcbExecuting = some pid) :
    Ajena cfg k (createThread cfg k pid path priority).1 := by
  have hreg : Ajena cfg k (registrarTcb k (nuevoTcb k pid path priority)) :=
    (Ajena.update (Or.inl hpid)).trans (Ajena.of_soloHilos rfl)
  have hmem : PideHilo cfg k.memoria
      (cfg.createThreadMemory k.memoria (nuevoTcb k pid path priority)).1 :=
    ⟨_, Or.inl rfl⟩
  rcases createThread_cases cfg k pid path priority with ⟨l, t, m, _, _, _, _, heq⟩ | ⟨_, heq⟩
  · rw [heq]
    exact hreg.trans (Ajena.pide hmem rfl)
  · rw [heq]
    exact hreg.trans (Ajena.pide hmem rfl)

/-- Everything the admission of a process changes. -/
theorem procesoCreado_resto
    (cfg : Config μ) (k : Globals μ) (pid : Nat) (resto : List Nat) (peticion : ProcessCreate)
    (peticiones : List ProcessCreate) :
    ∃ nuevos listos n activos, (∀ q ∈ activos, q ∈ k.listPcbActive ∨ q = pid) ∧
      procesoCreado cfg k pid resto peticion peticiones = { k with
        listNewTcb := nuevos
        listReadyTcb := listos
        semThreadCount := n
        nextDir := k.nextDir + 1
        pcbs := Function.update k.pcbs pid (addTcbToPcb
          (nuevoTcb k pid peticion.nombreArchivo peticion.prioridad) (k.pcbs pid))
        memoria := (cfg.createThreadMemory k.memoria
          (nuevoTcb k pid peticion.nombreArchivo peticion.prioridad)).1
        listFirstThreadParams := peticiones
        listPcbNew := resto
        listPcbActive := activos } := by
  have hactivos : ∀ b : Prop, [Decidable b] →
      ∀ q ∈ (if b then k.listPcbActive ++ [pid] else k.listPcbActive),
        q ∈ k.listPcbActive ∨ q = pid := by
    intro b _ q hq
    split_ifs at hq
    · rcases List.mem_append.mp hq with hq | hq
      · exact Or.inl hq
      · exact Or.inr (List.mem_singleton.mp hq)
    · exact Or.inl hq
  unfold procesoCreado
  rcases createThread_cases cfg k pid peticion.nombreArchivo peticion.prioridad with
    ⟨l, t, m, _, _, _, _, heq⟩ | ⟨_, heq⟩
  · rw [heq]
    exact ⟨_, _, _, _, hactivos _, rfl⟩
  · rw [heq]
    exact ⟨_, _, _, _, hactivos _, rfl⟩

theorem threadExit_ajena
    {tcb : Tcb}
    (h : threadExit cfg tcb k = some k') :
    Ajena cfg k k' := by
  unfold threadExit at h
  have hmem : PideHilo cfg k.memoria (cfg.deleteThreadMemory k.memoria tcb).1 :=
    ⟨_, Or.inr rfl⟩
  have hexit : Ajena cfg k { (deleteThreadMemory cfg k tcb).1 with
      listExitTcb := addTcbToList (deleteThreadMemory cfg k tcb).1.listExitTcb tcb } :=
    Ajena.pide hmem rfl
  refine (hexit.trans ?_).trans
    (unlockTcbJoins_despierta.trans (releaseAllMutexes_despierta h)).ajena
  unfold descontarHilo
  split
  · rename_i pid hfind
    obtain ⟨rfl, hactive⟩ := findPcbByPid_some hfind
    exact Ajena.update (Or.inr hactive)
  · exact Ajena.of_soloHilos rfl

theorem despachar_ajena
    (h : despachar cfg k = some k') :
    Ajena cfg k k' := by
  obtain ⟨seguir, previo, proximo, k₁, _, _, rfl, hcases⟩ := despachar_cases h
  have hk₁ : SoloHilos k k₁ := by
    rcases hcases with ⟨_, _, rfl⟩ | ⟨_, l, m, n, q, _, _, rfl⟩
    · rfl
    · rfl
  have hrest : Ajena cfg k { k₁ with
      listReadyTcb := k₁.listReadyTcb.eraseP (Tcb.es proximo.parentPid proximo.tid)
      currentTcbExecuting := some proximo
      fase := .ejecutando proximo } := (Ajena.of_soloHilos hk₁).trans (Ajena.of_soloHilos rfl)
  refine ⟨hrest.viejos, hrest.nuevos, hrest.peticiones, hrest.emitidos, hrest.activos, ?_,
    hrest.pcbs, hrest.memoria⟩
  intro p hp
  obtain ⟨rfl, hactive⟩ := findPcbByPid_some hp
  exact Or.inr hactive

theorem finalizarHilo_ajena
    {pid i : Nat} {avance : Avance}
    (hviejos : k.listaTcbsBlockeados = [])
    (h : finalizarHilo cfg pid i k = some (k', avance)) :
    Ajena cfg k k' := by
  rcases finalizarHilo_cases hviejos h with ⟨_, _, rfl⟩ |
    ⟨tcb, _, _, ⟨_, _, rfl⟩ | ⟨_, _, hrelease⟩⟩
  · exact Ajena.of_soloHilos rfl
  · exact Ajena.pide ⟨tcb, Or.inr rfl⟩ rfl
  · refine Ajena.trans ?_ (releaseAllMutexes_despierta hrelease).ajena
    exact Ajena.pide ⟨tcb, Or.inr rfl⟩ rfl

theorem reanudarHilo_ajena
    {pid i : Nat}
    (hviejos : k.listaTcbsBlockeados = [])
    (h : reanudarHilo pid i k = some k') :
    Ajena cfg k k' := by
  obtain ⟨n, tcb, _, _, hrelease⟩ := reanudarHilo_cases hviejos h
  refine Ajena.trans ?_ (releaseAllMutexes_despierta hrelease).ajena
  exact Ajena.of_soloHilos rfl

theorem mutexLock_ajena
    {name : List Char} {tcb : Tcb} {reservado : Bool}
    (h : mutexLock cfg name tcb k = some (k', reservado)) :
    Ajena cfg k k' := by
  rcases mutexLock_cases h with ⟨_, rfl, salida, rfl⟩ |
    ⟨m, _, ⟨_, rfl, rfl⟩ | ⟨_, _, rfl, rfl⟩ | ⟨_, _, _, rfl, rfl⟩⟩
  · exact Ajena.pide ⟨tcb, Or.inr rfl⟩ rfl
  · exact Ajena.of_soloHilos rfl
  · exact Ajena.of_soloHilos rfl
  · exact Ajena.of_soloHilos rfl

/-- Of the syscalls only PROCESS_CREATE creates or ends a process at once. -/
theorem atenderSyscall_ajena
    {proximo : Tcb} {pid : Nat} {m : Mensaje Nat}
    (hpid : k.currentPcbExecuting = some pid ∨ ∃ tid ppid, m = .kernelInterruption tid ppid)
    (h : atenderSyscall cfg proximo pid m k = some k') :
    (∃ path size priority, m = .processCreate path size priority ∧
      k' = seguirCon proximo
        (tryCreateNewProcessLoop cfg (pedirProceso path size priority k))) ∨
    ((∀ path size priority, m ≠ .processCreate path size priority) ∧ Ajena cfg k k') := by
  cases m with
  | processCreate path size priority =>
      cases h
      exact Or.inl ⟨path, size, priority, rfl, rfl⟩
  | processExit x =>
      cases h
      exact Or.inr ⟨by simp, Ajena.of_soloHilos rfl⟩
  | segmentationFault x y =>
      cases h
      exact Or.inr ⟨by simp, Ajena.of_soloHilos rfl⟩
  | threadCreate path priority =>
      cases h
      have hcurrent : k.currentPcbExecuting = some pid := by
        rcases hpid with hpid | ⟨_, _, hno⟩
        · exact hpid
        · cases hno
      exact Or.inr ⟨by simp, (createThread_ajena path priority hcurrent).trans
        (Ajena.of_soloHilos rfl)⟩
  | threadJoin tid =>
      cases h
      refine Or.inr ⟨by simp, Ajena.of_soloHilos ?_⟩
      rcases threadJoin_cases tid proximo k with ⟨_, heq⟩ | ⟨_, _, heq⟩
      · rw [heq]
        rfl
      · rw [heq]
        rfl
  | threadCancel tid =>
      obtain ⟨k₁, hcancel, hk'⟩ := Option.bind_eq_some_iff.mp h
      cases hk'
      refine Or.inr ⟨by simp, Ajena.trans ?_ (Ajena.of_soloHilos rfl)⟩
      rcases threadCancel_cases hcancel with ⟨tcb, _, rfl⟩ | ⟨_, _, rfl⟩
      · exact unlockTcbJoins_despierta.ajena
      · exact Ajena.of_soloHilos rfl
  | threadExit x =>
      obtain ⟨k₁, hexit, hk'⟩ := Option.bind_eq_some_iff.mp h
      cases hk'
      exact Or.inr ⟨by simp, (threadExit_ajena hexit).trans (Ajena.of_soloHilos rfl)⟩
  | mutexCreate name x =>
      obtain ⟨k₁, hcreate, hk'⟩ := Option.bind_eq_some_iff.mp h
      cases hk'
      have hcurrent : k.currentPcbExecuting = some pid := by
        rcases hpid with hpid | ⟨_, _, hno⟩
        · exact hpid
        · cases hno
      refine Or.inr ⟨by simp, Ajena.trans ?_ (Ajena.of_soloHilos rfl)⟩
      rcases mutexCreate_cases hcreate with rfl | ⟨_, rfl⟩
      · exact Ajena.of_soloHilos rfl
      · exact (Ajena.update (Or.inl hcurrent)).trans (Ajena.of_soloHilos rfl)
  | mutexLock name x =>
      obtain ⟨⟨k₁, reservado⟩, hlock, hk'⟩ := Option.bind_eq_some_iff.mp h
      cases hk'
      refine Or.inr ⟨by simp, (mutexLock_ajena hlock).trans (Ajena.of_soloHilos ?_)⟩
      cases reservado
      · rfl
      · rfl
  | mutexUnlock name x =>
      obtain ⟨k₁, hunlock, hk'⟩ := Option.bind_eq_some_iff.mp h
      cases hk'
      exact Or.inr ⟨by simp, (mutexUnlock_despierta hunlock).ajena.trans (Ajena.of_soloHilos rfl)⟩
  | dumpMemory x y =>
      cases h
      exact Or.inr ⟨by simp, Ajena.of_soloHilos rfl⟩
  | io milisegundos =>
      obtain ⟨tcb, _, hk'⟩ := Option.bind_eq_some_iff.mp h
      cases hk'
      exact Or.inr ⟨by simp, Ajena.of_soloHilos rfl⟩
  | kernelInterruption x y =>
      cases h
      exact Or.inr ⟨by simp, Ajena.of_soloHilos rfl⟩

theorem terminarProceso_finDe
    {pid : Nat}
    (hpid : k.currentPcbExecuting = some pid) :
    FinDe cfg pid k (terminarProceso cfg .segmentationFault pid k) := by
  obtain ⟨pcbs, salida, k₁, rfl, hpcbs, heq⟩ :=
    terminarProceso_cases cfg .segmentationFault pid k
  rw [heq]
  refine ⟨rfl, rfl, rfl, rfl, rfl, rfl, ?_, rfl⟩
  intro q hq
  refine hpcbs q ?_
  rintro rfl
  exact hq hpid

/-- A process ended, up to where the dispatcher goes on. -/
theorem FinDe.conFase
    {pid : Nat}
    (h : FinDe cfg pid k k')
    (fase : Fase) :
    FinDe cfg pid k { k' with fase := fase } :=
  ⟨h.viejos, h.nuevos, h.peticiones, h.emitidos, h.activos, h.actual, h.pcbs, h.memoria⟩

/-- The four things a step is for the long-term scheduler. -/
inductive LargoPlazo (cfg : Config μ) (k : Globals μ) (e : Evento) (k' : Globals μ) : Prop
  | ajena :
      llamadaBucle cfg k e = none →
      finSinBucle k e = none →
      Ajena cfg k k' →
      LargoPlazo cfg k e k'
  | creado {path : List Char} {size priority : Nat} {fase : Fase} :
      e = .respuesta (.processCreate path size priority) →
      k' = { tryCreateNewProcessLoop cfg
              (pedirProceso path size priority (interruptQuantum k)) with fase := fase } →
      LargoPlazo cfg k e k'
  | salida {pid : Nat} {fase : Fase} {k₁ k₂ : Globals μ} :
      e = .seguirFin →
      k.currentPcbExecuting = some pid →
      llamadaBucle cfg k e = some k₂ →
      finSinBucle k e = none →
      Ajena cfg k k₁ →
      FinDe cfg pid k₁ k₂ →
      k' = { tryCreateNewProcessLoop cfg k₂ with fase := fase } →
      LargoPlazo cfg k e k'
  | sinBucle {pid : Nat} :
      llamadaBucle cfg k e = none →
      finSinBucle k e = some pid →
      FinDe cfg pid k k' →
      LargoPlazo cfg k e k'

theorem seguirFin_largoPlazo
    (hviejos : k.listaTcbsBlockeados = [])
    (h : seguirFin cfg k = some k') :
    LargoPlazo cfg k .seguirFin k' := by
  rcases seguirFin_cases h with
    ⟨causa, proximo, i, pid, k₁, avance, hfase, hpid, hround, hcases⟩ |
    ⟨causa, proximo, i, pid, k₁, hfase, hpid, hround, rfl⟩
  · have hajena := finalizarHilo_ajena hviejos hround
    have hrounds := finalizarHilo_cases hviejos hround
    have htermina : avance = .termina → (k.pcbs pid).tidCount ≤ i ∧ k₁ = k ∧
        FinDe cfg pid k₁ (terminarProceso cfg .segmentationFault pid k₁) := by
      rintro rfl
      rcases hrounds with ⟨_, hle, rfl⟩ | ⟨_, _, _, ⟨hno, _⟩ | ⟨hno, _⟩⟩
      · exact ⟨hle, rfl, terminarProceso_finDe hpid⟩
      · cases hno
      · cases hno
    cases causa with
    | processExit =>
        have hfin : finSinBucle k .seguirFin = none := by
          simp only [finSinBucle, hfase, hpid]
        rcases hcases with ⟨rfl, rfl⟩ | ⟨rfl, rfl⟩ | ⟨rfl, rfl⟩
        · refine LargoPlazo.ajena ?_ hfin (hajena.trans (Ajena.of_soloHilos rfl))
          simp only [llamadaBucle, hfase, hpid, hround]
        · refine LargoPlazo.ajena ?_ hfin (hajena.trans (Ajena.of_soloHilos rfl))
          simp only [llamadaBucle, hfase, hpid, hround]
        · obtain ⟨_, _, hend⟩ := htermina rfl
          have hllama : llamadaBucle cfg k .seguirFin =
              some (terminarProceso cfg .segmentationFault pid k₁) := by
            simp only [llamadaBucle, hfase, hpid, hround]
          exact LargoPlazo.salida rfl hpid hllama hfin hajena hend rfl
    | segmentationFault =>
        have hllama : llamadaBucle cfg k .seguirFin = none := by
          simp only [llamadaBucle, hfase, hpid]
        have hfin : finSinBucle k .seguirFin =
            if i < (k.pcbs pid).tidCount then none else some pid := by
          simp only [finSinBucle, hfase, hpid]
        have hsigue : avance ≠ .termina → finSinBucle k .seguirFin = none := by
          intro hno
          rcases hrounds with ⟨hend, _, _⟩ | ⟨_, hlt, _, _⟩
          · exact absurd hend hno
          · rw [hfin, if_pos hlt]
        rcases hcases with ⟨rfl, rfl⟩ | ⟨rfl, rfl⟩ | ⟨rfl, rfl⟩
        · exact LargoPlazo.ajena hllama (hsigue (by simp))
            (hajena.trans (Ajena.of_soloHilos rfl))
        · exact LargoPlazo.ajena hllama (hsigue (by simp))
            (hajena.trans (Ajena.of_soloHilos rfl))
        · obtain ⟨hle, rfl, hend⟩ := htermina rfl
          refine LargoPlazo.sinBucle hllama ?_ (hend.conFase _)
          rw [hfin, if_neg (Nat.not_lt.mpr hle)]
  · refine LargoPlazo.ajena ?_ ?_
      ((reanudarHilo_ajena hviejos hround).trans (Ajena.of_soloHilos rfl))
    · simp [llamadaBucle, hfase]
    · simp [finSinBucle, hfase]

theorem dumpSeguir_largoPlazo
    {j : Nat}
    (hviejos : k.listaTcbsBlockeados = [])
    (h : dumpSeguir cfg j k = some k') :
    LargoPlazo cfg k (.dumpSeguir j) k' := by
  obtain ⟨d, hd, ⟨pid, i, k₁, avance, hfase, hround, hcases⟩ |
    ⟨pid, i, k₁, hfase, hround, rfl⟩⟩ := dumpSeguir_cases h
  · obtain ⟨tcb, fase⟩ := d
    cases hfase
    have hajena := finalizarHilo_ajena hviejos hround
    have hfin : finSinBucle k (.dumpSeguir j) =
        if i < (k.pcbs pid).tidCount then none else some pid := by
      simp [finSinBucle, hd]
    rcases finalizarHilo_cases hviejos hround with ⟨rfl, hle, rfl⟩ | ⟨_, hlt, _, hsigue⟩
    · rcases hcases with ⟨hno, _⟩ | ⟨hno, _⟩ | ⟨_, rfl⟩
      · cases hno
      · cases hno
      · exact LargoPlazo.sinBucle rfl (by simp [hfin, hle])
          ⟨rfl, rfl, rfl, rfl, rfl, rfl, fun _ _ => rfl, rfl⟩
    · have hnone : finSinBucle k (.dumpSeguir j) = none := by
        simp [hfin, hlt]
      rcases hcases with ⟨_, rfl⟩ | ⟨_, rfl⟩ | ⟨rfl, _⟩
      · exact LargoPlazo.ajena rfl hnone (hajena.trans (Ajena.of_soloHilos rfl))
      · exact LargoPlazo.ajena rfl hnone (hajena.trans (Ajena.of_soloHilos rfl))
      · rcases hsigue with ⟨hno, _⟩ | ⟨hno, _⟩
        · cases hno
        · cases hno
  · obtain ⟨tcb, fase⟩ := d
    cases hfase
    exact LargoPlazo.ajena rfl (by simp [finSinBucle, hd])
      ((reanudarHilo_ajena hviejos hround).trans (Ajena.of_soloHilos rfl))

/-- Every step is one of the four. -/
theorem paso_largoPlazo
    {e : Evento}
    (hviejos : k.listaTcbsBlockeados = [])
    (h : paso cfg k e = some k') :
    LargoPlazo cfg k e k' := by
  cases e with
  | despachar =>
      exact LargoPlazo.ajena rfl rfl (despachar_ajena h)
  | respuesta m =>
      obtain ⟨proximo, pid, _, hpid, hsyscall⟩ := atenderMensaje_cases h
      have hquantum : Ajena cfg k (interruptQuantum k) := Ajena.of_soloHilos rfl
      rcases atenderSyscall_ajena (k := interruptQuantum k) hpid hsyscall with
        ⟨path, size, priority, rfl, rfl⟩ | ⟨hno, hajena⟩
      · exact LargoPlazo.creado rfl rfl
      · refine LargoPlazo.ajena ?_ rfl (hquantum.trans hajena)
        cases m with
        | processCreate path size priority =>
            exact absurd rfl (hno path size priority)
        | _ => rfl
  | seguirFin =>
      exact seguirFin_largoPlazo hviejos h
  | ioFin =>
      obtain ⟨request, resto, _, ⟨l, t, m, _, _, _, rfl⟩ | ⟨_, rfl⟩⟩ := ioFin_cases h
      · exact LargoPlazo.ajena rfl rfl (Ajena.of_soloHilos rfl)
      · exact LargoPlazo.ajena rfl rfl (Ajena.of_soloHilos rfl)
  | dumpRespuesta j r =>
      refine LargoPlazo.ajena rfl rfl (Ajena.of_soloHilos ?_)
      obtain ⟨d, _, _, ⟨_, rfl⟩ | ⟨_, _, rfl⟩ | ⟨_, rfl⟩⟩ := dumpRespuesta_cases h
      · rfl
      · rfl
      · rfl
  | dumpSeguir j =>
      exact dumpSeguir_largoPlazo hviejos h

end Frame

end Kernel
end SinIdeas
