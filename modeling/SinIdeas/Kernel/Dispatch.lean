import SinIdeas.Lib.Runs
import SinIdeas.Kernel.Threads

/-!
# The dispatcher

The loop of `enviar_pcb_y_esperar_respuesta` with the schedulers it calls, the
IO device and the threads that dump memory, as one step function over the global
variables of the kernel. An event is what one of these threads does next; a step
is `none` where the event is not enabled or the source follows a null pointer.
-/

namespace SinIdeas
namespace Kernel

variable {μ : Type}

/-- What memoria answers to a dump, if it can be reached. -/
inductive RespuestaDump where
  | ok
  | error
  | sinConexion
  deriving DecidableEq

/-- What happens next: the dispatcher takes a thread, receives a message or goes
on ending a process, the IO device finishes a request, or the dump at an index
gets its answer or goes on ending its process. -/
inductive Evento where
  | despachar
  | respuesta (m : Mensaje Nat)
  | seguirFin
  | ioFin
  | dumpRespuesta (j : Nat) (r : RespuestaDump)
  | dumpSeguir (j : Nat)
  deriving DecidableEq

/-- `interrupt_quantum`. -/
def interruptQuantum (k : Globals μ) : Globals μ := { k with quantumInterrupted := true }

/-- `schedule_next_FIFO`. -/
def scheduleNextFifo (k : Globals μ) : Option (Tcb × Globals μ) :=
  match k.listReadyTcb with
  | [] => none
  | tcb :: resto => some (tcb, { k with listReadyTcb := resto })

/-- The loop of `schedule_next_PRIORITIES` from index `i`, with the selected index. -/
def indicePrioritario (selected : Tcb) (selectedIndex : Nat) : Nat → List Tcb → Nat
  | _, [] => selectedIndex
  | i, current :: resto =>
      if current.priority < selected.priority then
        indicePrioritario current i (i + 1) resto
      else
        indicePrioritario selected selectedIndex (i + 1) resto

/-- `schedule_next_PRIORITIES`. -/
def scheduleNextPriorities (k : Globals μ) : Option (Tcb × Globals μ) :=
  match k.listReadyTcb with
  | [] => none
  | tcb :: resto => do
      let i := indicePrioritario tcb 0 1 resto
      let elegido ← k.listReadyTcb[i]?
      some (elegido, { k with listReadyTcb := k.listReadyTcb.eraseIdx i })

/-- `schedule_next_tcb`. -/
def scheduleNextTcb (cfg : Config μ) (k : Globals μ) : Option (Tcb × Globals μ) :=
  match cfg.schedulerAlgorithm with
  | .fifo => scheduleNextFifo k
  | .prioridades => scheduleNextPriorities k
  | .cmn => scheduleNextPriorities { k with semQuantum := k.semQuantum + 1 }
  | .otro => none

/-- The thread that runs next: the previous one or a scheduled one. -/
def elegirTcb (cfg : Config μ) (seguir : Bool) (previo : Option Tcb) (k : Globals μ) :
    Option (Tcb × Globals μ) :=
  if seguir then do
    let tcb ← previo
    some (tcb, k)
  else do
    let k ← waitThreadCount k
    scheduleNextTcb cfg k

/-- `dispatch_thread`. -/
def dispatchThread (tcb : Tcb) (k : Globals μ) : Globals μ :=
  { k with
    listReadyTcb := (removeTcbFromList k.listReadyTcb tcb.parentPid tcb.tid).2
    currentTcbExecuting := some tcb }

/-- The top of the loop, up to the message of the CPU. -/
def despachar (cfg : Config μ) (k : Globals μ) : Option (Globals μ) :=
  match k.fase with
  | .planificar seguir previo => do
      let (proximo, k) ← elegirTcb cfg seguir previo k
      some { dispatchThread proximo
              { k with currentPcbExecuting := findPcbByPid k proximo.parentPid } with
            fase := .ejecutando proximo }
  | _ => none

/-- Back to the top of the loop with the same thread. -/
def seguirCon (proximo : Tcb) (k : Globals μ) : Globals μ :=
  { k with fase := .planificar true (some proximo) }

/-- Back to the top of the loop for another thread. -/
def soltar (proximo : Tcb) (k : Globals μ) : Globals μ :=
  { k with fase := .planificar false (some proximo) }

/-- PROCESS_CREATE. -/
def processCreate (cfg : Config μ) (path : List Char) (size priority : Nat) (k : Globals μ) :
    Globals μ :=
  let k := createProcess k size
  tryCreateNewProcessLoop cfg
    { k with listFirstThreadParams := k.listFirstThreadParams ++
        [{ nombreArchivo := path, tamanioProceso := size, prioridad := priority }] }

/-- THREAD_JOIN. -/
def threadJoin (tid : Nat) (proximo : Tcb) (k : Globals μ) : Globals μ :=
  match findTcbFromTid k tid proximo.parentPid with
  | none => seguirCon proximo k
  | some blocking => soltar proximo (addTcbJoin proximo blocking k)

/-- THREAD_CANCEL: only the joins on the thread are undone. -/
def threadCancel (tid : Nat) (proximo : Tcb) (k : Globals μ) : Option (Globals μ) :=
  match findTcbFromTid k tid proximo.parentPid with
  | some tcb => some (unlockTcbJoins tcb.parentPid tcb.tid k)
  | none => if k.listTcbJoins = [] then some k else none

/-- THREAD_EXIT counts one thread less in the parent PCB, if it is active. -/
def descontarHilo (pid : Nat) (k : Globals μ) : Globals μ :=
  match findPcbByPid k pid with
  | some pid => modificarPcb k pid (fun pcb => { pcb with tidCount := pcb.tidCount - 1 })
  | none => k

/-- THREAD_EXIT. -/
def threadExit (cfg : Config μ) (proximo : Tcb) (k : Globals μ) : Option (Globals μ) :=
  let k := (deleteThreadMemory cfg k proximo).1
  let k := { k with listExitTcb := addTcbToList k.listExitTcb proximo }
  let k := descontarHilo proximo.parentPid k
  releaseAllMutexes proximo (unlockTcbJoins proximo.parentPid proximo.tid k)

/-- DUMP_MEMORY: the thread is blocked and a copy goes to its `dump_memory_thread`. -/
def dumpMemory (proximo : Tcb) (k : Globals μ) : Globals μ :=
  { k with
    listBlockedTcb := addTcbToList k.listBlockedTcb proximo
    dumps := k.dumps ++ [{ tcb := proximo, fase := .enVuelo }] }

/-- `request_io`. -/
def requestIo (tcb : Tcb) (ioTime : Nat) (k : Globals μ) : Globals μ :=
  { k with
    ioRequestQueue := k.ioRequestQueue ++ [{ ioTime, pid := tcb.parentPid, tid := tcb.tid }]
    listBlockedTcb := addTcbToList k.listBlockedTcb { tcb with state := .blocked } }

/-- The `switch` for a message from `proximo`, with `current_pcb_executing`. -/
def atenderSyscall (cfg : Config μ) (proximo : Tcb) (pid : Nat) (m : Mensaje Nat)
    (k : Globals μ) : Option (Globals μ) :=
  match m with
  | .processCreate path size priority =>
      some (seguirCon proximo (processCreate cfg path size priority k))
  | .processExit _ => some { k with fase := .finalizando .processExit proximo 0 }
  | .threadCreate path priority =>
      some (seguirCon proximo (createThread cfg k pid path priority).1)
  | .threadJoin tid => some (threadJoin tid proximo k)
  | .threadCancel tid => do
      let k ← threadCancel tid proximo k
      some (seguirCon proximo k)
  | .threadExit _ => do
      let k ← threadExit cfg proximo k
      some (soltar proximo k)
  | .mutexCreate name _ => do
      let k ← mutexCreate name pid k
      some (seguirCon proximo k)
  | .mutexLock name _ => do
      let (k, reservado) ← mutexLock cfg name proximo k
      some (if reservado then seguirCon proximo k else soltar proximo k)
  | .mutexUnlock name _ => do
      let k ← mutexUnlock name proximo k
      some (seguirCon proximo k)
  | .dumpMemory _ _ => some (soltar proximo (dumpMemory proximo k))
  | .io milisegundos => do
      let tcb ← k.currentTcbExecuting
      some (soltar proximo (requestIo tcb milisegundos k))
  | .segmentationFault _ _ => some { k with fase := .finalizando .segmentationFault proximo 0 }
  | .kernelInterruption _ _ =>
      some (soltar proximo
        (postThreadCount { k with listReadyTcb := addTcbToList k.listReadyTcb proximo }))

/-- A message arrives. Only an interruption does not look at the executing PCB. -/
def atenderMensaje (cfg : Config μ) (m : Mensaje Nat) (k : Globals μ) : Option (Globals μ) :=
  match k.fase with
  | .ejecutando proximo =>
      match m, k.currentPcbExecuting with
      | .kernelInterruption _ _, _ => atenderSyscall cfg proximo 0 m (interruptQuantum k)
      | _, some pid => atenderSyscall cfg proximo pid m (interruptQuantum k)
      | _, none => none
  | _ => none

/-- The end of PROCESS_EXIT and SEGMENTATION_FAULT, after the loop over the threads. -/
def terminarProceso (cfg : Config μ) (causa : Causa) (pid : Nat) (k : Globals μ) :
    Globals μ :=
  let k := deleteProcessMemory cfg k pid
  let k := modificarPcb k pid (fun pcb => { pcb with tcbs := [], tidCount := 0 })
  let k := movePcbToExit k pid
  match causa with
  | .processExit => tryCreateNewProcessLoop cfg k
  | .segmentationFault => k

/-- The dispatcher goes on in the loop that ends the executing process. -/
def seguirFin (cfg : Config μ) (k : Globals μ) : Option (Globals μ) :=
  match k.fase with
  | .finalizando causa proximo i => do
      let pid ← k.currentPcbExecuting
      let (k, avance) ← finalizarHilo cfg pid i k
      match avance with
      | .espera => some { k with fase := .esperando causa proximo i }
      | .sigue => some { k with fase := .finalizando causa proximo (i + 1) }
      | .termina => some (soltar proximo (terminarProceso cfg causa pid k))
  | .esperando causa proximo i => do
      let pid ← k.currentPcbExecuting
      let k ← reanudarHilo pid i k
      some { k with fase := .finalizando causa proximo (i + 1) }
  | _ => none

/-- `io_device_thread`, for the request at the head of the queue, in one step. Its critical
sections are steps of their own in `pasoIo` and in `pasoSeparado`. -/
def ioFin (k : Globals μ) : Option (Globals μ) :=
  match k.ioRequestQueue with
  | [] => none
  | request :: resto =>
      let k := { k with ioRequestQueue := resto }
      match removeTcbFromList k.listBlockedTcb request.pid request.tid with
      | (none, _) => some k
      | (some tcb, blocked) =>
          some (postThreadCount { k with
            listBlockedTcb := blocked
            listReadyTcb := addTcbToList k.listReadyTcb { tcb with state := .ready } })

/-- `dump_memory_thread`, when memoria has answered. -/
def dumpRespuesta (j : Nat) (r : RespuestaDump) (k : Globals μ) : Option (Globals μ) := do
  let d ← k.dumps[j]?
  match d.fase, r with
  | .enVuelo, .ok =>
      some (postThreadCount
        (desbloquear { k with dumps := k.dumps.eraseIdx j } d.tcb.parentPid d.tcb.tid))
  | .enVuelo, .error => do
      let pid ← findPcbByPid k d.tcb.parentPid
      some { k with dumps := k.dumps.set j { d with fase := .finalizando pid 0 } }
  | .enVuelo, .sinConexion => some { k with dumps := k.dumps.eraseIdx j }
  | _, _ => none

/-- `dump_memory_thread` goes on in the loop that ends its process. -/
def dumpSeguir (cfg : Config μ) (j : Nat) (k : Globals μ) : Option (Globals μ) := do
  let d ← k.dumps[j]?
  match d.fase with
  | .finalizando pid i => do
      let (k, avance) ← finalizarHilo cfg pid i k
      match avance with
      | .espera => some { k with dumps := k.dumps.set j { d with fase := .esperando pid i } }
      | .sigue =>
          some { k with dumps := k.dumps.set j { d with fase := .finalizando pid (i + 1) } }
      | .termina =>
          some (removePcbFromActive
            (deleteProcessMemory cfg { k with dumps := k.dumps.eraseIdx j } pid) pid)
  | .esperando pid i => do
      let k ← reanudarHilo pid i k
      some { k with dumps := k.dumps.set j { d with fase := .finalizando pid (i + 1) } }
  | .enVuelo => none

/-- One step of the kernel. -/
def paso (cfg : Config μ) (k : Globals μ) : Evento → Option (Globals μ)
  | .despachar => despachar cfg k
  | .respuesta m => atenderMensaje cfg m k
  | .seguirFin => seguirFin cfg k
  | .ioFin => ioFin k
  | .dumpRespuesta j r => dumpRespuesta j r k
  | .dumpSeguir j => dumpSeguir cfg j k

/-- The kernel after `main` has created the first process. In `Separado.inicio` its PCB is
not yet in `list_PCB_active`. -/
def arranque (cfg : Config μ) (memoria : μ) (path : List Char) (size : Nat) : Globals μ :=
  processCreate cfg path size 0 (inicial memoria)

/-- `k` is reached from the start by steps that meet `ok`. -/
def Alcanza (cfg : Config μ) (ok : Globals μ → Evento → Prop) (es : List Evento)
    (k : Globals μ) : Prop :=
  ∃ memoria path size,
    Lib.Run (fun a e b => paso cfg a e = some b) ok (arranque cfg memoria path size) es k

/-- A memoria that has room for everything. -/
def siempreOk (schedulerAlgorithm : SchedulerAlgorithm) : Config Unit where
  schedulerAlgorithm := schedulerAlgorithm
  createProcessMemory := fun _ _ _ => ((), true)
  createThreadMemory := fun _ _ => ((), true)
  deleteProcessMemory := fun _ _ _ => ((), true)
  deleteThreadMemory := fun _ _ => ((), true)

/-- An execution from the start is a run. -/
theorem alcanza_of_isSome
    {cfg : Config μ} {ok : Globals μ → Evento → Prop} {es : List Evento}
    (memoria : μ) (path : List Char) (size : Nat)
    (hguard : Lib.guarded (paso cfg) ok (arranque cfg memoria path size) es)
    (hexec : (Lib.execute (paso cfg) (arranque cfg memoria path size) es).isSome) :
    Alcanza cfg ok es ((Lib.execute (paso cfg) (arranque cfg memoria path size) es).get hexec) :=
  ⟨memoria, path, size, Lib.run_of_isSome (paso cfg) id hguard hexec⟩

/-- The TCB that `dispatch_thread` takes out of READY by its identifiers although it
is not the one that runs. -/
def gemeloEnReady (cfg : Config μ) (k : Globals μ) : Option Tcb :=
  match k.fase with
  | .planificar seguir previo => do
      let (proximo, k) ← elegirTcb cfg seguir previo k
      findTcbInList k.listReadyTcb proximo.parentPid proximo.tid
  | _ => none

section Scheduling

variable {cfg : Config μ} {k k' : Globals μ} {tcb : Tcb}

/-- A scheduler takes one TCB out of READY. -/
theorem scheduleNextTcb_cases
    (h : scheduleNextTcb cfg k = some (tcb, k')) :
    ∃ l m q, k.listReadyTcb = l ++ tcb :: m ∧
      k' = { k with listReadyTcb := l ++ m, semQuantum := q } := by
  have hprio : ∀ a : Globals μ, scheduleNextPriorities a = some (tcb, k') →
      ∃ l m, a.listReadyTcb = l ++ tcb :: m ∧ k' = { a with listReadyTcb := l ++ m } := by
    intro a ha
    unfold scheduleNextPriorities at ha
    split at ha
    · cases ha
    · rename_i t resto hready
      generalize indicePrioritario t 0 1 resto = i at ha
      cases hi : a.listReadyTcb[i]? with
      | none =>
          simp [hi] at ha
      | some u =>
          simp only [hi, Option.bind_eq_bind, Option.bind_some, Option.some.injEq,
            Prod.mk.injEq] at ha
          obtain ⟨rfl, rfl⟩ := ha
          obtain ⟨hlt, hget⟩ := List.getElem?_eq_some_iff.mp hi
          refine ⟨a.listReadyTcb.take i, a.listReadyTcb.drop (i + 1), ?_, ?_⟩
          · rw [← hget, ← List.drop_eq_getElem_cons hlt, List.take_append_drop]
          · rw [List.eraseIdx_eq_take_drop_succ]
  unfold scheduleNextTcb at h
  split at h
  · unfold scheduleNextFifo at h
    split at h
    · cases h
    · rename_i t resto hready
      cases h
      exact ⟨[], resto, k.semQuantum, hready, rfl⟩
  · obtain ⟨l, m, hready, rfl⟩ := hprio k h
    exact ⟨l, m, k.semQuantum, hready, rfl⟩
  · obtain ⟨l, m, hready, rfl⟩ := hprio _ h
    exact ⟨l, m, k.semQuantum + 1, hready, rfl⟩
  · cases h

theorem indicePrioritario_lt
    {selected : Tcb} {s i n : Nat} {resto : List Tcb}
    (hs : s < n)
    (hn : i + resto.length = n) :
    indicePrioritario selected s i resto < n := by
  induction resto generalizing selected s i with
  | nil =>
      exact hs
  | cons current resto ih =>
      rw [List.length_cons] at hn
      unfold indicePrioritario
      split_ifs
      · exact ih (by omega) (by omega)
      · exact ih hs (by omega)

/-- A scheduler that is known finds a TCB unless READY is empty. -/
theorem scheduleNextTcb_isSome
    (halgoritmo : cfg.schedulerAlgorithm ≠ .otro)
    (hready : k.listReadyTcb ≠ []) :
    (scheduleNextTcb cfg k).isSome := by
  have hprio : ∀ a : Globals μ, a.listReadyTcb ≠ [] → (scheduleNextPriorities a).isSome := by
    intro a ha
    unfold scheduleNextPriorities
    split
    · rename_i hnil
      exact absurd hnil ha
    · rename_i t resto hcons
      have hlt : indicePrioritario t 0 1 resto < a.listReadyTcb.length := by
        rw [hcons, List.length_cons]
        exact indicePrioritario_lt (Nat.zero_lt_succ _) (Nat.add_comm 1 _)
      simp [List.getElem?_eq_getElem hlt]
  cases halg : cfg.schedulerAlgorithm with
  | fifo =>
      simp only [scheduleNextTcb, halg, scheduleNextFifo]
      split
      · rename_i hnil
        exact absurd hnil hready
      · rfl
  | prioridades =>
      simp only [scheduleNextTcb, halg]
      exact hprio k hready
  | cmn =>
      simp only [scheduleNextTcb, halg]
      exact hprio _ hready
  | otro =>
      exact absurd halg halgoritmo

/-- Everything the top of the loop can do. -/
theorem despachar_cases
    (h : despachar cfg k = some k') :
    ∃ seguir previo proximo k₁, k.fase = .planificar seguir previo ∧
      elegirTcb cfg seguir previo k = some (proximo, k₁) ∧
      k' = { k₁ with
        currentPcbExecuting := findPcbByPid k proximo.parentPid
        listReadyTcb := k₁.listReadyTcb.eraseP (Tcb.es proximo.parentPid proximo.tid)
        currentTcbExecuting := some proximo
        fase := .ejecutando proximo } ∧
      ((seguir = true ∧ previo = some proximo ∧ k₁ = k) ∨
      (seguir = false ∧ ∃ l m n q, k.listReadyTcb = l ++ proximo :: m ∧
        k.semThreadCount = n + 1 ∧
        k₁ = { k with listReadyTcb := l ++ m, semThreadCount := n, semQuantum := q })) := by
  unfold despachar at h
  split at h
  · rename_i seguir previo hfase
    cases helegir : elegirTcb cfg seguir previo k with
    | none =>
        simp [helegir] at h
    | some r =>
        obtain ⟨proximo, k₁⟩ := r
        simp only [helegir, Option.bind_eq_bind, Option.bind_some, Option.some.injEq] at h
        refine ⟨seguir, previo, proximo, k₁, hfase, helegir, ?_⟩
        unfold elegirTcb at helegir
        cases seguir with
        | true =>
            cases previo with
            | none =>
                simp at helegir
            | some tcb =>
                simp only [if_true, Option.bind_eq_bind, Option.bind_some, Option.some.injEq,
                  Prod.mk.injEq] at helegir
                obtain ⟨rfl, rfl⟩ := helegir
                exact ⟨h.symm, Or.inl ⟨rfl, rfl, rfl⟩⟩
        | false =>
            unfold waitThreadCount at helegir
            cases hsem : k.semThreadCount with
            | zero =>
                simp [hsem] at helegir
            | succ n =>
                simp only [hsem, if_false, Option.bind_eq_bind, Option.bind_some,
                  Bool.false_eq_true] at helegir
                obtain ⟨l, m, q, hready, rfl⟩ := scheduleNextTcb_cases helegir
                exact ⟨h.symm, Or.inr ⟨rfl, l, m, n, q, hready, rfl, rfl⟩⟩
  · cases h

/-- A message is attended while the CPU has a thread. -/
theorem atenderMensaje_cases
    {m : Mensaje Nat}
    (h : atenderMensaje cfg m k = some k') :
    ∃ proximo pid, k.fase = .ejecutando proximo ∧
      (k.currentPcbExecuting = some pid ∨ ∃ tid ppid, m = .kernelInterruption tid ppid) ∧
      atenderSyscall cfg proximo pid m (interruptQuantum k) = some k' := by
  unfold atenderMensaje at h
  split at h
  · rename_i proximo hfase
    split at h
    · exact ⟨proximo, 0, hfase, Or.inr ⟨_, _, rfl⟩, h⟩
    · rename_i pid _ hpcb
      exact ⟨proximo, pid, hfase, Or.inl hpcb, h⟩
    · cases h
  · cases h

/-- Everything THREAD_EXIT can do. -/
theorem threadExit_cases
    (h : threadExit cfg tcb k = some k') :
    ∃ pcbs k₁, k₁ = { k with
        memoria := (cfg.deleteThreadMemory k.memoria tcb).1
        listExitTcb := addTcbToList k.listExitTcb tcb
        pcbs := pcbs } ∧
      (∀ q, (pcbs q).tcbs = (k.pcbs q).tcbs ∧ (pcbs q).tidCount ≤ (k.pcbs q).tidCount) ∧
      (∀ q, q ≠ tcb.parentPid → pcbs q = k.pcbs q) ∧
      releaseAllMutexes tcb (unlockTcbJoins tcb.parentPid tcb.tid k₁) = some k' := by
  unfold threadExit descontarHilo at h
  dsimp only at h
  split at h
  · rename_i pid hfind
    have hpid : pid = tcb.parentPid := (findPcbByPid_some hfind).1
    subst hpid
    refine ⟨_, _, rfl, ?_, ?_, h⟩
    · intro q
      by_cases hq : q = tcb.parentPid
      · subst hq
        simp [deleteThreadMemory]
      · simp [deleteThreadMemory, hq]
    · intro q hq
      simp [deleteThreadMemory, hq]
  · exact ⟨k.pcbs, _, rfl, fun q => ⟨rfl, le_rfl⟩, fun q _ => rfl, h⟩

/-- The end of a process before the long-term scheduler runs. -/
theorem terminarProceso_cases
    (cfg : Config μ) (causa : Causa) (pid : Nat) (k : Globals μ) :
    ∃ pcbs salida k₁, k₁ = { k with
        memoria := (cfg.deleteProcessMemory k.memoria pid (k.pcbs pid).size).1
        pcbs := pcbs
        listPcbActive := k.listPcbActive.eraseP (fun p => p == pid)
        listPcbExit := salida } ∧
      (∀ q, q ≠ pid → pcbs q = k.pcbs q) ∧
      terminarProceso cfg causa pid k =
        match causa with
        | .processExit => tryCreateNewProcessLoop cfg k₁
        | .segmentationFault => k₁ := by
  obtain ⟨pcbs, salida, hpcbs, heq⟩ := movePcbToExit_cases
    (modificarPcb (deleteProcessMemory cfg k pid) pid
      (fun pcb => { pcb with tcbs := [], tidCount := 0 })) pid
  refine ⟨pcbs, salida, _, rfl, ?_, ?_⟩
  · intro q hq
    rw [hpcbs q hq]
    exact Function.update_of_ne hq _ _
  · unfold terminarProceso
    dsimp only
    rw [heq]
    rfl

theorem processCreate_admite
    (cfg : Config μ) (k : Globals μ) (path : List Char) (size priority : Nat) :
    Admite k (processCreate cfg path size priority k) := by
  unfold processCreate tryCreateNewProcessLoop
  refine Admite.trans ?_ (tryCreateRounds_admite _ _ _)
  rfl

/-- Everything THREAD_JOIN can do. -/
theorem threadJoin_cases
    (tid : Nat) (proximo : Tcb) (k : Globals μ) :
    (findTcbFromTid k tid proximo.parentPid = none ∧
      threadJoin tid proximo k = seguirCon proximo k) ∨
    (∃ blocking, findTcbFromTid k tid proximo.parentPid = some blocking ∧
      threadJoin tid proximo k = soltar proximo (addTcbJoin proximo blocking k)) := by
  unfold threadJoin
  cases findTcbFromTid k tid proximo.parentPid with
  | none =>
      exact Or.inl ⟨rfl, rfl⟩
  | some blocking =>
      exact Or.inr ⟨blocking, rfl, rfl⟩

/-- Everything THREAD_CANCEL can do. -/
theorem threadCancel_cases
    {tid : Nat} {proximo : Tcb}
    (h : threadCancel tid proximo k = some k') :
    (∃ tcb, findTcbFromTid k tid proximo.parentPid = some tcb ∧
      k' = unlockTcbJoins tcb.parentPid tcb.tid k) ∨
    (findTcbFromTid k tid proximo.parentPid = none ∧ k.listTcbJoins = [] ∧ k' = k) := by
  unfold threadCancel at h
  split at h
  · rename_i tcb hfind
    exact Or.inl ⟨tcb, hfind, (Option.some.inj h).symm⟩
  · rename_i hfind
    split_ifs at h with hnil
    exact Or.inr ⟨hfind, hnil, (Option.some.inj h).symm⟩

/-- Where a message leaves the dispatcher, and the dumps it starts. -/
theorem atenderSyscall_fase
    {proximo : Tcb} {pid : Nat} {m : Mensaje Nat}
    (h : atenderSyscall cfg proximo pid m k = some k') :
    ((∃ seguir, k'.fase = .planificar seguir (some proximo)) ∨
      (∃ causa, k' = { k with fase := .finalizando causa proximo 0 } ∧
        ((∃ x, m = .processExit x) ∨ ∃ x y, m = .segmentationFault x y))) ∧
    (k'.dumps = k.dumps ∨ k'.dumps = k.dumps ++ [{ tcb := proximo, fase := .enVuelo }]) := by
  cases m with
  | processCreate path size priority =>
      cases h
      refine ⟨Or.inl ⟨true, rfl⟩, Or.inl ?_⟩
      simp only [seguirCon]
      rw [processCreate_admite]
  | processExit x =>
      cases h
      exact ⟨Or.inr ⟨.processExit, rfl, Or.inl ⟨x, rfl⟩⟩, Or.inl rfl⟩
  | segmentationFault x y =>
      cases h
      exact ⟨Or.inr ⟨.segmentationFault, rfl, Or.inr ⟨x, y, rfl⟩⟩, Or.inl rfl⟩
  | threadCreate path priority =>
      cases h
      refine ⟨Or.inl ⟨true, rfl⟩, Or.inl ?_⟩
      simp only [seguirCon]
      rw [createThread_admite]
  | threadJoin tid =>
      cases h
      rcases threadJoin_cases tid proximo k with ⟨_, heq⟩ | ⟨_, _, heq⟩
      · rw [heq]
        exact ⟨Or.inl ⟨true, rfl⟩, Or.inl rfl⟩
      · rw [heq]
        exact ⟨Or.inl ⟨false, rfl⟩, Or.inl rfl⟩
  | threadCancel tid =>
      obtain ⟨k₁, hcancel, hk'⟩ := Option.bind_eq_some_iff.mp h
      cases hk'
      refine ⟨Or.inl ⟨true, rfl⟩, Or.inl ?_⟩
      rcases threadCancel_cases hcancel with ⟨tcb, _, rfl⟩ | ⟨_, _, rfl⟩
      · simp only [seguirCon]
        rw [unlockTcbJoins_despierta]
      · rfl
  | threadExit x =>
      obtain ⟨k₁, hexit, hk'⟩ := Option.bind_eq_some_iff.mp h
      cases hk'
      refine ⟨Or.inl ⟨false, rfl⟩, Or.inl ?_⟩
      obtain ⟨pcbs, k₂, hk₂, _, _, hrelease⟩ := threadExit_cases hexit
      simp only [soltar]
      rw [releaseAllMutexes_despierta hrelease]
      rw [unlockTcbJoins_despierta, hk₂]
  | mutexCreate name x =>
      obtain ⟨k₁, hcreate, hk'⟩ := Option.bind_eq_some_iff.mp h
      cases hk'
      refine ⟨Or.inl ⟨true, rfl⟩, Or.inl ?_⟩
      rcases mutexCreate_cases hcreate with rfl | ⟨_, rfl⟩ <;> rfl
  | mutexLock name x =>
      obtain ⟨⟨k₁, reservado⟩, hlock, hk'⟩ := Option.bind_eq_some_iff.mp h
      cases hk'
      constructor
      · refine Or.inl ⟨reservado, ?_⟩
        cases reservado <;> rfl
      · refine Or.inl ?_
        rcases mutexLock_cases hlock with ⟨_, rfl, salida, rfl⟩ |
          ⟨m, _, ⟨_, rfl, rfl⟩ | ⟨_, _, rfl, rfl⟩ | ⟨_, _, _, rfl, rfl⟩⟩ <;> rfl
  | mutexUnlock name x =>
      obtain ⟨k₁, hunlock, hk'⟩ := Option.bind_eq_some_iff.mp h
      cases hk'
      refine ⟨Or.inl ⟨true, rfl⟩, Or.inl ?_⟩
      simp only [seguirCon]
      rw [mutexUnlock_despierta hunlock]
  | dumpMemory x y =>
      cases h
      exact ⟨Or.inl ⟨false, rfl⟩, Or.inr rfl⟩
  | io milisegundos =>
      obtain ⟨tcb, _, hk'⟩ := Option.bind_eq_some_iff.mp h
      cases hk'
      exact ⟨Or.inl ⟨false, rfl⟩, Or.inl rfl⟩
  | kernelInterruption x y =>
      cases h
      exact ⟨Or.inl ⟨false, rfl⟩, Or.inl rfl⟩

/-- Everything a step of the loop that ends the executing process can do. -/
theorem seguirFin_cases
    (h : seguirFin cfg k = some k') :
    (∃ causa proximo i pid k₁ avance, k.fase = .finalizando causa proximo i ∧
      k.currentPcbExecuting = some pid ∧ finalizarHilo cfg pid i k = some (k₁, avance) ∧
      ((avance = .espera ∧ k' = { k₁ with fase := .esperando causa proximo i }) ∨
      (avance = .sigue ∧ k' = { k₁ with fase := .finalizando causa proximo (i + 1) }) ∨
      (avance = .termina ∧ k' = soltar proximo (terminarProceso cfg causa pid k₁)))) ∨
    (∃ causa proximo i pid k₁, k.fase = .esperando causa proximo i ∧
      k.currentPcbExecuting = some pid ∧ reanudarHilo pid i k = some k₁ ∧
      k' = { k₁ with fase := .finalizando causa proximo (i + 1) }) := by
  unfold seguirFin at h
  split at h
  · rename_i causa proximo i hfase
    obtain ⟨pid, hpid, h⟩ := Option.bind_eq_some_iff.mp h
    obtain ⟨⟨k₁, avance⟩, hround, h⟩ := Option.bind_eq_some_iff.mp h
    refine Or.inl ⟨causa, proximo, i, pid, k₁, avance, hfase, hpid, hround, ?_⟩
    cases avance with
    | espera =>
        cases h
        exact Or.inl ⟨rfl, rfl⟩
    | sigue =>
        cases h
        exact Or.inr (Or.inl ⟨rfl, rfl⟩)
    | termina =>
        cases h
        exact Or.inr (Or.inr ⟨rfl, rfl⟩)
  · rename_i causa proximo i hfase
    obtain ⟨pid, hpid, h⟩ := Option.bind_eq_some_iff.mp h
    obtain ⟨k₁, hround, h⟩ := Option.bind_eq_some_iff.mp h
    cases h
    exact Or.inr ⟨causa, proximo, i, pid, k₁, hfase, hpid, hround, rfl⟩
  · cases h

/-- Everything the end of an IO request can do. -/
theorem ioFin_cases
    (h : ioFin k = some k') :
    ∃ request resto, k.ioRequestQueue = request :: resto ∧
      ((∃ l t m, k.listBlockedTcb = l ++ t :: m ∧ t.parentPid = request.pid ∧
        t.tid = request.tid ∧
        k' = { k with
          ioRequestQueue := resto
          listBlockedTcb := l ++ m
          listReadyTcb := k.listReadyTcb ++ [{ t with state := .ready }]
          semThreadCount := k.semThreadCount + 1 }) ∨
      ((∀ t ∈ k.listBlockedTcb, ¬ (t.parentPid = request.pid ∧ t.tid = request.tid)) ∧
        k' = { k with ioRequestQueue := resto })) := by
  unfold ioFin at h
  split at h
  · cases h
  · rename_i request resto hqueue
    refine ⟨request, resto, hqueue, ?_⟩
    dsimp only at h
    rcases removeTcbFromList_cases k.listBlockedTcb request.pid request.tid with
      ⟨l, t, m, hsplit, hpid, htid, _, hremove⟩ | ⟨hnone, hremove⟩
    · rw [hremove] at h
      cases h
      exact Or.inl ⟨l, t, m, hsplit, hpid, htid, rfl⟩
    · rw [hremove] at h
      cases h
      exact Or.inr ⟨hnone, rfl⟩

/-- Everything the answer to a dump can do. -/
theorem dumpRespuesta_cases
    {j : Nat} {r : RespuestaDump}
    (h : dumpRespuesta j r k = some k') :
    ∃ d, k.dumps[j]? = some d ∧ d.fase = .enVuelo ∧
      ((r = .ok ∧ k' = postThreadCount
        (desbloquear { k with dumps := k.dumps.eraseIdx j } d.tcb.parentPid d.tcb.tid)) ∨
      (r = .error ∧ d.tcb.parentPid ∈ k.listPcbActive ∧
        k' = { k with
          dumps := k.dumps.set j { d with fase := .finalizando d.tcb.parentPid 0 } }) ∨
      (r = .sinConexion ∧ k' = { k with dumps := k.dumps.eraseIdx j })) := by
  obtain ⟨d, hd, h⟩ := Option.bind_eq_some_iff.mp h
  refine ⟨d, hd, ?_⟩
  split at h
  · rename_i hfase _
    cases h
    exact ⟨hfase, Or.inl ⟨rfl, rfl⟩⟩
  · rename_i hfase _
    obtain ⟨pid, hpid, h⟩ := Option.bind_eq_some_iff.mp h
    obtain ⟨rfl, hactive⟩ := findPcbByPid_some hpid
    cases h
    exact ⟨hfase, Or.inr (Or.inl ⟨rfl, hactive, rfl⟩)⟩
  · rename_i hfase _
    cases h
    exact ⟨hfase, Or.inr (Or.inr ⟨rfl, rfl⟩)⟩
  · cases h

/-- Everything a step of a dump that ends its process can do. -/
theorem dumpSeguir_cases
    {j : Nat}
    (h : dumpSeguir cfg j k = some k') :
    ∃ d, k.dumps[j]? = some d ∧
      ((∃ pid i k₁ avance, d.fase = .finalizando pid i ∧
        finalizarHilo cfg pid i k = some (k₁, avance) ∧
        ((avance = .espera ∧
          k' = { k₁ with dumps := k₁.dumps.set j { d with fase := .esperando pid i } }) ∨
        (avance = .sigue ∧
          k' = { k₁ with dumps := k₁.dumps.set j { d with fase := .finalizando pid (i + 1) } }) ∨
        (avance = .termina ∧ k' = removePcbFromActive
          (deleteProcessMemory cfg { k₁ with dumps := k₁.dumps.eraseIdx j } pid) pid))) ∨
      (∃ pid i k₁, d.fase = .esperando pid i ∧ reanudarHilo pid i k = some k₁ ∧
        k' = { k₁ with dumps := k₁.dumps.set j { d with fase := .finalizando pid (i + 1) } })) := by
  obtain ⟨d, hd, h⟩ := Option.bind_eq_some_iff.mp h
  refine ⟨d, hd, ?_⟩
  split at h
  · rename_i pid i hfase
    obtain ⟨⟨k₁, avance⟩, hround, h⟩ := Option.bind_eq_some_iff.mp h
    refine Or.inl ⟨pid, i, k₁, avance, hfase, hround, ?_⟩
    cases avance with
    | espera =>
        cases h
        exact Or.inl ⟨rfl, rfl⟩
    | sigue =>
        cases h
        exact Or.inr (Or.inl ⟨rfl, rfl⟩)
    | termina =>
        cases h
        exact Or.inr (Or.inr ⟨rfl, rfl⟩)
  · rename_i pid i hfase
    obtain ⟨k₁, hround, h⟩ := Option.bind_eq_some_iff.mp h
    cases h
    exact Or.inr ⟨pid, i, k₁, hfase, hround, rfl⟩
  · cases h

theorem terminarProceso_dumps
    {causa : Causa} {pid : Nat} :
    (terminarProceso cfg causa pid k).dumps = k.dumps := by
  obtain ⟨pcbs, salida, k₁, hk₁, _, heq⟩ := terminarProceso_cases cfg causa pid k
  rw [heq]
  cases causa with
  | processExit =>
      simp only [tryCreateNewProcessLoop]
      rw [tryCreateRounds_admite, hk₁]
  | segmentationFault =>
      rw [hk₁]

end Scheduling

end Kernel
end SinIdeas
