import SinIdeas.Kernel.Mutexes

/-!
# Threads and processes

Joins, creation of threads and processes, the long-term scheduler and the pieces
of the loop that ends a process (`join_thread.c`, `process.c`, `long_term_list.c`,
`pcb_lists.c`, `thread_operations.c`).
-/

namespace SinIdeas
namespace Kernel

open Lib

variable {μ : Type}

/-- `add_tcb_join`. -/
def addTcbJoin (blocked blocking : Tcb) (k : Globals μ) : Globals μ :=
  { k with
    listTcbJoins := k.listTcbJoins ++ [{ blockedTcb := blocked, blockingTcb := blocking }]
    listBlockedTcb := addTcbToList k.listBlockedTcb blocked }

/-- The loop of `unlock_tcb_joins`: `visitados` are the joins before index `i`. -/
def unlockTcbJoinsFrom (pid tid : Nat) (visitados : List TcbJoin) :
    List TcbJoin → Globals μ → Globals μ
  | [], k => k
  | j :: js, k =>
      if j.blockingTcb.tid = tid ∧ j.blockingTcb.parentPid = pid then
        let k' := desbloquear k j.blockedTcb.parentPid j.blockedTcb.tid
        unlockTcbJoinsFrom pid tid visitados js
          { postThreadCount k' with listTcbJoins := visitados ++ js }
      else
        unlockTcbJoinsFrom pid tid (visitados ++ [j]) js k

/-- `unlock_tcb_joins` for the thread `(pid, tid)`. -/
def unlockTcbJoins (pid tid : Nat) (k : Globals μ) : Globals μ :=
  unlockTcbJoinsFrom pid tid [] k.listTcbJoins k

/-- `desbloquear_thread_por_join`, over the older list of joins. -/
def desbloquearThreadPorJoin (tidFinished : Nat) (k : Globals μ) : Globals μ :=
  match k.listaTcbsBlockeados.find? (fun nodo => nodo.2 == tidFinished) with
  | none => k
  | some nodo =>
      desbloquear
        { k with listaTcbsBlockeados :=
            k.listaTcbsBlockeados.eraseP (fun nodo => nodo.2 == tidFinished) }
        nodo.1.parentPid nodo.1.tid

/-- `find_pcb_by_pid`. -/
def findPcbByPid (k : Globals μ) (pid : Nat) : Option Nat :=
  k.listPcbActive.find? (fun p => p == pid)

/-- Change a PCB through its pointer. -/
def modificarPcb (k : Globals μ) (pid : Nat) (f : Pcb → Pcb) : Globals μ :=
  { k with pcbs := Function.update k.pcbs pid (f (k.pcbs pid)) }

/-- `add_tcb_to_pcb`. -/
def addTcbToPcb (tcb : Tcb) (pcb : Pcb) : Pcb :=
  { pcb with
    tids := pcb.tids.take pcb.tidCount ++ [tcb.tid]
    tidCount := pcb.tidCount + 1
    tcbs := pcb.tcbs ++ [tcb]
    numTcbs := pcb.numTcbs + 1 }

/-- The TCB that `create_thread` makes for the process `pid`. -/
def nuevoTcb (k : Globals μ) (pid : Nat) (path : List Char) (priority : Nat) : Tcb where
  dir := k.nextDir
  tid := (k.pcbs pid).tidCount
  parentPid := pid
  priority := priority
  state := .new
  filePath := path

/-- The first half of `create_thread`: the TCB in its PCB and in NEW. -/
def registrarTcb (k : Globals μ) (tcb : Tcb) : Globals μ :=
  let k := modificarPcb k tcb.parentPid (addTcbToPcb tcb)
  { k with
    listNewTcb := addTcbToList k.listNewTcb tcb
    nextDir := k.nextDir + 1 }

/-- `create_thread`, and the state in which it leaves the new TCB. -/
def createThread (cfg : Config μ) (k : Globals μ) (pid : Nat) (path : List Char)
    (priority : Nat) :
    Globals μ × State :=
  let tcb := nuevoTcb k pid path priority
  let k := registrarTcb k tcb
  let r := cfg.createThreadMemory k.memoria tcb
  let k := { k with memoria := r.1 }
  if r.2 then
    let movida := moveTcbBetweenLists k.listNewTcb k.listReadyTcb pid tcb.tid .ready
    (postThreadCount { k with listNewTcb := movida.1, listReadyTcb := movida.2 },
      if (k.listNewTcb.find? (Tcb.es pid tcb.tid)).map Tcb.dir = some tcb.dir then .ready
      else .new)
  else
    (k, .new)

/-- `create_process`: a new PCB at the end of `list_PCB_new`. -/
def createProcess (k : Globals μ) (size : Nat) : Globals μ :=
  { k with
    pcbs := Function.update k.pcbs k.globalPid
      { pid := k.globalPid, state := .new, tids := [], tidCount := 0, mutex := [],
        mutexCount := 0, tcbs := [], numTcbs := 0, size := size }
    listPcbNew := k.listPcbNew ++ [k.globalPid]
    globalPid := k.globalPid + 1 }

/-- `try_create_NEW_process`; the flag tells whether a process was created. -/
def tryCreateNewProcess (cfg : Config μ) (k : Globals μ) : Globals μ × Bool :=
  match k.listPcbNew with
  | [] => (k, false)
  | pid :: resto =>
      let r := cfg.createProcessMemory k.memoria pid (k.pcbs pid).size
      let k := { k with memoria := r.1 }
      match k.listFirstThreadParams with
      | [] => (k, false)
      | peticion :: peticiones =>
          if r.2 then
            let c := createThread cfg k pid peticion.nombreArchivo peticion.prioridad
            let k := { c.1 with listFirstThreadParams := peticiones, listPcbNew := resto }
            if c.2 = .ready then
              ({ k with listPcbActive := k.listPcbActive ++ [pid] }, true)
            else
              (k, true)
          else
            (k, false)

/-- `try_create_NEW_process_loop`, with a bound on its rounds. -/
def tryCreateRounds (cfg : Config μ) : Nat → Globals μ → Globals μ
  | 0, k => k
  | n + 1, k =>
      let r := tryCreateNewProcess cfg k
      if r.2 then tryCreateRounds cfg n r.1 else r.1

/-- `try_create_NEW_process_loop`: a round creates one of the waiting processes or
is the last one. -/
def tryCreateNewProcessLoop (cfg : Config μ) (k : Globals μ) : Globals μ :=
  tryCreateRounds cfg (k.listPcbNew.length + 1) k

/-- `move_pcb_to_exit`. -/
def movePcbToExit (k : Globals μ) (pid : Nat) : Globals μ :=
  if (findPcbByPid k pid).isSome then
    { modificarPcb k pid (fun pcb => { pcb with state := .exit }) with
      listPcbActive := k.listPcbActive.eraseP (fun p => p == pid)
      listPcbExit := k.listPcbExit ++ [pid] }
  else
    k

/-- `remove_pcb_from_active`. -/
def removePcbFromActive (k : Globals μ) (pid : Nat) : Globals μ :=
  { k with listPcbActive := k.listPcbActive.eraseP (fun p => p == pid) }

/-- `delete_process_memory`. -/
def deleteProcessMemory (cfg : Config μ) (k : Globals μ) (pid : Nat) : Globals μ :=
  { k with memoria := (cfg.deleteProcessMemory k.memoria pid (k.pcbs pid).size).1 }

/-- What a round of the loop that ends a process leads to: waiting for the
semaphore, the next thread, or the end of the loop. -/
inductive Avance where
  | espera
  | sigue
  | termina
  deriving DecidableEq

/-- The rest of a round, after the `sem_wait`. -/
def cerrarHilo (tcb : Tcb) (k : Globals μ) : Option (Globals μ) :=
  releaseAllMutexes tcb
    (desbloquearThreadPorJoin tcb.tid
      { k with listExitTcb := addTcbToList k.listExitTcb tcb })

/-- A round of the loop that ends the process `pid`, up to the `sem_wait` if its
`tid_count` asks for one. -/
def finalizarHilo (cfg : Config μ) (pid i : Nat) (k : Globals μ) :
    Option (Globals μ × Avance) :=
  if i < (k.pcbs pid).tidCount then do
    let tcb ← (k.pcbs pid).tcbs[i]?
    let k := (deleteThreadMemory cfg k tcb).1
    if 1 < (k.pcbs pid).tidCount then
      some (k, .espera)
    else do
      let k ← cerrarHilo tcb k
      some (k, .sigue)
  else
    some (k, .termina)

/-- `sem_wait(&sem_thread_count)`, when it does not block. -/
def waitThreadCount (k : Globals μ) : Option (Globals μ) :=
  match k.semThreadCount with
  | 0 => none
  | n + 1 => some { k with semThreadCount := n }

/-- The round goes on when its `sem_wait` returns. -/
def reanudarHilo (pid i : Nat) (k : Globals μ) : Option (Globals μ) := do
  let k ← waitThreadCount k
  let tcb ← (k.pcbs pid).tcbs[i]?
  cerrarHilo tcb k

theorem findPcbByPid_some
    {pid q : Nat} {k : Globals μ}
    (h : findPcbByPid k pid = some q) :
    q = pid ∧ pid ∈ k.listPcbActive := by
  unfold findPcbByPid at h
  have heq := List.find?_some h
  rw [beq_iff_eq] at heq
  subst heq
  exact ⟨rfl, List.mem_of_find?_eq_some h⟩

theorem findPcbByPid_of_mem
    {pid : Nat} {k : Globals μ}
    (h : pid ∈ k.listPcbActive) :
    findPcbByPid k pid = some pid := by
  cases hfind : findPcbByPid k pid with
  | none =>
      have hno := List.find?_eq_none.mp hfind pid h
      simp at hno
  | some q =>
      rw [(findPcbByPid_some hfind).1]

/-- `move_pcb_to_exit` takes the PID out of the active ones, if it is there. -/
theorem movePcbToExit_cases
    (k : Globals μ) (pid : Nat) :
    ∃ pcbs salida, (∀ q, q ≠ pid → pcbs q = k.pcbs q) ∧
      movePcbToExit k pid = { k with
        pcbs := pcbs
        listPcbActive := k.listPcbActive.eraseP (fun p => p == pid)
        listPcbExit := salida } := by
  unfold movePcbToExit
  split_ifs with hactive
  · refine ⟨Function.update k.pcbs pid { k.pcbs pid with state := .exit },
      k.listPcbExit ++ [pid], ?_, rfl⟩
    intro q hq
    rw [Function.update_of_ne hq]
  · refine ⟨k.pcbs, k.listPcbExit, fun q _ => rfl, ?_⟩
    have herase : k.listPcbActive.eraseP (fun p => p == pid) = k.listPcbActive := by
      refine List.eraseP_of_forall_not (fun q hq heq => hactive ?_)
      rw [beq_iff_eq] at heq
      rw [findPcbByPid_of_mem (heq ▸ hq)]
      rfl
    rw [herase]

section Endings

variable {cfg : Config μ} {k k' : Globals μ} {pid i : Nat}

theorem unlockTcbJoinsFrom_despierta
    {tid : Nat} {visitados js : List TcbJoin} :
    Despierta k (unlockTcbJoinsFrom pid tid visitados js k) := by
  induction js generalizing visitados k with
  | nil =>
      exact Despierta.refl k
  | cons j js ih =>
      unfold unlockTcbJoinsFrom
      split_ifs with hmatch
      · refine Despierta.trans ?_ ih
        rfl
      · exact ih

theorem unlockTcbJoins_despierta
    {tid : Nat} :
    Despierta k (unlockTcbJoins pid tid k) :=
  unlockTcbJoinsFrom_despierta

theorem unlockTcbJoinsFrom_mutexes
    {tid : Nat} {visitados js : List TcbJoin} :
    (unlockTcbJoinsFrom pid tid visitados js k).globalMutexes = k.globalMutexes := by
  induction js generalizing visitados k with
  | nil =>
      rfl
  | cons j js ih =>
      unfold unlockTcbJoinsFrom
      split_ifs
      · exact ih
      · exact ih

/-- The joins on the thread are removed and the others stay. -/
theorem unlockTcbJoinsFrom_joins
    {tid : Nat} {visitados js : List TcbJoin}
    (hk : k.listTcbJoins = visitados ++ js) :
    (unlockTcbJoinsFrom pid tid visitados js k).listTcbJoins = visitados ++
      js.filter (fun j => ¬ (j.blockingTcb.tid = tid ∧ j.blockingTcb.parentPid = pid)) := by
  induction js generalizing visitados k with
  | nil =>
      simpa [unlockTcbJoinsFrom] using hk
  | cons j js ih =>
      unfold unlockTcbJoinsFrom
      split_ifs with hmatch
      · rw [ih rfl, List.filter_cons_of_neg (by simpa only [decide_eq_true_eq, not_not] using hmatch)]
      · rw [ih (by rw [hk, List.append_assoc]; rfl),
          List.filter_cons_of_pos (by simpa only [decide_eq_true_eq] using hmatch),
          List.append_assoc]
        rfl

/-- With the older list of joins empty, closing a thread is `release_all_mutexes`. -/
theorem cerrarHilo_eq
    {tcb : Tcb}
    (hviejos : k.listaTcbsBlockeados = []) :
    cerrarHilo tcb k =
      releaseAllMutexes tcb { k with listExitTcb := addTcbToList k.listExitTcb tcb } := by
  simp [cerrarHilo, desbloquearThreadPorJoin, hviejos]

/-- Everything a round of the loop that ends a process can do. -/
theorem finalizarHilo_cases
    {avance : Avance}
    (hviejos : k.listaTcbsBlockeados = [])
    (h : finalizarHilo cfg pid i k = some (k', avance)) :
    (avance = .termina ∧ (k.pcbs pid).tidCount ≤ i ∧ k' = k) ∨
    (∃ tcb, i < (k.pcbs pid).tidCount ∧ (k.pcbs pid).tcbs[i]? = some tcb ∧
      ((avance = .espera ∧ 1 < (k.pcbs pid).tidCount ∧
        k' = { k with memoria := (cfg.deleteThreadMemory k.memoria tcb).1 }) ∨
      (avance = .sigue ∧ (k.pcbs pid).tidCount ≤ 1 ∧
        releaseAllMutexes tcb { k with
          memoria := (cfg.deleteThreadMemory k.memoria tcb).1
          listExitTcb := addTcbToList k.listExitTcb tcb } = some k'))) := by
  unfold finalizarHilo at h
  split_ifs at h with hi
  · cases htcb : (k.pcbs pid).tcbs[i]? with
    | none =>
        simp [htcb] at h
    | some tcb =>
        simp only [htcb, Option.bind_eq_bind, Option.bind_some] at h
        refine Or.inr ⟨tcb, hi, rfl, ?_⟩
        split_ifs at h with hcount
        · cases h
          exact Or.inl ⟨rfl, hcount, rfl⟩
        · have hclose := @cerrarHilo_eq μ (deleteThreadMemory cfg k tcb).1 tcb hviejos
          rw [hclose] at h
          cases hrelease : releaseAllMutexes tcb
              { (deleteThreadMemory cfg k tcb).1 with
                listExitTcb := addTcbToList (deleteThreadMemory cfg k tcb).1.listExitTcb tcb } with
          | none =>
              simp [hrelease] at h
          | some k₁ =>
              simp only [hrelease, Option.bind_some, Option.some.injEq, Prod.mk.injEq] at h
              obtain ⟨rfl, rfl⟩ := h
              exact Or.inr ⟨rfl, not_lt.mp hcount, hrelease⟩
  · cases h
    exact Or.inl ⟨rfl, not_lt.mp hi, rfl⟩

/-- Everything the rest of a round after its `sem_wait` can do. -/
theorem reanudarHilo_cases
    (hviejos : k.listaTcbsBlockeados = [])
    (h : reanudarHilo pid i k = some k') :
    ∃ n tcb, k.semThreadCount = n + 1 ∧ (k.pcbs pid).tcbs[i]? = some tcb ∧
      releaseAllMutexes tcb { k with
        semThreadCount := n
        listExitTcb := addTcbToList k.listExitTcb tcb } = some k' := by
  unfold reanudarHilo waitThreadCount at h
  cases hsem : k.semThreadCount with
  | zero =>
      simp [hsem] at h
  | succ n =>
      simp only [hsem, Option.bind_eq_bind, Option.bind_some] at h
      cases htcb : (k.pcbs pid).tcbs[i]? with
      | none =>
          simp [htcb] at h
      | some tcb =>
          simp only [htcb, Option.bind_some] at h
          have hclose := @cerrarHilo_eq μ { k with semThreadCount := n } tcb hviejos
          rw [hclose] at h
          exact ⟨n, tcb, rfl, rfl, h⟩

end Endings

/-- Everything `create_thread` can do: admit the first TCB in NEW with the
identifiers of the new one, or leave the new one there. -/
theorem createThread_cases
    (cfg : Config μ) (k : Globals μ) (pid : Nat) (path : List Char) (priority : Nat) :
    (∃ l t m, k.listNewTcb ++ [nuevoTcb k pid path priority] = l ++ t :: m ∧
      t.parentPid = pid ∧ t.tid = (k.pcbs pid).tidCount ∧
      (cfg.createThreadMemory k.memoria (nuevoTcb k pid path priority)).2 = true ∧
      createThread cfg k pid path priority =
        ({ registrarTcb k (nuevoTcb k pid path priority) with
            listNewTcb := l ++ m
            listReadyTcb := k.listReadyTcb ++ [{ t with state := .ready }]
            semThreadCount := k.semThreadCount + 1
            memoria := (cfg.createThreadMemory k.memoria (nuevoTcb k pid path priority)).1 },
          if t.dir = k.nextDir then .ready else .new)) ∨
    ((cfg.createThreadMemory k.memoria (nuevoTcb k pid path priority)).2 = false ∧
      createThread cfg k pid path priority =
        ({ registrarTcb k (nuevoTcb k pid path priority) with
            memoria := (cfg.createThreadMemory k.memoria (nuevoTcb k pid path priority)).1 },
          .new)) := by
  set tcb := nuevoTcb k pid path priority with htcb
  have hreg : (registrarTcb k tcb).memoria = k.memoria := rfl
  cases hmem : (cfg.createThreadMemory k.memoria tcb).2 with
  | false =>
      refine Or.inr ⟨rfl, ?_⟩
      have hno : ¬ (cfg.createThreadMemory k.memoria tcb).2 = true := by simp [hmem]
      unfold createThread
      dsimp only
      rw [← htcb, hreg, if_neg hno]
  | true =>
      rcases moveTcbBetweenLists_cases (k.listNewTcb ++ [tcb]) k.listReadyTcb pid tcb.tid .ready
        with ⟨l, t, m, hsplit, hpid, htid, _, hfind, hmove⟩ | ⟨hnone, _⟩
      · refine Or.inl ⟨l, t, m, hsplit, hpid, htid, rfl, ?_⟩
        unfold createThread
        dsimp only
        have hnew : (registrarTcb k tcb).listNewTcb = k.listNewTcb ++ [tcb] := rfl
        have hready : (registrarTcb k tcb).listReadyTcb = k.listReadyTcb := rfl
        rw [← htcb, hreg, if_pos hmem, hnew, hready, hmove, hfind]
        simp only [Option.map_some, Option.some.injEq]
        rfl
      · refine absurd ⟨rfl, rfl⟩ (hnone tcb ?_)
        exact List.mem_append_right _ (List.mem_singleton.mpr rfl)

/-- What `create_thread` leaves as it is. -/
theorem createThread_resto
    (cfg : Config μ) (k : Globals μ) (pid : Nat) (path : List Char) (priority : Nat) :
    (createThread cfg k pid path priority).1 = { k with
      listNewTcb := (createThread cfg k pid path priority).1.listNewTcb
      listReadyTcb := (createThread cfg k pid path priority).1.listReadyTcb
      semThreadCount := (createThread cfg k pid path priority).1.semThreadCount
      nextDir := k.nextDir + 1
      pcbs := Function.update k.pcbs pid
        (addTcbToPcb (nuevoTcb k pid path priority) (k.pcbs pid))
      memoria := (createThread cfg k pid path priority).1.memoria } := by
  rcases createThread_cases cfg k pid path priority with ⟨l, t, m, _, _, _, _, heq⟩ | ⟨_, heq⟩
  · rw [heq]
    rfl
  · rw [heq]
    rfl

/-- `k'` differs from `k` only in what creating processes and threads changes. -/
def Admite (k k' : Globals μ) : Prop :=
  k' = { k with
    listNewTcb := k'.listNewTcb
    listReadyTcb := k'.listReadyTcb
    semThreadCount := k'.semThreadCount
    pcbs := k'.pcbs
    listPcbNew := k'.listPcbNew
    listPcbActive := k'.listPcbActive
    globalPid := k'.globalPid
    listFirstThreadParams := k'.listFirstThreadParams
    nextDir := k'.nextDir
    memoria := k'.memoria }

theorem Admite.refl (k : Globals μ) : Admite k k := rfl

theorem Admite.trans
    {k k' k'' : Globals μ}
    (h₁ : Admite k k')
    (h₂ : Admite k' k'') :
    Admite k k'' := by
  unfold Admite at h₂
  rw [h₁] at h₂
  exact h₂

theorem createThread_admite
    (cfg : Config μ) (k : Globals μ) (pid : Nat) (path : List Char) (priority : Nat) :
    Admite k (createThread cfg k pid path priority).1 := by
  unfold Admite
  conv_lhs => rw [createThread_resto]
  conv_rhs => rw [createThread_resto]

section Rounds

/-- The kernel after a round that creates the first waiting process. -/
def procesoCreado (cfg : Config μ) (k : Globals μ) (pid : Nat) (resto : List Nat)
    (peticion : ProcessCreate) (peticiones : List ProcessCreate) : Globals μ :=
  let c := createThread cfg k pid peticion.nombreArchivo peticion.prioridad
  { c.1 with
    listFirstThreadParams := peticiones
    listPcbNew := resto
    listPcbActive := if c.2 = .ready then c.1.listPcbActive ++ [pid] else c.1.listPcbActive }

/-- Everything a round of the long-term scheduler can do, up to memoria. -/
theorem tryCreateNewProcess_cases
    (cfg : Config μ) (k : Globals μ) :
    (∃ m, tryCreateNewProcess cfg k = ({ k with memoria := m }, false)) ∨
    (∃ pid resto peticion peticiones m, k.listPcbNew = pid :: resto ∧
      k.listFirstThreadParams = peticion :: peticiones ∧
      tryCreateNewProcess cfg k =
        (procesoCreado cfg { k with memoria := m } pid resto peticion peticiones, true)) := by
  have hcases : k.listPcbNew = [] ∨ ∃ pid resto, k.listPcbNew = pid :: resto := by
    cases k.listPcbNew with
    | nil =>
        exact Or.inl rfl
    | cons pid resto =>
        exact Or.inr ⟨pid, resto, rfl⟩
  rcases hcases with hnew | ⟨pid, resto, hnew⟩
  · have heq : tryCreateNewProcess cfg k = (k, false) := by simp [tryCreateNewProcess, hnew]
    exact Or.inl ⟨k.memoria, heq⟩
  · unfold tryCreateNewProcess
    simp only [hnew]
    cases hparams : k.listFirstThreadParams with
    | nil =>
        exact Or.inl ⟨_, rfl⟩
    | cons peticion peticiones =>
        cases hmem : (cfg.createProcessMemory k.memoria pid (k.pcbs pid).size).2 with
        | false =>
            refine Or.inl ⟨(cfg.createProcessMemory k.memoria pid (k.pcbs pid).size).1, ?_⟩
            simp
        | true =>
            refine Or.inr ⟨pid, resto, peticion, peticiones,
              (cfg.createProcessMemory k.memoria pid (k.pcbs pid).size).1, rfl, rfl, ?_⟩
            simp only [procesoCreado, if_true]
            split_ifs with hready
            · rfl
            · rfl

/-- What every round keeps, the rounds keep. -/
theorem tryCreateRounds_invariant
    (cfg : Config μ) {k : Globals μ} {I : Globals μ → Prop}
    (n : Nat)
    (hstart : I k)
    (hmem : ∀ {a : Globals μ} {m : μ}, I a → I { a with memoria := m })
    (hcreate : ∀ {a : Globals μ} {pid : Nat} {resto : List Nat} {peticion : ProcessCreate}
      {peticiones : List ProcessCreate}, I a → a.listPcbNew = pid :: resto →
      a.listFirstThreadParams = peticion :: peticiones →
      I (procesoCreado cfg a pid resto peticion peticiones)) :
    I (tryCreateRounds cfg n k) := by
  induction n generalizing k with
  | zero =>
      exact hstart
  | succ n ih =>
      unfold tryCreateRounds
      dsimp only
      rcases tryCreateNewProcess_cases cfg k with ⟨m, heq⟩ |
        ⟨pid, resto, peticion, peticiones, m, hnew, hparams, heq⟩
      · rw [heq]
        exact hmem hstart
      · rw [heq]
        exact ih (hcreate (hmem hstart) hnew hparams)

/-- A round that creates a process takes it from the waiting list. -/
theorem tryCreateNewProcess_length
    {cfg : Config μ} {k : Globals μ}
    (h : (tryCreateNewProcess cfg k).2 = true) :
    (tryCreateNewProcess cfg k).1.listPcbNew.length + 1 = k.listPcbNew.length := by
  rcases tryCreateNewProcess_cases cfg k with ⟨m, heq⟩ | ⟨pid, resto, _, _, m, hnew, _, heq⟩
  · rw [heq] at h
    cases h
  · rw [heq, hnew]
    rfl

theorem tryCreateRounds_admite
    (cfg : Config μ) (k : Globals μ) (n : Nat) :
    Admite k (tryCreateRounds cfg n k) := by
  refine tryCreateRounds_invariant cfg (I := Admite k) n (Admite.refl k) ?_ ?_
  · intro a m ha
    exact ha.trans rfl
  · intro a pid resto peticion peticiones ha _ _
    refine (ha.trans (createThread_admite cfg a pid peticion.nombreArchivo
      peticion.prioridad)).trans ?_
    rfl

end Rounds

end Kernel
end SinIdeas
