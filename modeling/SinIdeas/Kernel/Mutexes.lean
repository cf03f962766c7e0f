import SinIdeas.Lib.FirstMatch
import SinIdeas.Kernel.TcbLists

/-!
# Mutexes

The operations of `mutex_thread.c` on `global_mutexes`. They return `none` where
the source follows a null or a freed pointer.
-/

namespace SinIdeas
namespace Kernel

open Lib

variable {μ : Type}

/-- `delete_thread_memory`: the kernel after the request and whether it went well. -/
def deleteThreadMemory (cfg : Config μ) (k : Globals μ) (tcb : Tcb) : Globals μ × Bool :=
  let r := cfg.deleteThreadMemory k.memoria tcb
  ({ k with memoria := r.1 }, r.2)

/-- The scan of `get_mutex`; a freed mutex on the way is read all the same. -/
def buscarMutex (name : List Char) : List Mutex → Option (Option Mutex)
  | [] => some none
  | m :: ms =>
      if m.liberado then none
      else if m.name = name then some (some m)
      else buscarMutex name ms

/-- `get_mutex`. -/
def getMutex (k : Globals μ) (name : List Char) : Option (Option Mutex) :=
  buscarMutex name k.globalMutexes

/-- Change the mutex with the given name through its pointer. -/
def modificarMutex (k : Globals μ) (name : List Char) (f : Mutex → Mutex) : Globals μ :=
  { k with globalMutexes := modifyFirst (fun m => m.name == name) f k.globalMutexes }

/-- `add_mutex_to_pcb`. -/
def addMutexToPcb (pcb : Pcb) (name : List Char) : Pcb :=
  { pcb with mutex := pcb.mutex ++ [name], mutexCount := pcb.mutexCount + 1 }

/-- The new entry of `mutex_create`. -/
def nuevoMutex (name : List Char) (pid : Nat) : Mutex where
  name := name
  assignedPid := pid
  assignedTid := tidLibre
  assigned := false
  blockedTcbs := []
  blockedCount := 0
  liberado := false

/-- `mutex_create`. -/
def mutexCreate (name : List Char) (pid : Nat) (k : Globals μ) : Option (Globals μ) := do
  match ← getMutex k name with
  | some _ => some k
  | none =>
      some { k with
        pcbs := Function.update k.pcbs pid (addMutexToPcb (k.pcbs pid) name)
        globalMutexes := k.globalMutexes ++ [nuevoMutex name pid] }

/-- Take the mutex. -/
def Mutex.asignar (tid : Nat) (m : Mutex) : Mutex :=
  { m with assigned := true, assignedTid := tid }

/-- Leave the mutex without owner. -/
def Mutex.desasignar (m : Mutex) : Mutex :=
  { m with assigned := false, assignedTid := tidLibre }

/-- Put a TCB at the end of the wait queue. -/
def Mutex.encolar (tcb : Tcb) (m : Mutex) : Mutex :=
  { m with blockedTcbs := m.blockedTcbs ++ [tcb], blockedCount := m.blockedCount + 1 }

/-- Hand the mutex to the head of the wait queue. -/
def Mutex.ceder (tid : Nat) (m : Mutex) : Mutex :=
  { m with assignedTid := tid, blockedTcbs := m.blockedTcbs.tail,
           blockedCount := m.blockedCount - 1 }

/-- `block_tcb_in_mutex_list`. -/
def blockTcbInMutexList (tcb : Tcb) (name : List Char) (k : Globals μ) : Globals μ :=
  let tcb := { tcb with state := .blocked }
  modificarMutex { k with listBlockedTcb := addTcbToList k.listBlockedTcb tcb } name
    (Mutex.encolar tcb)

/-- `mutex_lock`; the flag tells whether the thread keeps running. -/
def mutexLock (cfg : Config μ) (name : List Char) (tcb : Tcb) (k : Globals μ) :
    Option (Globals μ × Bool) := do
  match ← getMutex k name with
  | none =>
      let r := deleteThreadMemory cfg k tcb
      if r.2 then
        some ({ r.1 with listExitTcb := addTcbToList r.1.listExitTcb tcb }, false)
      else
        some (r.1, false)
  | some m =>
      if m.assignedPid ≠ tcb.parentPid then
        some (modificarMutex k name (fun m => { m with liberado := true }), false)
      else if m.assigned = false ∨ m.assignedTid = tcb.tid then
        some (modificarMutex k name (Mutex.asignar tcb.tid), true)
      else
        some (blockTcbInMutexList tcb name k, false)

/-- `mutex_unlock`: only the TID of the caller is compared. -/
def mutexUnlock (name : List Char) (tcb : Tcb) (k : Globals μ) : Option (Globals μ) := do
  let m ← (← getMutex k name)
  if m.assigned = false ∨ m.assignedTid ≠ tcb.tid then
    some k
  else
    match m.blockedTcbs with
    | proximo :: _ =>
        some (postThreadCount
          (modificarMutex (desbloquear k proximo.parentPid proximo.tid) name
            (Mutex.ceder proximo.tid)))
    | [] => some (modificarMutex k name Mutex.desasignar)

/-- The loop of `release_all_mutexes` from index `i`, `n` mutexes to go. -/
def releaseMutexesFrom (tcb : Tcb) : Nat → Nat → Globals μ → Option (Globals μ)
  | 0, _, k => some k
  | n + 1, i, k => do
      let m ← k.globalMutexes[i]?
      if m.liberado then
        none
      else if m.assigned = true ∧ m.assignedTid = tcb.tid then
        let k' ← mutexUnlock m.name tcb k
        releaseMutexesFrom tcb n (i + 1) k'
      else
        releaseMutexesFrom tcb n (i + 1) k

/-- `release_all_mutexes`. -/
def releaseAllMutexes (tcb : Tcb) (k : Globals μ) : Option (Globals μ) :=
  releaseMutexesFrom tcb k.globalMutexes.length 0 k

section Inversion

variable {cfg : Config μ} {k k' : Globals μ} {name : List Char} {tcb : Tcb}

/-- `get_mutex` returns the first mutex with the name, and it was not freed. -/
theorem getMutex_some
    {m : Mutex}
    (h : getMutex k name = some (some m)) :
    k.globalMutexes.find? (fun m => m.name == name) = some m ∧ m.name = name ∧
      m.liberado = false := by
  unfold getMutex at h
  generalize k.globalMutexes = l at h ⊢
  induction l with
  | nil =>
      simp [buscarMutex] at h
  | cons x l ih =>
      unfold buscarMutex at h
      split_ifs at h with hfreed hname
      · cases h
        exact ⟨by simp [hname], hname, by simpa using hfreed⟩
      · obtain ⟨hfind, hm⟩ := ih h
        exact ⟨by rw [List.find?_cons_of_neg (by simpa using hname)]; exact hfind, hm⟩

/-- `get_mutex` finds no mutex. -/
theorem getMutex_none
    (h : getMutex k name = some none) :
    ∀ m ∈ k.globalMutexes, m.name ≠ name := by
  unfold getMutex at h
  generalize k.globalMutexes = l at h ⊢
  induction l with
  | nil =>
      simp
  | cons x l ih =>
      unfold buscarMutex at h
      split_ifs at h with hfreed hname
      · cases h
      · intro m hm
        rcases List.mem_cons.mp hm with rfl | hm
        · exact hname
        · exact ih h m hm

/-- Everything `mutex_create` can do. -/
theorem mutexCreate_cases
    {pid : Nat}
    (h : mutexCreate name pid k = some k') :
    k' = k ∨
    ((∀ m ∈ k.globalMutexes, m.name ≠ name) ∧
      k' = { k with
        pcbs := Function.update k.pcbs pid (addMutexToPcb (k.pcbs pid) name)
        globalMutexes := k.globalMutexes ++ [nuevoMutex name pid] }) := by
  unfold mutexCreate at h
  cases hget : getMutex k name with
  | none =>
      simp [hget] at h
  | some o =>
      cases o with
      | none =>
          simp only [hget, Option.bind_eq_bind, Option.bind_some, Option.some.injEq] at h
          exact Or.inr ⟨getMutex_none hget, h.symm⟩
      | some m =>
          simp only [hget, Option.bind_eq_bind, Option.bind_some, Option.some.injEq] at h
          exact Or.inl h.symm

/-- Everything `mutex_lock` can do. -/
theorem mutexLock_cases
    {reservado : Bool}
    (h : mutexLock cfg name tcb k = some (k', reservado)) :
    (getMutex k name = some none ∧ reservado = false ∧
      ∃ salida, k' = { k with
        memoria := (cfg.deleteThreadMemory k.memoria tcb).1
        listExitTcb := salida }) ∨
    (∃ m, getMutex k name = some (some m) ∧
      ((m.assignedPid ≠ tcb.parentPid ∧ reservado = false ∧
        k' = modificarMutex k name (fun m => { m with liberado := true })) ∨
      (m.assignedPid = tcb.parentPid ∧ (m.assigned = false ∨ m.assignedTid = tcb.tid) ∧
        reservado = true ∧ k' = modificarMutex k name (Mutex.asignar tcb.tid)) ∨
      (m.assignedPid = tcb.parentPid ∧ m.assigned = true ∧ m.assignedTid ≠ tcb.tid ∧
        reservado = false ∧ k' = blockTcbInMutexList tcb name k))) := by
  unfold mutexLock at h
  cases hget : getMutex k name with
  | none =>
      simp [hget] at h
  | some o =>
      cases o with
      | none =>
          simp only [hget, Option.bind_eq_bind, Option.bind_some] at h
          refine Or.inl ⟨rfl, ?_⟩
          split_ifs at h
          · cases h
            exact ⟨rfl, _, rfl⟩
          · cases h
            exact ⟨rfl, _, rfl⟩
      | some m =>
          simp only [hget, Option.bind_eq_bind, Option.bind_some] at h
          refine Or.inr ⟨m, rfl, ?_⟩
          split_ifs at h with hpid hfree
          · simp only [Option.some.injEq, Prod.mk.injEq] at h
            exact Or.inl ⟨hpid, h.2.symm, h.1.symm⟩
          · simp only [Option.some.injEq, Prod.mk.injEq] at h
            exact Or.inr (Or.inl ⟨not_not.mp hpid, hfree, h.2.symm, h.1.symm⟩)
          · simp only [Option.some.injEq, Prod.mk.injEq] at h
            rw [not_or] at hfree
            exact Or.inr (Or.inr ⟨not_not.mp hpid, by simpa using hfree.1, hfree.2, h.2.symm,
              h.1.symm⟩)

/-- Everything `mutex_unlock` can do. -/
theorem mutexUnlock_cases
    (h : mutexUnlock name tcb k = some k') :
    ∃ m, getMutex k name = some (some m) ∧
      ((¬ (m.assigned = true ∧ m.assignedTid = tcb.tid) ∧ k' = k) ∨
      (m.assigned = true ∧ m.assignedTid = tcb.tid ∧
        ((∃ proximo resto, m.blockedTcbs = proximo :: resto ∧
          k' = postThreadCount (modificarMutex (desbloquear k proximo.parentPid proximo.tid)
            name (Mutex.ceder proximo.tid))) ∨
        (m.blockedTcbs = [] ∧ k' = modificarMutex k name Mutex.desasignar)))) := by
  unfold mutexUnlock at h
  cases hget : getMutex k name with
  | none =>
      simp [hget] at h
  | some o =>
      cases o with
      | none =>
          simp [hget] at h
      | some m =>
          simp only [hget, Option.bind_eq_bind, Option.bind_some] at h
          refine ⟨m, rfl, ?_⟩
          split_ifs at h with hno
          · refine Or.inl ⟨?_, (Option.some.inj h).symm⟩
            rintro ⟨hassigned, htid⟩
            rcases hno with hno | hno
            · rw [hassigned] at hno
              cases hno
            · exact hno htid
          · rw [not_or] at hno
            refine Or.inr ⟨by simpa using hno.1, not_not.mp hno.2, ?_⟩
            cases hqueue : m.blockedTcbs with
            | nil =>
                simp only [hqueue, Option.some.injEq] at h
                exact Or.inr ⟨rfl, h.symm⟩
            | cons proximo resto =>
                simp only [hqueue, Option.some.injEq] at h
                exact Or.inl ⟨proximo, resto, rfl, h.symm⟩

/-- What every `mutex_unlock` of a mutex owned by the TID keeps, `release_all_mutexes`
keeps. -/
theorem releaseAllMutexes_invariant
    {I : Globals μ → Prop}
    (h : releaseAllMutexes tcb k = some k')
    (hstart : I k)
    (hstep : ∀ {a b : Globals μ} {m : Mutex}, I a → m ∈ a.globalMutexes → m.liberado = false →
      m.assigned = true → m.assignedTid = tcb.tid → mutexUnlock m.name tcb a = some b → I b) :
    I k' := by
  have hloop : ∀ n i a, I a → releaseMutexesFrom tcb n i a = some k' → I k' := by
    intro n
    induction n with
    | zero =>
        intro i a ha hend
        cases hend
        exact ha
    | succ n ih =>
        intro i a ha hround
        unfold releaseMutexesFrom at hround
        cases hm : a.globalMutexes[i]? with
        | none =>
            simp [hm] at hround
        | some m =>
            simp only [hm, Option.bind_eq_bind, Option.bind_some] at hround
            split_ifs at hround with hfreed howned
            · cases hunlock : mutexUnlock m.name tcb a with
              | none =>
                  simp [hunlock] at hround
              | some b =>
                  simp only [hunlock, Option.bind_some] at hround
                  have hb := hstep ha (List.mem_of_getElem? hm) (by simpa using hfreed)
                    howned.1 howned.2 hunlock
                  exact ih (i + 1) b hb hround
            · exact ih (i + 1) a ha hround
  exact hloop _ 0 k hstart h

/-- `mutex_unlock` only wakes threads. -/
theorem mutexUnlock_despierta
    (h : mutexUnlock name tcb k = some k') :
    Despierta k k' := by
  obtain ⟨m, _, hcases⟩ := mutexUnlock_cases h
  rcases hcases with ⟨_, rfl⟩ | ⟨_, _, ⟨proximo, resto, _, rfl⟩ | ⟨_, rfl⟩⟩
  · rfl
  · rfl
  · rfl

theorem releaseAllMutexes_despierta
    (h : releaseAllMutexes tcb k = some k') :
    Despierta k k' := by
  refine releaseAllMutexes_invariant (I := Despierta k) h (Despierta.refl k) ?_
  intro a b m ha _ _ _ _ hunlock
  exact ha.trans (mutexUnlock_despierta hunlock)

end Inversion

end Kernel
end SinIdeas
