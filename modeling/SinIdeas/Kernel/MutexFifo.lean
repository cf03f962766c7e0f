import SinIdeas.Lib.FifoLock
import SinIdeas.Lib.Runs
import SinIdeas.Kernel.Dispatch
import SinIdeas.Kernel.Vista

/-!
# Mutexes as FIFO locks

The threads of one process call `mutex_lock` and `mutex_unlock` on its mutexes. Each
mutex stands for a FIFO lock with hand-off: the owner is known by its TID, and a thread
that has to wait is in the queue of the mutex and in BLOCKED, where an unlock looks it up
by PID and TID. Between two calls the rest of the kernel runs.
-/

namespace SinIdeas
namespace Kernel

open Lib

variable {μ : Type}

/-- A call on a mutex, or what happens between two calls. -/
inductive EventoMutex (μ : Type) where
  | lock (name : List Char) (tcb : Tcb)
  | unlock (name : List Char) (tcb : Tcb)
  | otro (k' : Globals μ)

/-- The kernel after the event; `none` where the source follows a null or freed pointer. -/
def pasoMutex (cfg : Config μ) (k : Globals μ) : EventoMutex μ → Option (Globals μ)
  | .lock name tcb => (mutexLock cfg name tcb k).map Prod.fst
  | .unlock name tcb => mutexUnlock name tcb k
  | .otro k' => some k'

/-- The call that the event is. -/
def EventoMutex.llamada : EventoMutex μ → Option (LockCall (List Char) Hilo)
  | .lock name tcb => some (.lock name tcb.hilo)
  | .unlock name tcb => some (.unlock name tcb.hilo)
  | .otro _ => none

/-- The FIFO locks after the calls of a run. -/
def cerraduras (es : List (EventoMutex μ)) : List Char → FifoLock Hilo :=
  runLocks (fun _ => FifoLock.free) (es.filterMap EventoMutex.llamada)

/-- The TCB has the PID and the TID of one of the threads. -/
def esDe (hilos : List Hilo) (t : Tcb) : Bool := hilos.any (fun h => t.es h.pid h.tid)

/-- The TCBs in BLOCKED with the PID and the TID of one of the threads. -/
def bloqueadosDe (hilos : List Hilo) (k : Globals μ) : List Hilo :=
  (k.listBlockedTcb.filter (esDe hilos)).map Tcb.hilo

/-- The thread calls on one of the mutexes, and it is not blocked. -/
def Llama (hilos : List Hilo) (names : List (List Char)) (k : Globals μ) (name : List Char)
    (tcb : Tcb) : Prop :=
  name ∈ names ∧ tcb.hilo ∈ hilos ∧ tcb.hilo ∉ bloqueadosDe hilos k

/-- Every call is by a thread that is not blocked. Between two calls the mutexes stay, and
so do the threads in BLOCKED. -/
def SinBloqueados (hilos : List Hilo) (names : List (List Char)) (k : Globals μ) :
    EventoMutex μ → Prop
  | .lock name tcb => Llama hilos names k name tcb
  | .unlock name tcb => Llama hilos names k name tcb
  | .otro k' => (∀ name ∈ names, getMutex k' name = getMutex k name) ∧
      bloqueadosDe hilos k' = bloqueadosDe hilos k

instance (hilos : List Hilo) (names : List (List Char)) (k : Globals μ) (name : List Char)
    (tcb : Tcb) :
    Decidable (Llama hilos names k name tcb) :=
  inferInstanceAs (Decidable (name ∈ names ∧ tcb.hilo ∈ hilos ∧
    tcb.hilo ∉ bloqueadosDe hilos k))

instance (hilos : List Hilo) (names : List (List Char)) (k : Globals μ) :
    ∀ e, Decidable (SinBloqueados hilos names k e)
  | .lock name tcb => inferInstanceAs (Decidable (Llama hilos names k name tcb))
  | .unlock name tcb => inferInstanceAs (Decidable (Llama hilos names k name tcb))
  | .otro k' => inferInstanceAs (Decidable (
      (∀ name ∈ names, getMutex k' name = getMutex k name) ∧
        bloqueadosDe hilos k' = bloqueadosDe hilos k))

/-- One MUTEX_CREATE for each name. -/
def crearMutexes (pid : Nat) : List (List Char) → Globals μ → Option (Globals μ)
  | [], k => some k
  | name :: names, k => (mutexCreate name pid k).bind (crearMutexes pid names)

/-- Before the mutexes are created: nothing has their names, and the threads, of one process
and with distinct TIDs, are not blocked. -/
structure SinMutexes (hilos : List Hilo) (names : List (List Char)) (pid : Nat)
    (k : Globals μ) : Prop where
  enUso : ∀ m ∈ k.globalMutexes, m.liberado = false
  nuevos : ∀ m ∈ k.globalMutexes, m.name ∉ names
  proceso : ∀ h ∈ hilos, h.pid = pid
  distintos : (hilos.map Hilo.tid).Nodup
  despiertos : bloqueadosDe hilos k = []

/-- The mutex stands for the lock. -/
structure Representa (m : Mutex) (l : FifoLock Hilo) : Prop where
  libre : l.owner = none → m.assigned = false
  dueno : ∀ h, l.owner = some h → m.assigned = true ∧ m.assignedTid = h.tid
  cola : m.blockedTcbs.map Tcb.hilo = l.waiters
  cuenta : m.blockedCount = l.waiters.length

/-- What the argument needs of the mutexes and of BLOCKED. -/
structure EnColas (hilos : List Hilo) (names : List (List Char)) (pid : Nat)
    (locks : List Char → FifoLock Hilo) (k : Globals μ) : Prop where
  valida : ValidLocks locks
  dentro : Within (fun h => h ∈ hilos) locks
  mutexes : ∀ name ∈ names, ∃ m, getMutex k name = some (some m) ∧ m.assignedPid = pid ∧
    Representa m (locks name)
  unaVez : (bloqueadosDe hilos k).Nodup
  bloqueados : ∀ h, h ∈ bloqueadosDe hilos k ↔ ∃ name, h ∈ (locks name).waiters

section Search

variable {name other : List Char} {k : Globals μ} {m : Mutex} {f : Mutex → Mutex}

/-- The mutex that was changed is found again. -/
theorem getMutex_modificarMutex
    (hname : ∀ m : Mutex, (f m).name = m.name)
    (hfreed : ∀ m : Mutex, (f m).liberado = m.liberado)
    (h : getMutex k name = some (some m)) :
    getMutex (modificarMutex k name f) name = some (some (f m)) := by
  unfold getMutex modificarMutex at *
  dsimp only at *
  generalize k.globalMutexes = l at h ⊢
  induction l with
  | nil =>
      cases h
  | cons x l ih =>
      unfold buscarMutex at h
      split_ifs at h with hfree hx
      · cases h
        simp [modifyFirst, buscarMutex, hname, hfreed, hfree, hx]
      · simp [modifyFirst, buscarMutex, hfree, hx, ih h]

/-- The others are found as before. -/
theorem getMutex_modificarMutex_of_ne
    (hname : ∀ m : Mutex, (f m).name = m.name)
    (hfreed : ∀ m : Mutex, (f m).liberado = m.liberado)
    (hne : other ≠ name) :
    getMutex (modificarMutex k name f) other = getMutex k other := by
  unfold getMutex modificarMutex
  dsimp only
  generalize k.globalMutexes = l
  induction l with
  | nil =>
      rfl
  | cons x l ih =>
      by_cases hx : x.name = name
      · simp [modifyFirst, buscarMutex, hname, hfreed, hx, Ne.symm hne]
      · simp [modifyFirst, buscarMutex, hx, ih]

end Search

section Steps

variable {m : Mutex} {l : FifoLock Hilo} {h : Hilo} {t : Tcb}

/-- The owner is the thread with its TID, if no other thread in the lock has it. -/
theorem Representa.owner
    (hrep : Representa m l)
    (hunico : ∀ b, l.owner = some b → b.tid = h.tid → b = h)
    (hassigned : m.assigned = true)
    (htid : m.assignedTid = h.tid) :
    l.owner = some h := by
  cases howner : l.owner with
  | none =>
      have hfree := hrep.libre howner
      rw [hassigned] at hfree
      cases hfree
  | some b =>
      have hb := (hrep.dueno b howner).2
      rw [hunico b howner (hb.symm.trans htid)]

theorem Representa.not_owner
    (hrep : Representa m l)
    (hno : ¬ (m.assigned = true ∧ m.assignedTid = h.tid)) :
    l.owner ≠ some h := by
  intro howner
  exact hno (hrep.dueno h howner)

/-- A mutex that is free or held by the caller goes to the caller. -/
theorem Representa.asignar
    (hrep : Representa m l)
    (hunico : ∀ b, l.owner = some b → b.tid = h.tid → b = h)
    (hfree : m.assigned = false ∨ m.assignedTid = h.tid) :
    (l.lock h).2 = true ∧ Representa (m.asignar h.tid) (l.lock h).1 := by
  cases howner : l.owner with
  | none =>
      rw [FifoLock.lock_of_free howner]
      refine ⟨rfl, ?_, ?_, hrep.cola, hrep.cuenta⟩
      · intro hno
        cases hno
      · intro b hb
        cases hb
        exact ⟨rfl, rfl⟩
  | some b =>
      obtain ⟨hassigned, htid⟩ := hrep.dueno b howner
      have hown : m.assignedTid = h.tid := by
        rcases hfree with hfree | hfree
        · rw [hassigned] at hfree
          cases hfree
        · exact hfree
      rw [FifoLock.lock_of_owner (hrep.owner hunico hassigned hown)]
      refine ⟨rfl, ?_, ?_, hrep.cola, hrep.cuenta⟩
      · intro hno
        rw [howner] at hno
        cases hno
      · intro x hx
        exact ⟨rfl, hown.symm.trans (hrep.dueno x hx).2⟩

/-- A mutex that another thread holds gets the caller at the end of its queue. -/
theorem Representa.encolar
    (hrep : Representa m l)
    (hheld : m.assigned = true)
    (htid : m.assignedTid ≠ t.tid) :
    (l.lock t.hilo).2 = false ∧
      Representa (m.encolar { t with state := .blocked }) (l.lock t.hilo).1 := by
  cases howner : l.owner with
  | none =>
      have hfree := hrep.libre howner
      rw [hheld] at hfree
      cases hfree
  | some b =>
      have hne : b ≠ t.hilo := by
        rintro rfl
        exact htid (hrep.dueno _ howner).2
      rw [FifoLock.lock_of_other howner hne]
      refine ⟨rfl, ?_, hrep.dueno, ?_, ?_⟩
      · intro hno
        rw [howner] at hno
        cases hno
      · simp [Mutex.encolar, hrep.cola]
      · simp [Mutex.encolar, hrep.cuenta]

/-- A mutex that its owner unlocks goes to the head of its queue. -/
theorem Representa.ceder
    {resto : List Tcb}
    (hrep : Representa m l)
    (howner : l.owner = some h)
    (hcola : m.blockedTcbs = t :: resto) :
    (l.unlock h).2 = some t.hilo ∧ Representa (m.ceder t.tid) (l.unlock h).1 := by
  have hwaiters : l.waiters = t.hilo :: resto.map Tcb.hilo := by
    rw [← hrep.cola, hcola]
    rfl
  rw [FifoLock.unlock_of_cons howner hwaiters]
  refine ⟨rfl, ?_, ?_, ?_, ?_⟩
  · intro hno
    cases hno
  · intro b hb
    cases hb
    exact ⟨(hrep.dueno h howner).1, rfl⟩
  · simp [Mutex.ceder, hcola]
  · simp [Mutex.ceder, hrep.cuenta, hwaiters]

/-- A mutex that its owner unlocks is free if nobody waits. -/
theorem Representa.desasignar
    (hrep : Representa m l)
    (howner : l.owner = some h)
    (hcola : m.blockedTcbs = []) :
    (l.unlock h).2 = none ∧ Representa m.desasignar (l.unlock h).1 := by
  have hwaiters : l.waiters = [] := by
    rw [← hrep.cola, hcola]
    rfl
  rw [FifoLock.unlock_of_nil howner hwaiters]
  refine ⟨rfl, fun _ => rfl, ?_, ?_, ?_⟩
  · intro b hb
    cases hb
  · simp [Mutex.desasignar, hcola, FifoLock.free]
  · simp [Mutex.desasignar, hrep.cuenta, hwaiters, FifoLock.free]

end Steps

section Threads

variable {hilos : List Hilo} {names : List (List Char)} {pid : Nat} {k k' : Globals μ}

theorem esDe_of_mem
    {t : Tcb}
    (h : t.hilo ∈ hilos) :
    esDe hilos t = true :=
  List.any_eq_true.mpr ⟨t.hilo, h, Tcb.es_iff.mpr ⟨rfl, rfl⟩⟩

/-- Two of the threads with one TID are the same. -/
theorem eq_of_tid
    {h h' : Hilo}
    (hdistintos : (hilos.map Hilo.tid).Nodup)
    (hh : h ∈ hilos)
    (hh' : h' ∈ hilos)
    (htid : h.tid = h'.tid) :
    h = h' :=
  List.inj_on_of_nodup_map hdistintos hh hh' htid

/-- A blocked caller is added at the end. -/
theorem bloqueadosDe_block
    {tcb : Tcb} {name : List Char}
    (h : tcb.hilo ∈ hilos) :
    bloqueadosDe hilos (blockTcbInMutexList tcb name k) =
      bloqueadosDe hilos k ++ [tcb.hilo] := by
  have hes : esDe hilos { tcb with state := .blocked } = true := esDe_of_mem h
  simp [bloqueadosDe, blockTcbInMutexList, modificarMutex, addTcbToList, hes]

/-- A thread in BLOCKED that is looked up by its PID and TID is the one that is found. -/
theorem desbloquear_eq
    {h : Hilo}
    (hdistintos : (hilos.map Hilo.tid).Nodup)
    (hdentro : ∀ x ∈ bloqueadosDe hilos k, x ∈ hilos)
    (hh : h ∈ bloqueadosDe hilos k) :
    ∃ l t m, k.listBlockedTcb = l ++ t :: m ∧ t.hilo = h ∧
      desbloquear k h.pid h.tid = { k with
        listBlockedTcb := l ++ m
        listReadyTcb := k.listReadyTcb ++ [{ t with state := .ready }] } := by
  obtain ⟨u, hu, rfl⟩ := List.mem_map.mp hh
  obtain ⟨hu, hes⟩ := List.mem_filter.mp hu
  rcases moveTcbBetweenLists_cases k.listBlockedTcb k.listReadyTcb u.parentPid u.tid .ready with
    ⟨l, t, m, hsplit, hpid, htid, _, _, hmove⟩ | ⟨hnone, _⟩
  · refine ⟨l, t, m, hsplit, ?_, ?_⟩
    · have ht : esDe hilos t = true := by
        obtain ⟨x, hx, hxu⟩ := List.any_eq_true.mp hes
        obtain ⟨hxpid, hxtid⟩ := Tcb.es_iff.mp hxu
        refine List.any_eq_true.mpr ⟨x, hx, Tcb.es_iff.mpr ⟨hpid.trans hxpid, htid.trans hxtid⟩⟩
      have hmem : t.hilo ∈ bloqueadosDe hilos k := by
        refine List.mem_map.mpr ⟨t, List.mem_filter.mpr ⟨?_, ht⟩, rfl⟩
        rw [hsplit]
        exact List.mem_append_right _ List.mem_cons_self
      exact eq_of_tid hdistintos (hdentro _ hmem) (hdentro _ hh) htid
    · have hmove' : moveTcbBetweenLists k.listBlockedTcb k.listReadyTcb u.hilo.pid u.hilo.tid
          .ready = (l ++ m, k.listReadyTcb ++ [{ t with state := .ready }]) := hmove
      rw [desbloquear, hmove']
  · exact absurd ⟨rfl, rfl⟩ (hnone u hu)

/-- A thread taken out of BLOCKED was there once. -/
theorem bloqueadosDe_remove
    {l r : List Tcb} {t : Tcb}
    (hnodup : (bloqueadosDe hilos k).Nodup)
    (hsplit : k.listBlockedTcb = l ++ t :: r)
    (hhilo : t.hilo ∈ hilos) :
    (((l ++ r).filter (esDe hilos)).map Tcb.hilo).Nodup ∧
      ∀ x, x ∈ ((l ++ r).filter (esDe hilos)).map Tcb.hilo ↔
        x ∈ bloqueadosDe hilos k ∧ x ≠ t.hilo := by
  have hperm : (bloqueadosDe hilos k).Perm
      (t.hilo :: ((l ++ r).filter (esDe hilos)).map Tcb.hilo) := by
    rw [bloqueadosDe, hsplit, List.filter_append, List.filter_append,
      List.filter_cons_of_pos (esDe_of_mem hhilo), List.map_append, List.map_append, List.map_cons]
    exact List.perm_middle
  obtain ⟨hno, hrest⟩ := List.nodup_cons.mp (hperm.nodup_iff.mp hnodup)
  refine ⟨hrest, ?_⟩
  intro x
  rw [hperm.mem_iff, List.mem_cons]
  constructor
  · intro hx
    refine ⟨Or.inr hx, ?_⟩
    rintro rfl
    exact hno hx
  · rintro ⟨rfl | hx, hne⟩
    · exact absurd rfl hne
    · exact hx

variable {locks : List Char → FifoLock Hilo} {name : List Char} {tcb : Tcb} {m : Mutex}

/-- A changed mutex stands for the changed lock, and the others for theirs. -/
theorem EnColas.modificar
    {f : Mutex → Mutex} {l : FifoLock Hilo}
    (h : EnColas hilos names pid locks k)
    (hget : getMutex k name = some (some m))
    (hname : ∀ m : Mutex, (f m).name = m.name)
    (hfreed : ∀ m : Mutex, (f m).liberado = m.liberado)
    (hpid : (f m).assignedPid = pid)
    (hrep : Representa (f m) l) :
    ∀ n ∈ names, ∃ m, getMutex (modificarMutex k name f) n = some (some m) ∧
      m.assignedPid = pid ∧ Representa m (Function.update locks name l n) := by
  intro n hn
  by_cases hne : n = name
  · subst hne
    rw [Function.update_self]
    exact ⟨f m, getMutex_modificarMutex hname hfreed hget, hpid, hrep⟩
  · rw [Function.update_of_ne hne, getMutex_modificarMutex_of_ne hname hfreed hne]
    exact h.mutexes n hn

/-- A thread that is not blocked waits for no lock. -/
theorem EnColas.silent
    {h : Hilo}
    (hcolas : EnColas hilos names pid locks k)
    (hno : h ∉ bloqueadosDe hilos k) :
    Silent locks h := by
  intro n hn
  exact hno ((hcolas.bloqueados h).mpr ⟨n, hn⟩)

theorem EnColas.bloqueados_mem
    (h : EnColas hilos names pid locks k) :
    ∀ x ∈ bloqueadosDe hilos k, x ∈ hilos := by
  intro x hx
  obtain ⟨n, hn⟩ := (h.bloqueados x).mp hx
  exact h.dentro.waiters hn

/-- Of the threads only the owner has its TID. -/
theorem EnColas.unico
    (h : EnColas hilos names pid locks k)
    (hdistintos : (hilos.map Hilo.tid).Nodup)
    (hhilo : tcb.hilo ∈ hilos) :
    ∀ b, (locks name).owner = some b → b.tid = tcb.hilo.tid → b = tcb.hilo := by
  intro b hb htid
  exact eq_of_tid hdistintos (h.dentro.owners hb) hhilo htid

/-- The head of the queue of a mutex is in BLOCKED, and the unlock moves it from there. -/
theorem EnColas.entrega
    {proximo : Tcb} {resto : List Tcb}
    (h : EnColas hilos names pid locks k)
    (hdistintos : (hilos.map Hilo.tid).Nodup)
    (hrep : Representa m (locks name))
    (hcola : m.blockedTcbs = proximo :: resto) :
    ∃ l t r, k.listBlockedTcb = l ++ t :: r ∧ t.hilo = proximo.hilo ∧ t.hilo ∈ hilos ∧
      postThreadCount (modificarMutex (desbloquear k proximo.parentPid proximo.tid) name
          (Mutex.ceder proximo.tid)) =
        { modificarMutex k name (Mutex.ceder proximo.tid) with
          listBlockedTcb := l ++ r
          listReadyTcb := k.listReadyTcb ++ [{ t with state := .ready }]
          semThreadCount := k.semThreadCount + 1 } := by
  have hwaits : proximo.hilo ∈ (locks name).waiters := by
    rw [← hrep.cola, hcola]
    exact List.mem_cons_self
  obtain ⟨l, t, r, hsplit, ht, hmove⟩ := desbloquear_eq hdistintos h.bloqueados_mem
    ((h.bloqueados _).mpr ⟨name, hwaits⟩)
  have hmove' : desbloquear k proximo.parentPid proximo.tid = _ := hmove
  refine ⟨l, t, r, hsplit, ht, ?_, ?_⟩
  · rw [ht]
    exact h.dentro.waiters hwaits
  · rw [hmove']
    rfl

/-- `mutex_lock` is `lock`. -/
theorem EnColas.lock
    {cfg : Config μ} {reservado : Bool}
    (h : EnColas hilos names pid locks k)
    (hproceso : ∀ h ∈ hilos, h.pid = pid)
    (hdistintos : (hilos.map Hilo.tid).Nodup)
    (hllama : Llama hilos names k name tcb)
    (hlock : mutexLock cfg name tcb k = some (k', reservado)) :
    EnColas hilos names pid ((LockCall.lock name tcb.hilo).apply locks) k' ∧
      reservado = ((locks name).lock tcb.hilo).2 := by
  obtain ⟨hname, hhilo, hno⟩ := hllama
  obtain ⟨m, hget, hpid, hrep⟩ := h.mutexes name hname
  have hsilent := h.silent hno
  have hvalida := h.valida.apply (c := LockCall.lock name tcb.hilo) hsilent
  have hdentro := h.dentro.apply (c := LockCall.lock name tcb.hilo) hhilo
  rcases mutexLock_cases hlock with ⟨hnone, _⟩ | ⟨m', hget', hcases⟩
  · rw [hget] at hnone
    cases hnone
  rw [hget] at hget'
  cases hget'
  rcases hcases with ⟨hotro, _, _⟩ | ⟨_, hfree, rfl, rfl⟩ | ⟨_, hheld, htid, rfl, rfl⟩
  · exact absurd (hpid.trans (hproceso _ hhilo).symm) hotro
  · obtain ⟨hgranted, hrep'⟩ := hrep.asignar (h.unico hdistintos hhilo) hfree
    refine ⟨⟨hvalida, hdentro, ?_, h.unaVez, ?_⟩, hgranted.symm⟩
    · exact h.modificar hget (fun _ => rfl) (fun _ => rfl) hpid hrep'
    · intro x
      rw [waiting_lock, hgranted, ← h.bloqueados]
      simp [bloqueadosDe, modificarMutex]
  · obtain ⟨hblocked, hrep'⟩ := hrep.encolar hheld htid
    refine ⟨⟨hvalida, hdentro, ?_, ?_, ?_⟩, hblocked.symm⟩
    · exact h.modificar hget (fun _ => rfl) (fun _ => rfl) hpid hrep'
    · rw [bloqueadosDe_block hhilo]
      exact h.unaVez.append (List.nodup_singleton _) (by simpa using hno)
    · intro x
      rw [waiting_lock, bloqueadosDe_block hhilo, List.mem_append, List.mem_singleton, h.bloqueados]
      simp [hblocked]

/-- `mutex_unlock` is `unlock`. -/
theorem EnColas.unlock
    (h : EnColas hilos names pid locks k)
    (hdistintos : (hilos.map Hilo.tid).Nodup)
    (hllama : Llama hilos names k name tcb)
    (hunlock : mutexUnlock name tcb k = some k') :
    EnColas hilos names pid ((LockCall.unlock name tcb.hilo).apply locks) k' := by
  obtain ⟨hname, hhilo, hno⟩ := hllama
  obtain ⟨m, hget, hpid, hrep⟩ := h.mutexes name hname
  have hvalida := h.valida.apply (c := LockCall.unlock name tcb.hilo) (h.silent hno)
  have hdentro := h.dentro.apply (c := LockCall.unlock name tcb.hilo) hhilo
  obtain ⟨m', hget', hcases⟩ := mutexUnlock_cases hunlock
  rw [hget] at hget'
  cases hget'
  rcases hcases with ⟨hnot, rfl⟩ | ⟨hassigned, htid, ⟨proximo, resto, hcola, rfl⟩ | ⟨hcola, rfl⟩⟩
  · have hother : (locks name).owner ≠ some tcb.hilo := hrep.not_owner hnot
    have hsame : (LockCall.unlock name tcb.hilo).apply locks = locks := by
      simp [LockCall.apply, FifoLock.unlock_of_not_owner hother]
    rw [hsame]
    exact h
  · have howner := hrep.owner (h.unico hdistintos hhilo) hassigned htid
    obtain ⟨hhanded, hrep'⟩ := hrep.ceder howner hcola
    obtain ⟨l, t, r, hsplit, ht, hin, heq⟩ := h.entrega hdistintos hrep hcola
    obtain ⟨hnodup, hmem⟩ := bloqueadosDe_remove h.unaVez hsplit hin
    rw [heq]
    refine ⟨hvalida, hdentro, ?_, hnodup, ?_⟩
    · exact h.modificar hget (fun _ => rfl) (fun _ => rfl) hpid hrep'
    · intro x
      rw [waiting_unlock h.valida, hhanded, ← h.bloqueados]
      refine (hmem x).trans (and_congr_right fun _ => ?_)
      rw [ht, ne_eq, ne_eq, Option.some.injEq]
      exact not_congr eq_comm
  · have howner := hrep.owner (h.unico hdistintos hhilo) hassigned htid
    obtain ⟨hhanded, hrep'⟩ := hrep.desasignar howner hcola
    refine ⟨hvalida, hdentro, ?_, h.unaVez, ?_⟩
    · exact h.modificar hget (fun _ => rfl) (fun _ => rfl) hpid hrep'
    · intro x
      rw [waiting_unlock h.valida, hhanded, ← h.bloqueados]
      simp [bloqueadosDe, modificarMutex]

/-- A thread that waits is in BLOCKED once. -/
theorem EnColas.una_vez
    {h : Hilo}
    (hcolas : EnColas hilos names pid locks k)
    (hdistintos : (hilos.map Hilo.tid).Nodup)
    (hwaits : h ∈ (locks name).waiters) :
    k.listBlockedTcb.countP (Tcb.es h.pid h.tid) = 1 := by
  have hblocked : h ∈ bloqueadosDe hilos k := (hcolas.bloqueados h).mpr ⟨name, hwaits⟩
  have hhilo : h ∈ hilos := hcolas.dentro.waiters hwaits
  have hcount : (bloqueadosDe hilos k).count h =
      k.listBlockedTcb.countP (Tcb.es h.pid h.tid) := by
    rw [bloqueadosDe, List.count, List.countP_map, List.countP_filter]
    refine List.countP_congr ?_
    intro u hu
    rw [Bool.and_eq_true, Function.comp_apply, beq_iff_eq, Tcb.es_iff]
    constructor
    · rintro ⟨rfl, _⟩
      exact ⟨rfl, rfl⟩
    · rintro ⟨hpid, htid⟩
      have hes : esDe hilos u = true :=
        List.any_eq_true.mpr ⟨h, hhilo, Tcb.es_iff.mpr ⟨hpid, htid⟩⟩
      have hmem : u.hilo ∈ bloqueadosDe hilos k :=
        List.mem_map.mpr ⟨u, List.mem_filter.mpr ⟨hu, hes⟩, rfl⟩
      exact ⟨eq_of_tid hdistintos (hcolas.bloqueados_mem _ hmem) hhilo htid, hes⟩
  rw [← hcount]
  exact List.count_eq_one_of_mem hcolas.unaVez hblocked

/-- An allowed event is a call on the locks, or leaves them alone. -/
theorem EnColas.paso
    {cfg : Config μ} {e : EventoMutex μ}
    (h : EnColas hilos names pid locks k)
    (hproceso : ∀ h ∈ hilos, h.pid = pid)
    (hdistintos : (hilos.map Hilo.tid).Nodup)
    (hok : SinBloqueados hilos names k e)
    (hstep : pasoMutex cfg k e = some k') :
    EnColas hilos names pid (runLocks locks e.llamada.toList) k' := by
  cases e with
  | lock name tcb =>
      obtain ⟨⟨_, reservado⟩, hlock, rfl⟩ := Option.map_eq_some_iff.mp hstep
      exact (h.lock hproceso hdistintos hok hlock).1
  | unlock name tcb =>
      exact h.unlock hdistintos hok hstep
  | otro b =>
      cases hstep
      obtain ⟨hmutexes, hblocked⟩ := hok
      refine ⟨h.valida, h.dentro, ?_, by rw [hblocked]; exact h.unaVez, ?_⟩
      · intro name hname
        rw [hmutexes name hname]
        exact h.mutexes name hname
      · rw [hblocked]
        exact h.bloqueados

end Threads

section Creation

variable {names todos : List (List Char)} {pid : Nat} {k k' : Globals μ} {name : List Char}

/-- Where no mutex was freed, one that is there is found. -/
theorem getMutex_of_mem
    (huso : ∀ m ∈ k.globalMutexes, m.liberado = false)
    (hmem : ∃ m ∈ k.globalMutexes, m.name = name) :
    ∃ m ∈ k.globalMutexes, m.name = name ∧ getMutex k name = some (some m) := by
  unfold getMutex
  generalize k.globalMutexes = l at *
  induction l with
  | nil =>
      obtain ⟨m, hm, _⟩ := hmem
      cases hm
  | cons x l ih =>
      have hx := huso x List.mem_cons_self
      by_cases hname : x.name = name
      · exact ⟨x, List.mem_cons_self, hname, by simp [buscarMutex, hx, hname]⟩
      · obtain ⟨m, hm, hmname⟩ := hmem
        have hm : m ∈ l := by
          rcases List.mem_cons.mp hm with rfl | hm
          · exact absurd hmname hname
          · exact hm
        obtain ⟨y, hy, hyname, hfound⟩ := ih
          (fun m hm => huso m (List.mem_cons_of_mem _ hm)) ⟨m, hm, hmname⟩
        exact ⟨y, List.mem_cons_of_mem _ hy, hyname, by simp [buscarMutex, hx, hname, hfound]⟩

/-- No mutex was freed, and those with the names are as `mutex_create` makes them. -/
def Nuevos (todos : List (List Char)) (pid : Nat) (k : Globals μ) : Prop :=
  ∀ m ∈ k.globalMutexes, m.liberado = false ∧ (m.name ∈ todos → m = nuevoMutex m.name pid)

/-- What `mutex_create` adds, if the name is new. -/
theorem mutexCreate_spec
    (h : mutexCreate name pid k = some k') :
    k'.listBlockedTcb = k.listBlockedTcb ∧
      (∃ m ∈ k'.globalMutexes, m.name = name) ∧
      (∀ m ∈ k.globalMutexes, m ∈ k'.globalMutexes) ∧
      ∀ m ∈ k'.globalMutexes, m ∈ k.globalMutexes ∨ m = nuevoMutex name pid := by
  unfold mutexCreate at h
  cases hget : getMutex k name with
  | none =>
      simp [hget] at h
  | some o =>
      simp only [hget, Option.bind_eq_bind, Option.bind_some] at h
      cases o with
      | none =>
          cases h
          refine ⟨rfl, ⟨nuevoMutex name pid, by simp, rfl⟩, ?_, ?_⟩
          · intro m hm
            exact List.mem_append_left _ hm
          · intro m hm
            rcases List.mem_append.mp hm with hm | hm
            · exact Or.inl hm
            · exact Or.inr (List.mem_singleton.mp hm)
      | some m =>
          cases h
          obtain ⟨hfind, hname, _⟩ := getMutex_some hget
          exact ⟨rfl, ⟨m, List.mem_of_find?_eq_some hfind, hname⟩, fun _ hm => hm,
            fun _ hm => Or.inl hm⟩

/-- Creating mutexes adds new ones and changes nothing else that matters here. -/
theorem crearMutexes_spec
    (h : crearMutexes pid names k = some k')
    (hnuevos : Nuevos todos pid k) :
    Nuevos todos pid k' ∧ k'.listBlockedTcb = k.listBlockedTcb ∧
      (∀ m ∈ k.globalMutexes, m ∈ k'.globalMutexes) ∧
      ∀ name ∈ names, ∃ m ∈ k'.globalMutexes, m.name = name := by
  induction names generalizing k with
  | nil =>
      cases h
      exact ⟨hnuevos, rfl, fun _ hm => hm, fun _ hn => by cases hn⟩
  | cons name names ih =>
      obtain ⟨k₁, hcreate, hrest⟩ := Option.bind_eq_some_iff.mp h
      obtain ⟨hblocked, ⟨m, hm, hmname⟩, hkeep, hadded⟩ := mutexCreate_spec hcreate
      have hnuevos₁ : Nuevos todos pid k₁ := by
        intro x hx
        rcases hadded x hx with hx | rfl
        · exact hnuevos x hx
        · exact ⟨rfl, fun _ => rfl⟩
      obtain ⟨hend, hblocked', hkeep', hnames⟩ := ih hrest hnuevos₁
      refine ⟨hend, hblocked'.trans hblocked, fun x hx => hkeep' x (hkeep x hx), ?_⟩
      intro n hn
      rcases List.mem_cons.mp hn with rfl | hn
      · exact ⟨m, hkeep' m hm, hmname⟩
      · exact hnames n hn

/-- The created mutexes are free, and nobody waits. -/
theorem enColas_inicio
    {hilos : List Hilo}
    (h : SinMutexes hilos names pid k)
    (hcrea : crearMutexes pid names k = some k') :
    EnColas hilos names pid (fun _ => FifoLock.free) k' := by
  have hnuevos : Nuevos names pid k := by
    intro m hm
    exact ⟨h.enUso m hm, fun hn => absurd hn (h.nuevos m hm)⟩
  obtain ⟨hend, hblocked, _, hnames⟩ := crearMutexes_spec hcrea hnuevos
  have hnadie : bloqueadosDe hilos k' = [] := by
    rw [bloqueadosDe, hblocked]
    exact h.despiertos
  refine ⟨validLocks_free, ⟨?_, ?_⟩, ?_, by rw [hnadie]; exact List.nodup_nil, ?_⟩
  · intro i a ha
    cases ha
  · intro i a ha
    cases ha
  · intro n hn
    obtain ⟨m, hm, hmname, hget⟩ := getMutex_of_mem (fun m hm => (hend m hm).1) (hnames n hn)
    have hnew := (hend m hm).2 (by rw [hmname]; exact hn)
    refine ⟨m, hget, by rw [hnew]; rfl, ?_⟩
    rw [hnew]
    refine ⟨fun _ => rfl, ?_, rfl, rfl⟩
    intro b hb
    cases hb
  · intro x
    rw [hnadie]
    constructor
    · intro hx
      cases hx
    · rintro ⟨_, hn⟩
      cases hn

end Creation

/-- What holds of a mutex after the calls of a run. -/
structure EsFifo (hilos : List Hilo) (calls : List (LockCall (List Char) Hilo))
    (k : Globals μ) (name : List Char) (m : Mutex) : Prop where
  refina : Representa m (runLocks (fun _ => FifoLock.free) calls name)
  unDueno : m.assigned = true → ∀ h ∈ hilos, ∀ h' ∈ hilos,
    m.assignedTid = h.tid → m.assignedTid = h'.tid → h = h'
  enOrden : blockedCalls (fun _ => FifoLock.free) name calls =
    handOffs (fun _ => FifoLock.free) name calls ++ m.blockedTcbs.map Tcb.hilo
  cuenta : m.blockedCount = m.blockedTcbs.length
  libre : m.assigned = false → m.blockedTcbs = []
  duenoNoEspera : m.assigned = true → ∀ t ∈ m.blockedTcbs, t.tid ≠ m.assignedTid
  unaVez : ∀ t ∈ m.blockedTcbs, k.listBlockedTcb.countP (Tcb.es t.parentPid t.tid) = 1

/-- What the next call of a thread on a mutex does: a lock answers as the FIFO lock; an
unlock by the owner grants the mutex to the oldest waiter, and moves it from BLOCKED to
the end of READY with one post, or frees the mutex; another unlock does nothing. -/
structure LlamaFifo (cfg : Config μ) (l : FifoLock Hilo) (k : Globals μ) (name : List Char)
    (m : Mutex) (tcb : Tcb) : Prop where
  lock : ∃ k', mutexLock cfg name tcb k = some (k', (l.lock tcb.hilo).2)
  cede : m.assigned = true → m.assignedTid = tcb.tid →
    ∀ proximo resto, m.blockedTcbs = proximo :: resto →
      ∃ a t b, k.listBlockedTcb = a ++ t :: b ∧ t.hilo = proximo.hilo ∧
        mutexUnlock name tcb k = some { modificarMutex k name (Mutex.ceder proximo.tid) with
          listBlockedTcb := a ++ b
          listReadyTcb := k.listReadyTcb ++ [{ t with state := .ready }]
          semThreadCount := k.semThreadCount + 1 }
  libera : m.assigned = true → m.assignedTid = tcb.tid → m.blockedTcbs = [] →
    mutexUnlock name tcb k = some (modificarMutex k name Mutex.desasignar)
  ajeno : ¬ (m.assigned = true ∧ m.assignedTid = tcb.tid) → mutexUnlock name tcb k = some k

section Calls

variable {cfg : Config μ} {k : Globals μ} {name : List Char} {tcb : Tcb} {m : Mutex}

/-- A lock of a mutex that is found returns. -/
theorem mutexLock_isSome
    (cfg : Config μ) (tcb : Tcb)
    (hget : getMutex k name = some (some m)) :
    ∃ k' reservado, mutexLock cfg name tcb k = some (k', reservado) := by
  unfold mutexLock
  simp only [hget, Option.bind_eq_bind, Option.bind_some]
  split_ifs
  · exact ⟨_, _, rfl⟩
  · exact ⟨_, _, rfl⟩
  · exact ⟨_, _, rfl⟩

variable {hilos : List Hilo} {names : List (List Char)} {pid : Nat}
  {locks : List Char → FifoLock Hilo}

/-- The calls that a thread can make do what the FIFO lock says. -/
theorem EnColas.llamaFifo
    (h : EnColas hilos names pid locks k)
    (hproceso : ∀ h ∈ hilos, h.pid = pid)
    (hdistintos : (hilos.map Hilo.tid).Nodup)
    (hget : getMutex k name = some (some m))
    (hrep : Representa m (locks name))
    (hllama : Llama hilos names k name tcb) :
    LlamaFifo cfg (locks name) k name m tcb := by
  constructor
  · obtain ⟨k', reservado, hlock⟩ := mutexLock_isSome cfg tcb hget
    obtain ⟨_, rfl⟩ := h.lock hproceso hdistintos hllama hlock
    exact ⟨k', hlock⟩
  · intro hassigned htid proximo resto hcola
    obtain ⟨a, t, b, hsplit, ht, _, heq⟩ := h.entrega hdistintos hrep hcola
    refine ⟨a, t, b, hsplit, ht, ?_⟩
    rw [← heq]
    simp [mutexUnlock, hget, hassigned, htid, hcola]
  · intro hassigned htid hcola
    simp [mutexUnlock, hget, hassigned, htid, hcola]
  · intro hno
    have hother : m.assigned = false ∨ m.assignedTid ≠ tcb.tid := by
      rw [← Bool.not_eq_true, ← not_and_or]
      exact hno
    simp [mutexUnlock, hget, hother]

/-- The mutex is a FIFO lock with hand-off. -/
theorem EnColas.esFifo
    {calls : List (LockCall (List Char) Hilo)}
    (h : EnColas hilos names pid (runLocks (fun _ => FifoLock.free) calls) k)
    (hdistintos : (hilos.map Hilo.tid).Nodup)
    (hrep : Representa m (runLocks (fun _ => FifoLock.free) calls name)) :
    EsFifo hilos calls k name m := by
  have hvalid := h.valida.valid name
  have hwaits : ∀ t ∈ m.blockedTcbs,
      t.hilo ∈ (runLocks (fun _ => FifoLock.free) calls name).waiters := by
    intro t ht
    rw [← hrep.cola]
    exact List.mem_map_of_mem ht
  refine ⟨hrep, ?_, ?_, ?_, ?_, ?_, ?_⟩
  · intro _ x hx y hy hxtid hytid
    exact eq_of_tid hdistintos hx hy (hxtid.symm.trans hytid)
  · rw [hrep.cola, ← handOffs_append_waiters]
    rfl
  · rw [hrep.cuenta, ← hrep.cola, List.length_map]
  · intro hfree
    have hnone : (runLocks (fun _ => FifoLock.free) calls name).owner = none := by
      cases howner : (runLocks (fun _ => FifoLock.free) calls name).owner with
      | none =>
          rfl
      | some b =>
          have hassigned := (hrep.dueno b howner).1
          rw [hfree] at hassigned
          cases hassigned
    have hempty := hvalid.idle hnone
    rw [← hrep.cola, List.map_eq_nil_iff] at hempty
    exact hempty
  · intro hassigned t ht htid
    have howner := hrep.owner (h := t.hilo)
      (fun b hb hbtid => eq_of_tid hdistintos (h.dentro.owners hb)
        (h.dentro.waiters (hwaits t ht)) hbtid) hassigned htid.symm
    exact hvalid.owner_not_waiting _ howner (hwaits t ht)
  · intro t ht
    exact h.una_vez hdistintos (hwaits t ht)

end Calls

/-- The mutexes that one process creates are FIFO locks with hand-off, for the calls of
its threads, a thread that is blocked being silent. -/
theorem mutexes_are_fifo_locks
    {cfg : Config μ} {hilos : List Hilo} {names : List (List Char)} {pid : Nat}
    {k₀ k₁ k : Globals μ} {es : List (EventoMutex μ)}
    (hinicio : SinMutexes hilos names pid k₀)
    (hcrea : crearMutexes pid names k₀ = some k₁)
    (hrun : Run (fun a e b => pasoMutex cfg a e = some b) (SinBloqueados hilos names) k₁ es k) :
    ∀ name ∈ names, ∃ m, getMutex k name = some (some m) ∧
      EsFifo hilos (es.filterMap EventoMutex.llamada) k name m ∧
      ∀ tcb, Llama hilos names k name tcb →
        LlamaFifo cfg (cerraduras es name) k name m tcb := by
  have hcolas : EnColas hilos names pid (cerraduras es) k := by
    induction hrun with
    | nil =>
        exact enColas_inicio hinicio hcrea
    | snoc _ hok hstep ih =>
        have hpaso := ih.paso hinicio.proceso hinicio.distintos hok hstep
        rw [cerraduras, List.filterMap_append, runLocks_append]
        exact hpaso
  intro name hname
  obtain ⟨m, hget, _, hrep⟩ := hcolas.mutexes name hname
  refine ⟨m, hget, hcolas.esFifo hinicio.distintos hrep, ?_⟩
  intro tcb hllama
  exact hcolas.llamaFifo hinicio.proceso hinicio.distintos hget hrep hllama

/-- The thread `tid` of the first process. -/
def hiloCeroDe (tid : Nat) : Tcb where
  dir := tid
  tid := tid
  parentPid := 0
  priority := 0
  state := .ready
  filePath := []

def tresHilos : List Hilo := [(hiloCeroDe 0).hilo, (hiloCeroDe 1).hilo, (hiloCeroDe 2).hilo]

/-- The kernel after the first process created two mutexes. -/
def dosMutexes : Globals Unit :=
  (crearMutexes 0 [['m'], ['n']] (inicial ())).get (by decide)

/-- Two threads wait for the mutex of the first one, which then waits behind them. -/
def llamadasTresHilos : List (EventoMutex Unit) :=
  [.lock ['m'] (hiloCeroDe 0), .lock ['n'] (hiloCeroDe 1), .lock ['m'] (hiloCeroDe 1),
   .unlock ['m'] (hiloCeroDe 2), .lock ['m'] (hiloCeroDe 2), .lock ['m'] (hiloCeroDe 0),
   .unlock ['m'] (hiloCeroDe 0), .lock ['m'] (hiloCeroDe 0), .unlock ['m'] (hiloCeroDe 1)]

theorem mutexes_are_fifo_locks_tresHilos :
    ∃ k m, Run (fun a e b => pasoMutex (siempreOk .fifo) a e = some b)
        (SinBloqueados tresHilos [['m'], ['n']]) dosMutexes llamadasTresHilos k ∧
      getMutex k ['m'] = some (some m) ∧ m.assignedTid = 2 ∧
      m.blockedTcbs.map Tcb.hilo = [(hiloCeroDe 0).hilo] ∧
      EsFifo tresHilos (llamadasTresHilos.filterMap EventoMutex.llamada) k ['m'] m := by
  have hinicio : SinMutexes tresHilos [['m'], ['n']] 0 (inicial ()) :=
    ⟨by decide, by decide, by decide, by decide, by decide⟩
  have hcrea : crearMutexes 0 [['m'], ['n']] (inicial ()) = some dosMutexes :=
    (Option.some_get _).symm
  have hrun : Run (fun a e b => pasoMutex (siempreOk .fifo) a e = some b)
      (SinBloqueados tresHilos [['m'], ['n']]) dosMutexes llamadasTresHilos _ :=
    run_of_isSome (pasoMutex (siempreOk .fifo)) id (by decide) (by decide)
  obtain ⟨m, hget, hfifo, _⟩ := mutexes_are_fifo_locks hinicio hcrea hrun ['m'] (by decide)
  refine ⟨_, m, hrun, hget, ?_, ?_, hfifo⟩
  · exact (hfifo.refina.dueno (hiloCeroDe 2).hilo (by decide)).2
  · exact hfifo.refina.cola.trans (by decide)

end Kernel
end SinIdeas
