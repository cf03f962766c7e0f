import SinIdeas.Kernel.MutexFifo
import SinIdeas.Kernel.MutexOwnership

/-!
# Syscalls with a target

THREAD_JOIN and THREAD_CANCEL name a thread, MUTEX_CREATE, MUTEX_LOCK and
MUTEX_UNLOCK a mutex, and the target may not exist. A handler treats it cleanly
when it follows no null or freed pointer, leaves everything as it was if the
target of a join, a cancellation or an unlock is missing, and leaves every mutex
of `global_mutexes` in use under a name of its own.
-/

namespace SinIdeas
namespace Kernel

open Lib

variable {μ : Type}

/-- The mutexes are in use and have different names. -/
structure MutexesValidos (k : Globals μ) : Prop where
  enUso : ∀ m ∈ k.globalMutexes, m.liberado = false
  nombres : (k.globalMutexes.map Mutex.name).Nodup

/-- The syscalls with a target. -/
def ConObjetivo : Mensaje Nat → Prop
  | .threadJoin _ => True
  | .threadCancel _ => True
  | .mutexCreate _ _ => True
  | .mutexLock _ _ => True
  | .mutexUnlock _ _ => True
  | _ => False

/-- A thread with the TID, of the process of `p`, that is BLOCKED or READY. -/
def HayHilo (k : Globals μ) (p : Tcb) (tid : Nat) : Prop :=
  ∃ t ∈ k.listBlockedTcb ++ k.listReadyTcb, t.parentPid = p.parentPid ∧ t.tid = tid

/-- A mutex with the name. -/
def HayMutex (k : Globals μ) (name : List Char) : Prop :=
  ∃ m ∈ k.globalMutexes, m.name = name

/-- The target of a join, a cancellation or an unlock is missing. -/
def SinObjetivo (k : Globals μ) (p : Tcb) : Mensaje Nat → Prop
  | .threadJoin tid => ¬ HayHilo k p tid
  | .threadCancel tid => ¬ HayHilo k p tid
  | .mutexUnlock name _ => ¬ HayMutex k name
  | _ => False

/-- The scheduler lists, the joins and the mutexes are the same. -/
structure MismasListas (k k' : Globals μ) : Prop where
  nuevos : k'.listNewTcb = k.listNewTcb
  ready : k'.listReadyTcb = k.listReadyTcb
  blocked : k'.listBlockedTcb = k.listBlockedTcb
  salida : k'.listExitTcb = k.listExitTcb
  joins : k'.listTcbJoins = k.listTcbJoins
  mutexes : k'.globalMutexes = k.globalMutexes

/-- The handler of the message of `p` deals cleanly with its target. -/
def AtiendeLimpio (cfg : Config μ) (k : Globals μ) (p : Tcb) (m : Mensaje Nat) : Prop :=
  ∃ k', paso cfg k (.respuesta m) = some k' ∧
    (SinObjetivo k p m → MismasListas k k') ∧ MutexesValidos k'

/-- The dispatch found the PCB of the thread in `list_PCB_active`, so that
`current_pcb_executing` is not `NULL`; a cancellation finds its thread, or there are no
joins; a lock asks for no mutex of another process, and an unlock for one that exists. -/
def Conoce (k : Globals μ) (p : Tcb) : Mensaje Nat → Prop
  | .threadJoin _ => k.currentPcbExecuting.isSome
  | .threadCancel tid =>
      k.currentPcbExecuting.isSome ∧ (k.listTcbJoins = [] ∨ HayHilo k p tid)
  | .mutexCreate _ _ => k.currentPcbExecuting.isSome
  | .mutexLock name _ => k.currentPcbExecuting.isSome ∧
      ∀ m ∈ k.globalMutexes, m.name = name → m.assignedPid = p.parentPid
  | .mutexUnlock name _ => k.currentPcbExecuting.isSome ∧ HayMutex k name
  | _ => True

/-- The syscalls with a target meet `Conoce`. -/
def ObjetivoConocido (k : Globals μ) : Evento → Prop
  | .respuesta m => ∀ p ∈ k.fase.ejecutando?, Conoce k p m
  | _ => True

section Instances

variable (k : Globals μ) (p : Tcb)

instance (tid : Nat) : Decidable (HayHilo k p tid) :=
  inferInstanceAs (Decidable (∃ t ∈ k.listBlockedTcb ++ k.listReadyTcb,
    t.parentPid = p.parentPid ∧ t.tid = tid))

instance (name : List Char) : Decidable (HayMutex k name) :=
  inferInstanceAs (Decidable (∃ m ∈ k.globalMutexes, m.name = name))

instance : ∀ m, Decidable (Conoce k p m)
  | .threadJoin _ => inferInstanceAs (Decidable (k.currentPcbExecuting.isSome = true))
  | .threadCancel tid => inferInstanceAs (Decidable
      (k.currentPcbExecuting.isSome = true ∧ (k.listTcbJoins = [] ∨ HayHilo k p tid)))
  | .mutexCreate _ _ => inferInstanceAs (Decidable (k.currentPcbExecuting.isSome = true))
  | .mutexLock name _ => inferInstanceAs (Decidable (k.currentPcbExecuting.isSome = true ∧
      ∀ m ∈ k.globalMutexes, m.name = name → m.assignedPid = p.parentPid))
  | .mutexUnlock name _ => inferInstanceAs (Decidable
      (k.currentPcbExecuting.isSome = true ∧ HayMutex k name))
  | .dumpMemory _ _ => .isTrue trivial
  | .io _ => .isTrue trivial
  | .processCreate _ _ _ => .isTrue trivial
  | .threadCreate _ _ => .isTrue trivial
  | .threadExit _ => .isTrue trivial
  | .processExit _ => .isTrue trivial
  | .segmentationFault _ _ => .isTrue trivial
  | .kernelInterruption _ _ => .isTrue trivial

instance : ∀ e, Decidable (ObjetivoConocido k e)
  | .respuesta m => inferInstanceAs (Decidable (∀ p ∈ k.fase.ejecutando?, Conoce k p m))
  | .despachar => .isTrue trivial
  | .seguirFin => .isTrue trivial
  | .ioFin => .isTrue trivial
  | .dumpRespuesta _ _ => .isTrue trivial
  | .dumpSeguir _ => .isTrue trivial

end Instances

section Mutexes

variable {cfg : Config μ} {k k' : Globals μ} {name : List Char} {f : Mutex → Mutex}

theorem MutexesValidos.of_mutexes
    (h : MutexesValidos k)
    (hk' : k'.globalMutexes = k.globalMutexes) :
    MutexesValidos k' := by
  constructor
  · rw [hk']
    exact h.enUso
  · rw [hk']
    exact h.nombres

/-- Changing a mutex without freeing or renaming it. -/
theorem MutexesValidos.modificar
    (h : MutexesValidos k)
    (hname : ∀ m : Mutex, (f m).name = m.name)
    (hfreed : ∀ m : Mutex, (f m).liberado = m.liberado)
    (hk' : k'.globalMutexes = modifyFirst (fun m => m.name == name) f k.globalMutexes) :
    MutexesValidos k' := by
  constructor
  · rw [hk']
    intro m hm
    rcases mem_modifyFirst hm with hm | ⟨x, hx, rfl⟩
    · exact h.enUso m hm
    · rw [hfreed]
      exact h.enUso x (List.mem_of_find?_eq_some hx)
  · rw [hk', map_modifyFirst (fun m _ => hname m)]
    exact h.nombres

theorem MutexesValidos.agregar
    (h : MutexesValidos k) (name : List Char) (pid : Nat)
    (hnew : ∀ m ∈ k.globalMutexes, m.name ≠ name)
    (hk' : k'.globalMutexes = k.globalMutexes ++ [nuevoMutex name pid]) :
    MutexesValidos k' := by
  constructor
  · rw [hk']
    intro m hm
    rcases List.mem_append.mp hm with hm | hm
    · exact h.enUso m hm
    · rw [List.mem_singleton.mp hm]
      rfl
  · rw [hk', List.map_append]
    refine List.nodup_append.mpr ⟨h.nombres, by simp, ?_⟩
    intro x hx y hy
    obtain ⟨m, hm, rfl⟩ := List.mem_map.mp hx
    rw [List.map_singleton, List.mem_singleton] at hy
    rw [hy]
    exact hnew m hm

theorem MutexesValidos.mutexUnlock
    {tcb : Tcb}
    (h : MutexesValidos k)
    (hunlock : mutexUnlock name tcb k = some k') :
    MutexesValidos k' := by
  obtain ⟨m, _, hcases⟩ := mutexUnlock_cases hunlock
  rcases hcases with ⟨_, rfl⟩ | ⟨_, _, ⟨proximo, resto, _, rfl⟩ | ⟨_, rfl⟩⟩
  · exact h
  · exact h.modificar (f := Mutex.ceder proximo.tid) (fun _ => rfl) (fun _ => rfl) rfl
  · exact h.modificar (f := Mutex.desasignar) (fun _ => rfl) (fun _ => rfl) rfl

theorem MutexesValidos.releaseAllMutexes
    {tcb : Tcb}
    (h : MutexesValidos k)
    (hrelease : releaseAllMutexes tcb k = some k') :
    MutexesValidos k' := by
  refine releaseAllMutexes_invariant (I := MutexesValidos) hrelease h ?_
  intro a b m ha _ _ _ _ hunlock
  exact ha.mutexUnlock hunlock

theorem MutexesValidos.mutexLock
    {tcb : Tcb} {reservado : Bool}
    (h : MutexesValidos k)
    (hown : ∀ m ∈ k.globalMutexes, m.name = name → m.assignedPid = tcb.parentPid)
    (hlock : mutexLock cfg name tcb k = some (k', reservado)) :
    MutexesValidos k' := by
  rcases mutexLock_cases hlock with ⟨_, _, salida, rfl⟩ | ⟨m, hget, hcases⟩
  · exact h.of_mutexes rfl
  obtain ⟨hfind, hname, _⟩ := getMutex_some hget
  rcases hcases with ⟨hother, _, _⟩ | ⟨_, _, _, rfl⟩ | ⟨_, _, _, _, rfl⟩
  · exact absurd (hown m (List.mem_of_find?_eq_some hfind) hname) hother
  · exact h.modificar (f := Mutex.asignar tcb.tid) (fun _ => rfl) (fun _ => rfl) rfl
  · exact h.modificar (f := Mutex.encolar { tcb with state := .blocked }) (fun _ => rfl)
      (fun _ => rfl) rfl

/-- Every step under the condition keeps the mutexes valid. -/
theorem MutexesValidos.kernel
    {e : Evento}
    (h : MutexesValidos k)
    (hviejos : k.listaTcbsBlockeados = [])
    (hok : ObjetivoConocido k e)
    (hstep : paso cfg k e = some k') :
    MutexesValidos k' := by
  cases efectoMutexes_paso hviejos hstep with
  | igual hsame =>
      exact h.of_mutexes hsame
  | create p name pid _ _ hnew hk' =>
      exact h.agregar _ _ hnew hk'
  | lock p name x k₁ reservado he hfase hlock hk' =>
      have h' : MutexesValidos (interruptQuantum k) := h.of_mutexes rfl
      have hconoce : Conoce k p (.mutexLock name x) := by
        rw [he] at hok
        exact hok p (by rw [hfase]; rfl)
      refine (h'.mutexLock hconoce.2 hlock).of_mutexes ?_
      rw [hk']
      split_ifs <;> rfl
  | unlock p name x k₁ _ _ hunlock hk' =>
      have h' : MutexesValidos (interruptQuantum k) := h.of_mutexes rfl
      exact (h'.mutexUnlock hunlock).of_mutexes (by rw [hk']; rfl)
  | release pid tcb k₁ k₂ _ hk₁ hrelease hk' =>
      exact ((h.of_mutexes hk₁).releaseAllMutexes hrelease).of_mutexes hk'

end Mutexes

section Handlers

variable {cfg : Config μ} {k : Globals μ} {p : Tcb} {pid tid : Nat} {name : List Char}

/-- `find_tcb_from_tid` finds a thread exactly when there is one. -/
theorem findTcbFromTid_none_iff :
    findTcbFromTid k tid p.parentPid = none ↔ ¬ HayHilo k p tid := by
  constructor
  · rintro hnone ⟨t, ht, hpid, htid⟩
    unfold findTcbFromTid findTcbInList at hnone
    split at hnone
    · cases hnone
    · rename_i hblocked
      rcases List.mem_append.mp ht with ht | ht
      · exact List.find?_eq_none.mp hblocked t ht (Tcb.es_iff.mpr ⟨hpid, htid⟩)
      · exact List.find?_eq_none.mp hnone t ht (Tcb.es_iff.mpr ⟨hpid, htid⟩)
  · intro hno
    cases hfind : findTcbFromTid k tid p.parentPid with
    | none =>
        rfl
    | some t =>
        obtain ⟨hpid, htid, hmem⟩ := findTcbFromTid_some hfind
        exact absurd ⟨t, List.mem_append.mpr hmem, hpid, htid⟩ hno

/-- Where no mutex was freed, `get_mutex` tells whether there is one. -/
theorem getMutex_of_valid
    (name : List Char) (h : MutexesValidos k) :
    (∃ m ∈ k.globalMutexes, m.name = name ∧ getMutex k name = some (some m)) ∨
      (¬ HayMutex k name ∧ getMutex k name = some none) := by
  by_cases hmem : HayMutex k name
  · exact Or.inl (getMutex_of_mem h.enUso hmem)
  · refine Or.inr ⟨hmem, ?_⟩
    have huso := h.enUso
    unfold HayMutex at hmem
    unfold getMutex
    generalize k.globalMutexes = l at hmem huso
    induction l with
    | nil =>
        rfl
    | cons x l ih =>
        have hx := huso x List.mem_cons_self
        have hname : x.name ≠ name := fun hname => hmem ⟨x, List.mem_cons_self, hname⟩
        have hrest := ih
          (fun ⟨m, hm, hmname⟩ => hmem ⟨m, List.mem_cons_of_mem _ hm, hmname⟩)
          (fun m hm => huso m (List.mem_cons_of_mem _ hm))
        simp [buscarMutex, hx, hname, hrest]

/-- The handler of a syscall with a target runs with the PCB that executes. -/
theorem paso_respuesta
    {m : Mensaje Nat}
    (hfase : k.fase = .ejecutando p) (hpcb : k.currentPcbExecuting = some pid)
    (hm : ConObjetivo m) :
    paso cfg k (.respuesta m) = atenderSyscall cfg p pid m (interruptQuantum k) := by
  cases m <;> first | exact absurd hm id | simp [paso, atenderMensaje, hfase, hpcb]

theorem pcb_of_paso
    {m : Mensaje Nat} {k' : Globals μ}
    (hm : ConObjetivo m)
    (hstep : paso cfg k (.respuesta m) = some k') :
    ∃ pid, k.currentPcbExecuting = some pid := by
  obtain ⟨_, pid, _, hpid | ⟨x, y, rfl⟩, _⟩ := atenderMensaje_cases hstep
  · exact ⟨pid, hpid⟩
  · exact absurd hm id

theorem atiendeLimpio_join
    (hvalid : MutexesValidos k) (hfase : k.fase = .ejecutando p)
    (hpcb : k.currentPcbExecuting = some pid) :
    AtiendeLimpio cfg k p (.threadJoin tid) := by
  refine ⟨_, paso_respuesta hfase hpcb trivial, ?_, ?_⟩
  · intro hno
    have hnone : findTcbFromTid (interruptQuantum k) tid p.parentPid = none :=
      findTcbFromTid_none_iff.mpr hno
    simp only [threadJoin, hnone]
    exact ⟨rfl, rfl, rfl, rfl, rfl, rfl⟩
  · apply hvalid.of_mutexes
    rcases threadJoin_cases tid p (interruptQuantum k) with ⟨_, heq⟩ | ⟨_, _, heq⟩
    · rw [heq]
      rfl
    · rw [heq]
      rfl

theorem atiendeLimpio_cancel_iff
    (hvalid : MutexesValidos k) (hfase : k.fase = .ejecutando p)
    (hpcb : k.currentPcbExecuting = some pid) :
    AtiendeLimpio cfg k p (.threadCancel tid) ↔ k.listTcbJoins = [] ∨ HayHilo k p tid := by
  unfold AtiendeLimpio
  rw [paso_respuesta (m := .threadCancel tid) hfase hpcb trivial]
  simp only [atenderSyscall, threadCancel]
  cases hfind : findTcbFromTid (interruptQuantum k) tid p.parentPid with
  | none =>
      have hno : ¬ HayHilo k p tid := findTcbFromTid_none_iff.mp hfind
      by_cases hjoins : k.listTcbJoins = []
      · have hjoins' : (interruptQuantum k).listTcbJoins = [] := hjoins
        refine iff_of_true ⟨seguirCon p (interruptQuantum k), ?_, ?_, ?_⟩ (Or.inl hjoins)
        · simp [hjoins']
        · exact fun _ => ⟨rfl, rfl, rfl, rfl, rfl, rfl⟩
        · exact hvalid.of_mutexes rfl
      · have hjoins' : (interruptQuantum k).listTcbJoins ≠ [] := hjoins
        refine iff_of_false ?_ ?_
        · simp [hjoins']
        · rintro (h | h)
          · exact hjoins h
          · exact hno h
  | some t =>
      obtain ⟨hpid, htid, hmem⟩ := findTcbFromTid_some hfind
      have hhay : HayHilo k p tid := ⟨t, List.mem_append.mpr hmem, hpid, htid⟩
      refine iff_of_true ⟨_, rfl, fun hno => absurd hhay hno, ?_⟩ (Or.inr hhay)
      exact hvalid.of_mutexes unlockTcbJoinsFrom_mutexes

theorem atiendeLimpio_create
    {x : Nat}
    (hvalid : MutexesValidos k) (hfase : k.fase = .ejecutando p)
    (hpcb : k.currentPcbExecuting = some pid) :
    AtiendeLimpio cfg k p (.mutexCreate name x) := by
  unfold AtiendeLimpio
  rw [paso_respuesta (m := .mutexCreate name x) hfase hpcb trivial]
  have hvalid' : MutexesValidos (interruptQuantum k) := hvalid.of_mutexes rfl
  rcases getMutex_of_valid name hvalid' with ⟨m, _, _, hget⟩ | ⟨hno, hget⟩
  · refine ⟨seguirCon p (interruptQuantum k), ?_, fun hno => absurd hno id, ?_⟩
    · simp [atenderSyscall, mutexCreate, hget]
    · exact hvalid.of_mutexes rfl
  · refine ⟨_, by simp only [atenderSyscall, mutexCreate, hget]; rfl,
      fun hno => absurd hno id, ?_⟩
    apply hvalid'.agregar name pid ?_ rfl
    intro m hm hname
    exact hno ⟨m, hm, hname⟩

theorem atiendeLimpio_lock_iff
    {x : Nat}
    (hvalid : MutexesValidos k) (hfase : k.fase = .ejecutando p)
    (hpcb : k.currentPcbExecuting = some pid) :
    AtiendeLimpio cfg k p (.mutexLock name x) ↔
      ∀ m ∈ k.globalMutexes, m.name = name → m.assignedPid = p.parentPid := by
  unfold AtiendeLimpio
  rw [paso_respuesta (m := .mutexLock name x) hfase hpcb trivial]
  have hvalid' : MutexesValidos (interruptQuantum k) := hvalid.of_mutexes rfl
  constructor
  · rintro ⟨k', hstep, _, hvalido⟩ m hm hname
    by_contra hother
    -- The lock frees the mutex, which stays in the table.
    rcases getMutex_of_valid name hvalid' with ⟨m', hm', hname', hget⟩ | ⟨hno, _⟩
    · have heq : m' = m :=
        List.inj_on_of_nodup_map hvalid.nombres hm' hm (hname'.trans hname.symm)
      rw [heq] at hget
      have hlock : mutexLock cfg name p (interruptQuantum k) =
          some (modificarMutex (interruptQuantum k) name (fun m => { m with liberado := true }),
            false) := by
        simp [mutexLock, hget, hother]
      simp only [atenderSyscall, hlock, Option.bind_eq_bind, Option.bind_some,
        Option.some.injEq] at hstep
      have hfind := (getMutex_some hget).1
      obtain ⟨a, b, _, hsplit⟩ :=
        modifyFirst_split (f := fun m : Mutex => { m with liberado := true }) hfind
      have hmutexes : k'.globalMutexes = a ++ { m with liberado := true } :: b := by
        rw [← hsplit, ← hstep]
        rfl
      have hfreed : ({ m with liberado := true } : Mutex) ∈ k'.globalMutexes := by
        rw [hmutexes]
        exact List.mem_append_right a List.mem_cons_self
      have huso := hvalido.enUso _ hfreed
      cases huso
    · exact hno ⟨m, hm, hname⟩
  · intro hown
    obtain ⟨k₁, reservado, hlock⟩ : ∃ k₁ reservado,
        mutexLock cfg name p (interruptQuantum k) = some (k₁, reservado) := by
      rcases getMutex_of_valid name hvalid' with ⟨m, _, _, hget⟩ | ⟨_, hget⟩
      · simp only [mutexLock, hget, Option.bind_eq_bind, Option.bind_some]
        split_ifs
        · exact ⟨_, _, rfl⟩
        · exact ⟨_, _, rfl⟩
        · exact ⟨_, _, rfl⟩
      · simp only [mutexLock, hget, Option.bind_eq_bind, Option.bind_some]
        split_ifs
        · exact ⟨_, _, rfl⟩
        · exact ⟨_, _, rfl⟩
    refine ⟨if reservado then seguirCon p k₁ else soltar p k₁, ?_,
      fun hno => absurd hno id, ?_⟩
    · simp only [atenderSyscall, hlock, Option.bind_eq_bind, Option.bind_some]
    · apply (hvalid'.mutexLock hown hlock).of_mutexes
      split_ifs <;> rfl

theorem atiendeLimpio_unlock_iff
    {x : Nat}
    (hvalid : MutexesValidos k) (hfase : k.fase = .ejecutando p)
    (hpcb : k.currentPcbExecuting = some pid) :
    AtiendeLimpio cfg k p (.mutexUnlock name x) ↔ HayMutex k name := by
  unfold AtiendeLimpio
  rw [paso_respuesta (m := .mutexUnlock name x) hfase hpcb trivial]
  have hvalid' : MutexesValidos (interruptQuantum k) := hvalid.of_mutexes rfl
  constructor
  · rintro ⟨k', hstep, _, _⟩
    obtain ⟨k₁, hunlock, _⟩ := Option.bind_eq_some_iff.mp hstep
    obtain ⟨m, hget, _⟩ := mutexUnlock_cases hunlock
    obtain ⟨hfind, hname, _⟩ := getMutex_some hget
    exact ⟨m, List.mem_of_find?_eq_some hfind, hname⟩
  · intro hhay
    obtain ⟨k₁, hunlock⟩ : ∃ k₁, mutexUnlock name p (interruptQuantum k) = some k₁ := by
      rcases getMutex_of_valid name hvalid' with ⟨m, _, _, hget⟩ | ⟨hno, _⟩
      · simp only [mutexUnlock, hget, Option.bind_eq_bind, Option.bind_some]
        split_ifs
        · exact ⟨_, rfl⟩
        · cases m.blockedTcbs with
          | nil =>
              exact ⟨_, rfl⟩
          | cons proximo resto =>
              exact ⟨_, rfl⟩
      · exact absurd hhay hno
    refine ⟨seguirCon p k₁, ?_, fun hno => absurd hhay hno, ?_⟩
    · simp only [atenderSyscall, hunlock, Option.bind_eq_bind, Option.bind_some]
    · exact (hvalid'.mutexUnlock hunlock).of_mutexes rfl

/-- A handler deals cleanly with its target exactly when the condition is met. -/
theorem atiendeLimpio_iff
    {m : Mensaje Nat}
    (hvalid : MutexesValidos k) (hfase : k.fase = .ejecutando p) (hm : ConObjetivo m) :
    AtiendeLimpio cfg k p m ↔ Conoce k p m := by
  cases hpcb : k.currentPcbExecuting with
  | none =>
      have hbad : ¬ AtiendeLimpio cfg k p m := by
        rintro ⟨k', hstep, _⟩
        obtain ⟨pid, hpid⟩ := pcb_of_paso hm hstep
        rw [hpcb] at hpid
        cases hpid
      refine iff_of_false hbad ?_
      cases m <;> first | exact absurd hm id | simp [Conoce, hpcb]
  | some pid =>
      cases m with
      | threadJoin tid =>
          exact iff_of_true (atiendeLimpio_join hvalid hfase hpcb) (by simp [Conoce, hpcb])
      | threadCancel tid =>
          rw [atiendeLimpio_cancel_iff hvalid hfase hpcb]
          simp [Conoce, hpcb]
      | mutexCreate name x =>
          exact iff_of_true (atiendeLimpio_create hvalid hfase hpcb) (by simp [Conoce, hpcb])
      | mutexLock name x =>
          rw [atiendeLimpio_lock_iff hvalid hfase hpcb]
          simp [Conoce, hpcb]
      | mutexUnlock name x =>
          rw [atiendeLimpio_unlock_iff hvalid hfase hpcb]
          simp [Conoce, hpcb]
      | _ => exact absurd hm id

end Handlers

/-- In every state reached by steps that know their targets the mutexes are in use under
different names, and the next syscall with a target is dealt with cleanly exactly when it
knows its target too. -/
theorem targets_are_handled_cleanly_iff
    {cfg : Config μ} {es : List Evento} {k : Globals μ}
    (hrun : Alcanza cfg ObjetivoConocido es k) :
    MutexesValidos k ∧
      ∀ p m, k.fase = .ejecutando p → ConObjetivo m →
        (AtiendeLimpio cfg k p m ↔ Conoce k p m) := by
  have hvalid : MutexesValidos k := by
    obtain ⟨memoria, path, size, hrun⟩ := hrun
    have hstart : MutexesValidos (arranque cfg memoria path size) := by
      have hsame : (arranque cfg memoria path size).globalMutexes = [] := by
        simp only [arranque, processCreate, tryCreateNewProcessLoop]
        rw [tryCreateRounds_admite]
        rfl
      exact ⟨by simp [hsame], by simp [hsame]⟩
    refine (hrun.invariant (I := fun a => Coherente a ∧ MutexesValidos a)
      ⟨(solida_arranque cfg memoria path size).1, hstart⟩ ?_).2
    rintro a b e ⟨hcoh, hvalid⟩ hok hstep
    exact ⟨(paso_mueve hcoh hstep).2, hvalid.kernel hcoh.viejos hok hstep⟩
  refine ⟨hvalid, ?_⟩
  intro p m hfase hm
  exact atiendeLimpio_iff hvalid hfase hm

/-- The thread creates a mutex, locks it and cancels a thread that does not exist. -/
theorem targets_are_handled_cleanly_unHilo :
    ∃ es k p, Alcanza (siempreOk .fifo) ObjetivoConocido es k ∧
      k.fase = .ejecutando p ∧ AtiendeLimpio (siempreOk .fifo) k p (.threadCancel 7) ∧
      ¬ AtiendeLimpio (siempreOk .fifo) k p (.mutexUnlock ['y'] 0) := by
  have hrun : Alcanza (siempreOk .fifo) ObjetivoConocido
      [.despachar, .respuesta (.mutexCreate ['x'] 0), .despachar,
        .respuesta (.mutexLock ['x'] 0), .despachar] _ :=
    alcanza_of_isSome () ['a'] 16 (by decide) (by decide)
  have hclean := (targets_are_handled_cleanly_iff hrun).2 _ (.threadCancel 7) rfl trivial
  have hbad := (targets_are_handled_cleanly_iff hrun).2 _ (.mutexUnlock ['y'] 0) rfl trivial
  refine ⟨_, _, _, hrun, rfl, hclean.mpr (by decide), ?_⟩
  rw [hbad]
  decide

/-- A MUTEX_UNLOCK of a name nobody created follows a null pointer. -/
theorem mutex_unlock_desconocido :
    ¬ ∀ (cfg : Config Unit) (es : List Evento) (k : Globals Unit) (p : Tcb) (m : Mensaje Nat),
      Alcanza cfg anyLabel es k → k.fase = .ejecutando p → ConObjetivo m →
        AtiendeLimpio cfg k p m := by
  intro h
  have hrun : Alcanza (siempreOk .fifo) anyLabel [.despachar] _ :=
    alcanza_of_isSome () ['a'] 16 (by decide) (by decide)
  obtain ⟨k', hstep, _⟩ := h _ _ _ _ (.mutexUnlock ['x'] 0) hrun rfl trivial
  have hnone : paso (siempreOk .fifo)
      ((execute (paso (siempreOk .fifo)) (arranque (siempreOk .fifo) () ['a'] 16)
        [.despachar]).get (by decide)) (.respuesta (.mutexUnlock ['x'] 0)) = none := by
    rfl
  rw [hnone] at hstep
  cases hstep

end Kernel
end SinIdeas
