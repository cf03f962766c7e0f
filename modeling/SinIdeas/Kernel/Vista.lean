import SinIdeas.Lib.ThreadPool
import SinIdeas.Kernel.Dispatch

/-!
# The kernel as a pool of threads

What the lists of TCBs, the semaphore, the joins, the wait queues of the mutexes,
the IO queue and the dumps say about the threads, as a pool of `Lib.Pool`. Each
operation of the kernel is a sequence of moves of the pool, and `Permite` says
which moves an event may make; the properties of runs follow from the rules of
the pool.
-/

namespace SinIdeas
namespace Kernel

open Lib

variable {μ : Type}

/-- A thread: its TCB object with the identifiers that the lookups use. -/
structure Hilo where
  dir : Nat
  pid : Nat
  tid : Nat
  deriving DecidableEq

/-- PID and TID. -/
def Hilo.ident (h : Hilo) : Nat × Nat := (h.pid, h.tid)

/-- Why a blocked thread waits. -/
inductive Motivo where
  | join (pid tid : Nat)
  | mutex (name : List Char)
  | io
  | dump
  deriving DecidableEq

def Tcb.hilo (t : Tcb) : Hilo where
  dir := t.dir
  pid := t.parentPid
  tid := t.tid

def Tcb.ident (t : Tcb) : Nat × Nat := (t.parentPid, t.tid)

/-- The thread that runs, or is about to keep running. -/
def Fase.corriendo : Fase → Option Hilo
  | .planificar true previo => previo.map Tcb.hilo
  | .ejecutando proximo => some proximo.hilo
  | _ => none

/-- A wait for a join. -/
def TcbJoin.espera (j : TcbJoin) : (Nat × Nat) × Motivo :=
  (j.blockedTcb.ident, .join j.blockingTcb.parentPid j.blockingTcb.tid)

/-- The waits in the queue of a mutex. -/
def Mutex.esperas (m : Mutex) : List ((Nat × Nat) × Motivo) :=
  m.blockedTcbs.map (fun t => (t.ident, .mutex m.name))

/-- A wait for the IO device. -/
def IoRequest.espera (r : IoRequest) : (Nat × Nat) × Motivo := ((r.pid, r.tid), .io)

/-- A wait for a dump, as long as memoria has not answered. -/
def Dump.espera? (d : Dump) : Option ((Nat × Nat) × Motivo) :=
  if d.fase = .enVuelo then some (d.tcb.ident, .dump) else none

/-- Every reason for which a thread is blocked. -/
def motivos (k : Globals μ) : Multiset ((Nat × Nat) × Motivo) :=
  (k.listTcbJoins.map TcbJoin.espera ++ (k.globalMutexes.flatMap Mutex.esperas ++
    (k.ioRequestQueue.map IoRequest.espera ++ k.dumps.filterMap Dump.espera?)) :
      List ((Nat × Nat) × Motivo))

/-- The pool of threads of the kernel. -/
def vista (k : Globals μ) : Pool Hilo (Nat × Nat) Motivo where
  fresh := k.listNewTcb.map Tcb.hilo
  running := k.fase.corriendo
  ready := k.listReadyTcb.map Tcb.hilo
  blocked := k.listBlockedTcb.map Tcb.hilo
  waits := motivos k
  permits := k.semThreadCount
  issued := {h | h.dir < k.nextDir}

@[simp] theorem Tcb.hilo_ident (t : Tcb) : t.hilo.ident = t.ident := rfl

@[simp] theorem Tcb.hilo_with_state (t : Tcb) (s : State) :
    Tcb.hilo { t with state := s } = t.hilo := rfl

theorem Tcb.ident_eq {t : Tcb} {pid tid : Nat} :
    t.ident = (pid, tid) ↔ t.parentPid = pid ∧ t.tid = tid := by
  simp [Tcb.ident]

/-- The moves of threads that one operation of the kernel makes. -/
abbrev Mueve
    (ok : Pool Hilo (Nat × Nat) Motivo → PoolLabel Hilo (Nat × Nat) Motivo → Prop)
    (k k' : Globals μ) : Prop :=
  Pool.Reaches Hilo.ident ok (vista k) (vista k')

section Moves

variable {ok : Pool Hilo (Nat × Nat) Motivo → PoolLabel Hilo (Nat × Nat) Motivo → Prop}
  {k k' : Globals μ}

/-- Taking the first TCB with the identifiers from BLOCKED to READY, with a
`sem_post`, for a reason that is taken away. -/
theorem mueve_despertar
    {pid tid : Nat} {r : Motivo}
    (hwake : ∀ {a t}, t.ident = (pid, tid) → ok a (.wake t r))
    (hpost : ∀ {a}, ok a (.post (pid, tid) r))
    (hmotivos : motivos k = ((pid, tid), r) ::ₘ motivos k')
    (hlistas : (k'.listBlockedTcb, k'.listReadyTcb) =
      moveTcbBetweenLists k.listBlockedTcb k.listReadyTcb pid tid .ready)
    (hresto : k'.listNewTcb = k.listNewTcb ∧ k'.fase = k.fase ∧ k'.nextDir = k.nextDir ∧
      k'.semThreadCount = k.semThreadCount + 1) :
    Mueve ok k k' := by
  obtain ⟨hnew, hfase, hdir, hsem⟩ := hresto
  rcases moveTcbBetweenLists_cases k.listBlockedTcb k.listReadyTcb pid tid .ready with
    ⟨l, t, m, hsplit, hpid, htid, _, _, hmove⟩ | ⟨hnone, hmove⟩
  · rw [hmove, Prod.mk.injEq] at hlistas
    have hident : t.hilo.ident = (pid, tid) := Tcb.ident_eq.mpr ⟨hpid, htid⟩
    have hstep : Pool.Move Hilo.ident (vista k) (.wake t.hilo r)
        { vista k with
          blocked := l.map Tcb.hilo ++ m.map Tcb.hilo
          ready := (vista k).ready ++ [t.hilo]
          waits := motivos k'
          permits := (vista k).permits + 1 } := by
      refine Pool.Move.wake ?_ ?_
      · simp [vista, hsplit]
      · rw [hident]
        exact hmotivos
    have heq : vista k' = { vista k with
        blocked := l.map Tcb.hilo ++ m.map Tcb.hilo
        ready := (vista k).ready ++ [t.hilo]
        waits := motivos k'
        permits := (vista k).permits + 1 } := by
      simp [vista, hlistas, hnew, hfase, hdir, hsem]
    rw [← heq] at hstep
    exact Pool.Reaches.single (hwake hident) hstep
  · rw [hmove, Prod.mk.injEq] at hlistas
    have hstep : Pool.Move Hilo.ident (vista k) (.post (pid, tid) r)
        { vista k with waits := motivos k', permits := (vista k).permits + 1 } := by
      refine Pool.Move.post ?_ hmotivos
      intro t ht heq
      obtain ⟨u, hu, rfl⟩ := List.mem_map.mp ht
      exact hnone u hu (Tcb.ident_eq.mp heq)
    have heq : vista k' =
        { vista k with waits := motivos k', permits := (vista k).permits + 1 } := by
      simp [vista, hlistas, hnew, hfase, hdir, hsem]
    rw [← heq] at hstep
    exact Pool.Reaches.single hpost hstep

/-- The reasons lose `x` when one of the four lists that make them up does. -/
theorem motivos_eq_cons
    {x : (Nat × Nat) × Motivo}
    (h : (k.listTcbJoins.map TcbJoin.espera ++ (k.globalMutexes.flatMap Mutex.esperas ++
        (k.ioRequestQueue.map IoRequest.espera ++ k.dumps.filterMap Dump.espera?))).Perm
      (x :: (k'.listTcbJoins.map TcbJoin.espera ++ (k'.globalMutexes.flatMap Mutex.esperas ++
        (k'.ioRequestQueue.map IoRequest.espera ++ k'.dumps.filterMap Dump.espera?))))) :
    motivos k = x ::ₘ motivos k' :=
  Multiset.coe_eq_coe.mpr h

theorem motivos_of_esperas
    {x : (Nat × Nat) × Motivo}
    (h : (k.globalMutexes.flatMap Mutex.esperas).Perm
      (x :: k'.globalMutexes.flatMap Mutex.esperas))
    (hresto : k'.listTcbJoins = k.listTcbJoins ∧ k'.ioRequestQueue = k.ioRequestQueue ∧
      k'.dumps = k.dumps) :
    motivos k = x ::ₘ motivos k' := by
  obtain ⟨hjoins, hio, hdumps⟩ := hresto
  refine motivos_eq_cons ?_
  rw [hjoins, hio, hdumps]
  exact ((h.append_right _).append_left _).trans List.perm_middle

/-- The reasons when the queue of a mutex gets shorter. -/
theorem motivos_modificarMutex
    {name : List Char} {m : Mutex} {f : Mutex → Mutex} {x : (Nat × Nat) × Motivo}
    (hfind : k.globalMutexes.find? (fun m => m.name == name) = some m)
    (hf : m.esperas.Perm (x :: (f m).esperas))
    (hmutexes : k'.globalMutexes = modifyFirst (fun m => m.name == name) f k.globalMutexes)
    (hresto : k'.listTcbJoins = k.listTcbJoins ∧ k'.ioRequestQueue = k.ioRequestQueue ∧
      k'.dumps = k.dumps) :
    motivos k = x ::ₘ motivos k' := by
  obtain ⟨rest, hold, hnew⟩ := flatMap_modifyFirst (f := f) (g := Mutex.esperas) hfind
  refine motivos_of_esperas ?_ hresto
  rw [hmutexes]
  exact hold.trans ((hf.append_right rest).trans (hnew.symm.cons x))

/-- The reasons when the queue of a mutex gets longer. -/
theorem motivos_encolar
    {name : List Char} {m : Mutex} {t : Tcb}
    (hfind : k.globalMutexes.find? (fun m => m.name == name) = some m)
    (hname : m.name = name)
    (hmutexes : k'.globalMutexes =
      modifyFirst (fun m => m.name == name) (Mutex.encolar t) k.globalMutexes)
    (hresto : k.listTcbJoins = k'.listTcbJoins ∧ k.ioRequestQueue = k'.ioRequestQueue ∧
      k.dumps = k'.dumps) :
    motivos k' = (t.ident, .mutex name) ::ₘ motivos k := by
  obtain ⟨rest, hold, hnew⟩ :=
    flatMap_modifyFirst (f := Mutex.encolar t) (g := Mutex.esperas) hfind
  have hqueue : (Mutex.encolar t m).esperas.Perm
      ((t.ident, Motivo.mutex name) :: m.esperas) := by
    rw [Mutex.esperas, Mutex.esperas, Mutex.encolar, List.map_append, hname]
    exact List.perm_append_comm
  refine motivos_of_esperas ?_ hresto
  rw [hmutexes]
  exact hnew.trans ((hqueue.append_right rest).trans (hold.symm.cons _))

/-- The reasons stay when the queues of the mutexes do. -/
theorem motivos_modificarMutex_eq
    {name : List Char} {f : Mutex → Mutex}
    (hf : ∀ m, (f m).esperas = m.esperas) :
    motivos (modificarMutex k name f) = motivos k := by
  have hflat : ∀ l : List Mutex,
      (modifyFirst (fun m => m.name == name) f l).flatMap Mutex.esperas =
        l.flatMap Mutex.esperas := by
    intro l
    have hmap := map_modifyFirst (p := fun m => m.name == name) (f := f) (l := l)
      (fun m _ => hf m)
    rw [List.flatMap_def, List.flatMap_def, hmap]
  simp only [motivos, modificarMutex, hflat]

theorem vista_modificarMutex
    {name : List Char} {f : Mutex → Mutex}
    (hf : ∀ m, (f m).esperas = m.esperas) :
    vista (modificarMutex k name f) = vista k := by
  have hmotivos : motivos (modificarMutex k name f) = motivos k := motivos_modificarMutex_eq hf
  unfold vista
  rw [hmotivos]
  rfl

section Operations

variable {pid tid : Nat}

/-- The loop of `unlock_tcb_joins` wakes threads that joined `(pid, tid)`. -/
theorem mueve_unlockTcbJoinsFrom
    {visitados js : List TcbJoin}
    (hwake : ∀ {a t}, ok a (.wake t (.join pid tid)))
    (hpost : ∀ {a i}, ok a (.post i (.join pid tid)))
    (hk : k.listTcbJoins = visitados ++ js) :
    Mueve ok k (unlockTcbJoinsFrom pid tid visitados js k) := by
  induction js generalizing visitados k with
  | nil =>
      exact Pool.Reaches.refl
  | cons j js ih =>
      unfold unlockTcbJoinsFrom
      split_ifs with hmatch
      · refine Pool.Reaches.trans ?_ (ih rfl)
        refine mueve_despertar (fun _ => hwake) hpost ?_ rfl ⟨rfl, rfl, rfl, rfl⟩
        refine motivos_eq_cons ?_
        rw [hk]
        simp only [postThreadCount, desbloquear, List.map_append, List.map_cons,
          List.append_assoc, List.cons_append]
        have hj : j.espera =
            ((j.blockedTcb.parentPid, j.blockedTcb.tid), Motivo.join pid tid) := by
          rw [TcbJoin.espera, hmatch.1, hmatch.2]
          rfl
        rw [hj]
        exact List.perm_middle
      · refine ih ?_
        rw [hk, List.append_assoc]
        rfl

theorem mueve_unlockTcbJoins
    (hwake : ∀ {a t}, ok a (.wake t (.join pid tid)))
    (hpost : ∀ {a i}, ok a (.post i (.join pid tid))) :
    Mueve ok k (unlockTcbJoins pid tid k) :=
  mueve_unlockTcbJoinsFrom hwake hpost rfl

/-- `mutex_unlock` wakes at most the head of the wait queue. -/
theorem mueve_mutexUnlock
    {name : List Char} {tcb : Tcb}
    (hwake : ∀ {a t}, ok a (.wake t (.mutex name)))
    (hpost : ∀ {a i}, ok a (.post i (.mutex name)))
    (h : mutexUnlock name tcb k = some k') :
    Mueve ok k k' := by
  obtain ⟨m, hget, hcases⟩ := mutexUnlock_cases h
  obtain ⟨hfind, hname, _⟩ := getMutex_some hget
  rcases hcases with ⟨_, rfl⟩ | ⟨_, _, ⟨proximo, resto, hqueue, rfl⟩ | ⟨_, rfl⟩⟩
  · exact Pool.Reaches.refl
  · refine mueve_despertar (fun _ => hwake) hpost ?_ rfl ⟨rfl, rfl, rfl, rfl⟩
    refine motivos_modificarMutex (f := Mutex.ceder proximo.tid) hfind ?_ rfl ⟨rfl, rfl, rfl⟩
    simp [Mutex.esperas, Mutex.ceder, hqueue, hname, Tcb.ident]
  · exact Pool.Reaches.of_eq (vista_modificarMutex (fun _ => rfl))

theorem mueve_releaseAllMutexes
    {tcb : Tcb}
    (hwake : ∀ {a t name}, ok a (.wake t (.mutex name)))
    (hpost : ∀ {a i name}, ok a (.post i (.mutex name)))
    (h : releaseAllMutexes tcb k = some k') :
    Mueve ok k k' := by
  refine releaseAllMutexes_invariant (I := fun a => Mueve ok k a) h Pool.Reaches.refl ?_
  intro a b m ha _ _ _ _ hunlock
  exact Pool.Reaches.trans ha (mueve_mutexUnlock hwake hpost hunlock)

/-- The running thread blocks. -/
theorem mueve_bloquear
    {proximo tcb : Tcb} {r : Motivo}
    (hblock : ∀ {a}, ok a (.block proximo.hilo r))
    (hrun : k.fase.corriendo = some proximo.hilo)
    (htcb : tcb.hilo = proximo.hilo)
    (hstop : k'.fase.corriendo = none)
    (hmotivos : motivos k' = (proximo.ident, r) ::ₘ motivos k)
    (hlista : k'.listBlockedTcb = k.listBlockedTcb ++ [tcb])
    (hresto : k'.listNewTcb = k.listNewTcb ∧ k'.listReadyTcb = k.listReadyTcb ∧
      k'.nextDir = k.nextDir ∧ k'.semThreadCount = k.semThreadCount) :
    Mueve ok k k' := by
  obtain ⟨hnew, hready, hdir, hsem⟩ := hresto
  have hstep : Pool.Move Hilo.ident (vista k) (.block proximo.hilo r) _ :=
    Pool.Move.block hrun
  have heq : vista k' = { vista k with
      running := none
      blocked := (vista k).blocked ++ [proximo.hilo]
      waits := (proximo.hilo.ident, r) ::ₘ (vista k).waits } := by
    simp [vista, hlista, hnew, hready, hdir, hsem, hstop, hmotivos, htcb]
  rw [← heq] at hstep
  exact Pool.Reaches.single hblock hstep

/-- The running thread leaves the scheduling. -/
theorem mueve_retirar
    (proximo : Tcb)
    (hdrop : ∀ {a}, ok a (.drop proximo.hilo))
    (hrun : k.fase.corriendo = some proximo.hilo)
    (heq : vista k' = { vista k with running := none }) :
    Mueve ok k k' := by
  have hstep : Pool.Move Hilo.ident (vista k) (.drop proximo.hilo) _ := Pool.Move.drop hrun
  rw [← heq] at hstep
  exact Pool.Reaches.single hdrop hstep

/-- When memoria has the thread, `create_thread` admits the first one in NEW with its
identifiers. -/
theorem move_enter_createThread
    {cfg : Config μ} {path : List Char} {priority : Nat}
    (hmem : (cfg.createThreadMemory k.memoria (nuevoTcb k pid path priority)).2 = true) :
    ∃ t, t.ident = (pid, (k.pcbs pid).tidCount) ∧
      Pool.Move Hilo.ident (vista (registrarTcb k (nuevoTcb k pid path priority))) (.enter t)
        (vista (createThread cfg k pid path priority).1) := by
  rcases createThread_cases cfg k pid path priority with
    ⟨l, t, m, hsplit, hpid, htid, _, heq⟩ | ⟨hno, _⟩
  · refine ⟨t.hilo, Tcb.ident_eq.mpr ⟨hpid, htid⟩, ?_⟩
    have hstep : Pool.Move Hilo.ident (vista (registrarTcb k (nuevoTcb k pid path priority)))
        (.enter t.hilo) _ :=
      Pool.Move.enter (l := l.map Tcb.hilo) (m := m.map Tcb.hilo) (by
        rw [← List.map_cons, ← List.map_append, ← hsplit]
        rfl)
    convert hstep using 1
    rw [heq]
    simp [vista, motivos, registrarTcb, modificarPcb]
  · rw [hmem] at hno
    cases hno

/-- `create_thread` creates a thread and admits one, or keeps the new one in NEW. -/
theorem mueve_createThread
    {cfg : Config μ} {path : List Char} {priority : Nat}
    (hcreate : ∀ {a t}, t.pid = pid → ok a (.create t))
    (henter : ∀ {a t}, t.ident = (pid, (k.pcbs pid).tidCount) →
      a.threads = (vista k).threads → ok a (.enter t)) :
    Mueve ok k (createThread cfg k pid path priority).1 := by
  set tcb := nuevoTcb k pid path priority with htcb
  have hregister : Pool.Move Hilo.ident (vista k) (.create tcb.hilo)
      (vista (registrarTcb k tcb)) := by
    have heq : vista (registrarTcb k tcb) = { vista k with
        fresh := (vista k).fresh ++ [tcb.hilo]
        issued := {h | h.dir < k.nextDir + 1} } := by
      simp [vista, registrarTcb, modificarPcb, addTcbToList, motivos]
    rw [heq]
    refine Pool.Move.create ?_ ?_ ?_
    · simp [vista, htcb, nuevoTcb, Tcb.hilo]
    · intro h hh
      exact Nat.lt_succ_of_lt hh
    · simp [htcb, nuevoTcb, Tcb.hilo]
  have hfirst := Pool.Reaches.single (hcreate (a := vista k) rfl) hregister
  refine hfirst.trans ?_
  cases hmem : (cfg.createThreadMemory k.memoria tcb).2 with
  | true =>
      obtain ⟨t, hident, hadmitted⟩ := move_enter_createThread hmem
      exact Pool.Reaches.single (henter hident rfl) hadmitted
  | false =>
      rcases createThread_cases cfg k pid path priority with
        ⟨_, _, _, _, _, _, hyes, _⟩ | ⟨_, heq⟩
      · rw [← htcb, hmem] at hyes
        cases hyes
      · rw [heq]
        exact Pool.Reaches.refl

/-- The removal of a TCB from READY by identifiers loses the thread it finds. -/
theorem mueve_quitarGemelo
    {pid tid : Nat}
    (hlose : findTcbInList k.listReadyTcb pid tid ≠ none → ∀ {a t}, ok a (.lose t))
    (heq : vista k' = { vista k with
      ready := (k.listReadyTcb.eraseP (Tcb.es pid tid)).map Tcb.hilo }) :
    Mueve ok k k' := by
  rcases removeTcbFromList_cases k.listReadyTcb pid tid with
    ⟨l, t, m, hsplit, hpid, htid, _, hremove⟩ | ⟨_, hremove⟩
  · have hfind : findTcbInList k.listReadyTcb pid tid = some t := congrArg Prod.fst hremove
    have herase : k.listReadyTcb.eraseP (Tcb.es pid tid) = l ++ m := congrArg Prod.snd hremove
    have hstep : Pool.Move Hilo.ident (vista k) (.lose t.hilo) _ :=
      Pool.Move.lose (l := l.map Tcb.hilo) (m := m.map Tcb.hilo) (by simp [vista, hsplit])
    rw [herase, List.map_append] at heq
    rw [← heq] at hstep
    exact Pool.Reaches.single (hlose (by simp [hfind])) hstep
  · have herase : k.listReadyTcb.eraseP (Tcb.es pid tid) = k.listReadyTcb :=
      congrArg Prod.snd hremove
    rw [herase] at heq
    exact Pool.Reaches.of_eq heq

end Operations

end Moves

end Kernel
end SinIdeas
