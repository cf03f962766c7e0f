import SinIdeas.Kernel.Simulation

/-!
# Where a thread is

A thread that was made ready and has not ended is running, in READY or in BLOCKED,
and only once. Two branches of the source lose one: MUTEX_LOCK on a mutex of
another process, after which the running thread is put nowhere, and
`dispatch_thread`, which removes from READY whatever has the identifiers of the
thread that it dispatches.
-/

namespace SinIdeas
namespace Kernel

open Lib

variable {μ : Type}

/-- The message of the running thread `p` ends the thread `d`. -/
def TerminaMensaje (k : Globals μ) (p : Tcb) (d : Hilo) : Mensaje Nat → Prop
  | .threadExit _ => p.hilo = d
  | .threadCancel tid => p.parentPid = d.pid ∧ tid = d.tid
  | .mutexLock name _ => p.hilo = d ∧ getMutex k name = some none
  | .processExit _ => p.parentPid = d.pid
  | .segmentationFault _ _ => p.parentPid = d.pid
  | _ => False

/-- The event ends the thread `d`, by itself or with its process. -/
def Termina (k : Globals μ) (d : Hilo) : Evento → Prop
  | .respuesta m => ∃ p ∈ k.fase.ejecutando?, TerminaMensaje k p d m
  | .dumpRespuesta j r => r = .error ∧ ∃ x ∈ k.dumps[j]?, x.tcb.parentPid = d.pid
  | _ => False

/-- The mutex of another process that the event locks. -/
def mutexAjeno (k : Globals μ) : Evento → Option Mutex
  | .respuesta (.mutexLock name _) => do
      let p ← k.fase.ejecutando?
      let m ← (← getMutex k name)
      if m.assignedPid = p.parentPid then none else some m
  | _ => none

/-- The event locks no mutex of another process, and dispatches no thread that has
another TCB with its identifiers in READY. -/
def SinPerdidas (cfg : Config μ) (k : Globals μ) (e : Evento) : Prop :=
  mutexAjeno k e = none ∧ (e = .despachar → gemeloEnReady cfg k = none)

/-- The places of threads, one after another. -/
def lugares (k : Globals μ) : List Hilo :=
  k.fase.corriendo.toList ++
    (k.listReadyTcb.map Tcb.hilo ++ k.listBlockedTcb.map Tcb.hilo)

section Instances

instance (k : Globals μ) (p : Tcb) (d : Hilo) : ∀ m, Decidable (TerminaMensaje k p d m)
  | .threadExit _ => inferInstanceAs (Decidable (p.hilo = d))
  | .threadCancel tid => inferInstanceAs (Decidable (p.parentPid = d.pid ∧ tid = d.tid))
  | .mutexLock name _ => inferInstanceAs (Decidable (p.hilo = d ∧ getMutex k name = some none))
  | .processExit _ => inferInstanceAs (Decidable (p.parentPid = d.pid))
  | .segmentationFault _ _ => inferInstanceAs (Decidable (p.parentPid = d.pid))
  | .dumpMemory _ _ => inferInstanceAs (Decidable False)
  | .io _ => inferInstanceAs (Decidable False)
  | .processCreate _ _ _ => inferInstanceAs (Decidable False)
  | .threadCreate _ _ => inferInstanceAs (Decidable False)
  | .threadJoin _ => inferInstanceAs (Decidable False)
  | .mutexCreate _ _ => inferInstanceAs (Decidable False)
  | .mutexUnlock _ _ => inferInstanceAs (Decidable False)
  | .kernelInterruption _ _ => inferInstanceAs (Decidable False)

instance (k : Globals μ) (d : Hilo) : ∀ e, Decidable (Termina k d e)
  | .respuesta m => inferInstanceAs (Decidable (∃ p ∈ k.fase.ejecutando?, TerminaMensaje k p d m))
  | .dumpRespuesta j r =>
      inferInstanceAs (Decidable (r = .error ∧ ∃ x ∈ k.dumps[j]?, x.tcb.parentPid = d.pid))
  | .despachar => inferInstanceAs (Decidable False)
  | .seguirFin => inferInstanceAs (Decidable False)
  | .ioFin => inferInstanceAs (Decidable False)
  | .dumpSeguir _ => inferInstanceAs (Decidable False)

instance (cfg : Config μ) (k : Globals μ) (e : Evento) : Decidable (SinPerdidas cfg k e) :=
  inferInstanceAs (Decidable (_ ∧ _))

end Instances

section Steps

variable {cfg : Config μ} {k k' : Globals μ} {e : Evento} {d : Hilo}

/-- A thread that the event does not end is not dropped by a guarded step. -/
theorem not_permite_drop
    {a : Pool Hilo (Nat × Nat) Motivo}
    (hok : SinPerdidas cfg k e)
    (hvive : ¬ Termina k d e) :
    ¬ Permite cfg k e a (.drop d) := by
  rintro ⟨p, m, hfase, hp, rfl, hretira⟩
  have hmem : p ∈ k.fase.ejecutando? := by
    rw [hfase]
    rfl
  refine hvive ⟨p, hmem, ?_⟩
  cases m with
  | threadExit x => exact hp
  | processExit x => exact congrArg Hilo.pid hp
  | segmentationFault x y => exact congrArg Hilo.pid hp
  | mutexLock name x =>
      refine ⟨hp, ?_⟩
      rcases hretira with hnone | ⟨m, hget, hpid⟩
      · exact hnone
      · -- a mutex of another process: the guard says that it is not locked
        have hajeno := hok.1
        simp [mutexAjeno, hfase, Fase.ejecutando?, hget, hpid] at hajeno
  | _ => exact hretira.elim

theorem mem_threads_paso
    (hc : Coherente k)
    (hok : SinPerdidas cfg k e)
    (hvive : ¬ Termina k d e)
    (hd : d ∈ (vista k).threads)
    (h : paso cfg k e = some k') :
    d ∈ (vista k').threads := by
  refine (paso_mueve hc h).1.invariant (I := fun a => d ∈ a.threads) hd ?_
  intro a b l ha hpermite hmove
  refine hmove.mem_threads ha ?_ ?_
  · rintro rfl
    exact not_permite_drop hok hvive hpermite
  · rintro rfl
    exact hpermite.2 (hok.2 hpermite.1)

end Steps

/-- No thread is lost or duplicated: from the time when it is in READY until it ends,
a thread is in one of the places, once. -/
theorem thread_in_one_place
    {cfg : Config μ} {es fs : List Evento} {a c : Globals μ} {d : Hilo}
    (ha : Alcanza cfg (SinPerdidas cfg) es a)
    (hd : d ∈ a.listReadyTcb.map Tcb.hilo)
    (hrun : Run (fun a e b => paso cfg a e = some b)
      (fun k e => SinPerdidas cfg k e ∧ ¬ Termina k d e) a fs c) :
    (lugares c).count d = 1 := by
  have hsolida := ha.solida
  have hinv := hrun.invariant
    (I := fun k => (Coherente k ∧ Pool.Sound Hilo.ident (vista k)) ∧ d ∈ (vista k).threads)
    ⟨hsolida, Pool.mem_threads_of_ready hd⟩ ?_
  · have hnodup : (vista c).threads.Nodup := (List.nodup_append.mp hinv.1.2.nodup).1
    exact List.count_eq_one_of_mem hnodup hinv.2
  rintro x y e ⟨⟨hc, hs⟩, hmem⟩ ⟨hok, hvive⟩ hstep
  exact ⟨solida_paso ⟨hc, hs⟩ hstep, mem_threads_paso hc hok hvive hmem hstep⟩

/-- A thread that is created, preempted, and blocked by a join. -/
theorem thread_in_one_place_join :
    ∃ a c, execute (paso (siempreOk .fifo)) (arranque (siempreOk .fifo) () ['a'] 16)
        [.despachar, .respuesta (.threadCreate ['b'] 0)] = some a ∧
      execute (paso (siempreOk .fifo)) a [.despachar, .respuesta (.kernelInterruption 0 0),
        .despachar, .respuesta (.threadJoin 0)] = some c ∧
      (lugares c).count { dir := 1, pid := 0, tid := 1 } = 1 :=
  ⟨_, _, (Option.some_get (by decide)).symm, (Option.some_get (by decide)).symm,
    thread_in_one_place (alcanza_of_isSome () ['a'] 16 (by decide) (by decide)) (by decide)
      (run_of_isSome (paso (siempreOk .fifo)) id (by decide) (by decide))⟩

/-- The thread of the second process locks the mutex of the first one, has not ended,
and is nowhere. -/
theorem thread_lost_at_mutexLock :
    ∃ a c, Alcanza (siempreOk .fifo) anyLabel
        [.despachar, .respuesta (.mutexCreate ['m'] 0), .despachar,
          .respuesta (.processCreate ['b'] 16 0), .despachar,
          .respuesta (.kernelInterruption 0 0)] a ∧
      { dir := 1, pid := 1, tid := 0 } ∈ a.listReadyTcb.map Tcb.hilo ∧
      Run (fun a e b => paso (siempreOk .fifo) a e = some b)
        (fun k e => ¬ Termina k { dir := 1, pid := 1, tid := 0 } e) a
        [.despachar, .respuesta (.mutexLock ['m'] 0)] c ∧
      c.fase.proximo? = none ∧ (lugares c).count { dir := 1, pid := 1, tid := 0 } = 0 :=
  ⟨_, _, alcanza_of_isSome () ['a'] 16 (by decide) (by decide), by decide,
    run_of_isSome (paso (siempreOk .fifo)) id (by decide) (by decide), by decide, by decide⟩

end Kernel
end SinIdeas
