import SinIdeas.Kernel.Simulation

/-!
# The semaphore of READY

`sem_thread_count` against `list_READY_TCB`. The two agree in every run in which
the dispatcher never takes a second TCB out of READY and no process with more
than one thread is ended: the loop that ends a process waits once for every thread
it counts, and takes none of them out of READY.
-/

namespace SinIdeas
namespace Kernel

open Lib

variable {μ : Type}

/-- The `tid_count` that a round of a process that ends is about to read. -/
def tidCountDeRonda (k : Globals μ) : Evento → Option Nat
  | .seguirFin =>
      match k.fase with
      | .finalizando _ _ i => do
          let pid ← k.currentPcbExecuting
          if i < (k.pcbs pid).tidCount then some (k.pcbs pid).tidCount else none
      | _ => none
  | .dumpSeguir j => do
      let d ← k.dumps[j]?
      match d.fase with
      | .finalizando pid i => if i < (k.pcbs pid).tidCount then some (k.pcbs pid).tidCount else none
      | _ => none
  | _ => none

/-- The thread that is dispatched has no other TCB with its identifiers in READY, and
a process that is ended counts at most one thread. -/
def SinGastos (cfg : Config μ) (k : Globals μ) (e : Evento) : Prop :=
  (e = .despachar → gemeloEnReady cfg k = none) ∧ ∀ n ∈ tidCountDeRonda k e, n ≤ 1

instance (cfg : Config μ) (k : Globals μ) (e : Evento) : Decidable (SinGastos cfg k e) :=
  inferInstanceAs (Decidable (_ ∧ _))

/-- The semaphore counts READY, and nobody waits on it but the top of the loop. -/
structure SemaforoCuenta (k : Globals μ) : Prop where
  coherente : Coherente k
  solida : Pool.Sound Hilo.ident (vista k)
  cuenta : Pool.Balanced (vista k)
  sinEspera : ∀ causa p i, k.fase ≠ .esperando causa p i
  dumpsSinEspera : ∀ d ∈ k.dumps, ∀ pid i, d.fase ≠ .esperando pid i

section Steps

variable {cfg : Config μ} {k k' : Globals μ} {e : Evento}

/-- Without waits inside a handler no step spends a permit there. -/
theorem SemaforoCuenta.not_esperaFin
    (hs : SemaforoCuenta k) :
    ¬ EsperaFin k e := by
  rintro (⟨_, causa, p, i, hfase⟩ | ⟨j, d, pid, i, _, hd, hfase⟩)
  · exact hs.sinEspera causa p i hfase
  · exact hs.dumpsSinEspera d (List.mem_of_getElem? hd) pid i hfase

/-- A guarded round does not stop at its `sem_wait`. -/
theorem finalizarHilo_sinEspera
    {pid i : Nat} {avance : Avance}
    (hviejos : k.listaTcbsBlockeados = [])
    (h : finalizarHilo cfg pid i k = some (k', avance))
    (hcount : i < (k.pcbs pid).tidCount → (k.pcbs pid).tidCount ≤ 1) :
    avance ≠ .espera := by
  rintro rfl
  rcases finalizarHilo_cases hviejos h with ⟨hno, _⟩ | ⟨_, hi, _, ⟨_, hmany, _⟩ | ⟨hno, _⟩⟩
  · cases hno
  · exact absurd (hcount hi) (Nat.not_le.mpr hmany)
  · cases hno

theorem SemaforoCuenta.fase_paso
    (hs : SemaforoCuenta k)
    (hok : SinGastos cfg k e)
    (h : paso cfg k e = some k') :
    (∀ causa p i, k'.fase ≠ .esperando causa p i) ∧
      ∀ d ∈ k'.dumps, ∀ pid i, d.fase ≠ .esperando pid i := by
  have hviejos := hs.coherente.viejos
  cases e with
  | despachar =>
      obtain ⟨seguir, previo, proximo, k₁, _, _, rfl, hcases⟩ := despachar_cases h
      refine ⟨by simp, ?_⟩
      rcases hcases with ⟨rfl, rfl, rfl⟩ | ⟨rfl, l, m, n, q, _, _, rfl⟩
      · exact hs.dumpsSinEspera
      · exact hs.dumpsSinEspera
  | respuesta m =>
      obtain ⟨proximo, pid, _, _, hsyscall⟩ := atenderMensaje_cases h
      obtain ⟨hfase, hdumps⟩ := atenderSyscall_fase hsyscall
      constructor
      · rcases hfase with ⟨seguir, hfase⟩ | ⟨causa, rfl, _⟩
        · simp [hfase]
        · simp
      · rcases hdumps with hdumps | hdumps
        · rw [hdumps]
          exact hs.dumpsSinEspera
        · rw [hdumps]
          intro d hd pid i
          rcases List.mem_append.mp hd with hd | hd
          · exact hs.dumpsSinEspera d hd pid i
          · rw [List.mem_singleton.mp hd]
            simp
  | seguirFin =>
      rcases seguirFin_cases h with
        ⟨causa, proximo, i, pid, k₁, avance, hfase, hpid, hround, hcases⟩ |
        ⟨causa, proximo, i, pid, k₁, hfase, _⟩
      · obtain ⟨_, _, salida, m, hresto⟩ :=
          mueve_finalizarHilo .seguirFin hviejos hround
        have hdumps : k₁.dumps = k.dumps := by rw [hresto]
        rcases hcases with ⟨rfl, _⟩ | ⟨_, rfl⟩ | ⟨_, rfl⟩
        · refine absurd rfl (finalizarHilo_sinEspera hviejos hround (fun hi => ?_))
          refine hok.2 _ ?_
          simp [tidCountDeRonda, hfase, hpid, hi]
        · refine ⟨by simp, ?_⟩
          simp only [hdumps]
          exact hs.dumpsSinEspera
        · refine ⟨by simp [soltar], ?_⟩
          have hsame : (terminarProceso cfg causa pid k₁).dumps = k.dumps := by
            rw [terminarProceso_dumps, hdumps]
          simp only [soltar, hsame]
          exact hs.dumpsSinEspera
      · exact absurd hfase (hs.sinEspera causa proximo i)
  | ioFin =>
      obtain ⟨request, resto, _, ⟨l, t, m, _, _, _, rfl⟩ | ⟨_, rfl⟩⟩ := ioFin_cases h
      · exact ⟨hs.sinEspera, hs.dumpsSinEspera⟩
      · exact ⟨hs.sinEspera, hs.dumpsSinEspera⟩
  | dumpRespuesta j r =>
      obtain ⟨d, _, _, ⟨_, rfl⟩ | ⟨_, _, rfl⟩ | ⟨_, rfl⟩⟩ := dumpRespuesta_cases h
      · refine ⟨hs.sinEspera, fun d hd => ?_⟩
        exact hs.dumpsSinEspera d (List.mem_of_mem_eraseIdx hd)
      · refine ⟨hs.sinEspera, fun d hd => ?_⟩
        rcases List.mem_or_eq_of_mem_set hd with hd | rfl
        · exact hs.dumpsSinEspera d hd
        · simp
      · refine ⟨hs.sinEspera, fun d hd => ?_⟩
        exact hs.dumpsSinEspera d (List.mem_of_mem_eraseIdx hd)
  | dumpSeguir j =>
      obtain ⟨d, hd, hcases⟩ := dumpSeguir_cases h
      rcases hcases with ⟨pid, i, k₁, avance, hfase, hround, hcases⟩ | ⟨pid, i, k₁, hfase, _⟩
      · obtain ⟨_, _, salida, m, hresto⟩ :=
          mueve_finalizarHilo (.dumpSeguir j) hviejos hround
        have hdumps : k₁.dumps = k.dumps := by rw [hresto]
        have hfase₁ : k₁.fase = k.fase := by rw [hresto]
        rcases hcases with ⟨rfl, _⟩ | ⟨_, rfl⟩ | ⟨_, rfl⟩
        · refine absurd rfl (finalizarHilo_sinEspera hviejos hround (fun hi => ?_))
          refine hok.2 _ ?_
          simp [tidCountDeRonda, hfase, hd, hi]
        · refine ⟨by simpa only [hfase₁] using hs.sinEspera, fun d' hd' => ?_⟩
          simp only [hdumps] at hd'
          rcases List.mem_or_eq_of_mem_set hd' with hd' | rfl
          · exact hs.dumpsSinEspera d' hd'
          · simp
        · refine ⟨?_, fun d' hd' => ?_⟩
          · simp only [removePcbFromActive, deleteProcessMemory, hfase₁]
            exact hs.sinEspera
          · simp only [removePcbFromActive, deleteProcessMemory, hdumps] at hd'
            exact hs.dumpsSinEspera d' (List.mem_of_mem_eraseIdx hd')
      · exact absurd hfase (hs.dumpsSinEspera d (List.mem_of_getElem? hd) pid i)

/-- A guarded step keeps the semaphore in step with READY. -/
theorem SemaforoCuenta.paso
    (hs : SemaforoCuenta k)
    (hok : SinGastos cfg k e)
    (h : paso cfg k e = some k') :
    SemaforoCuenta k' := by
  obtain ⟨hmove, hcoh⟩ := paso_mueve hs.coherente h
  obtain ⟨hfase, hdumps⟩ := hs.fase_paso hok h
  have hpool := hmove.invariant
    (I := fun a => Pool.Sound Hilo.ident a ∧ Pool.Balanced a) ⟨hs.solida, hs.cuenta⟩ ?_
  · exact ⟨hcoh, hpool.1, hpool.2, hfase, hdumps⟩
  rintro a b l ⟨hsa, hba⟩ hpermite hmv
  refine ⟨hsa.move hmv, hba.move hsa hmv ?_ ?_⟩
  · rintro t rfl
    exact hpermite.2 (hok.1 hpermite.1)
  · rintro rfl
    exact hs.not_esperaFin hpermite

end Steps

theorem semaforoCuenta_of_alcanza
    {cfg : Config μ} {es : List Evento} {k : Globals μ}
    (h : Alcanza cfg (SinGastos cfg) es k) :
    SemaforoCuenta k := by
  obtain ⟨memoria, path, size, hrun⟩ := h
  refine hrun.invariant (I := SemaforoCuenta) ?_ ?_
  · obtain ⟨hstart, hcoh, hfase⟩ := mueve_arranque cfg memoria path size
    have hpool := hstart.invariant
      (I := fun a => Pool.Sound Hilo.ident a ∧ Pool.Balanced a)
      ⟨vista_inicial memoria, rfl⟩ ?_
    · refine ⟨hcoh, hpool.1, hpool.2, by simp [hfase], ?_⟩
      have hdumps : (arranque cfg memoria path size).dumps = [] := by
        rw [arranque, processCreate_admite]
        rfl
      simp [hdumps]
    · rintro a b l ⟨hsa, hba⟩ ⟨t, rfl | ⟨rfl, _⟩⟩ hmv
      · exact ⟨hsa.move hmv, hba.move hsa hmv (by simp) (by simp)⟩
      · exact ⟨hsa.move hmv, hba.move hsa hmv (by simp) (by simp)⟩
  · intro a b e ha hok hstep
    exact ha.paso hok hstep

/-- The semaphore counts READY: the dispatcher waits on it only when READY is empty,
finds a TCB after the wait, and no handler waits on it. -/
theorem sem_thread_count_counts_ready
    {cfg : Config μ} {es : List Evento} {k : Globals μ}
    (h : Alcanza cfg (SinGastos cfg) es k) :
    k.semThreadCount = k.listReadyTcb.length ∧
    (waitThreadCount k = none → k.listReadyTcb = []) ∧
    (∀ k', waitThreadCount k = some k' → k'.listReadyTcb ≠ []) ∧
    (∀ causa p i, k.fase ≠ .esperando causa p i) ∧
    ∀ d ∈ k.dumps, ∀ pid i, d.fase ≠ .esperando pid i := by
  have hs := semaforoCuenta_of_alcanza h
  have hcuenta : k.semThreadCount = k.listReadyTcb.length := by
    simpa [Pool.Balanced, vista] using hs.cuenta
  refine ⟨hcuenta, ?_, ?_, hs.sinEspera, hs.dumpsSinEspera⟩
  · intro hwait
    cases hsem : k.semThreadCount with
    | zero =>
        rw [hsem] at hcuenta
        exact List.length_eq_zero_iff.mp hcuenta.symm
    | succ n =>
        simp [waitThreadCount, hsem] at hwait
  · intro k' hwait hnil
    cases hsem : k.semThreadCount with
    | zero =>
        simp [waitThreadCount, hsem] at hwait
    | succ n =>
        simp only [waitThreadCount, hsem, Option.some.injEq] at hwait
        rw [← hwait] at hnil
        rw [hnil, hsem] at hcuenta
        cases hcuenta

/-- Two processes: the first creates a thread, and the second is created. -/
def dosProcesos : List Evento :=
  [.despachar, .respuesta (.threadCreate ['b'] 0), .despachar,
    .respuesta (.processCreate ['c'] 16 0)]

theorem sem_thread_count_counts_ready_dosProcesos :
    ∃ k, execute (paso (siempreOk .fifo)) (arranque (siempreOk .fifo) () ['a'] 16)
        dosProcesos = some k ∧
      k.listReadyTcb.length = 2 ∧ k.semThreadCount = k.listReadyTcb.length :=
  ⟨_, (Option.some_get (by decide)).symm, by decide,
    (sem_thread_count_counts_ready (alcanza_of_isSome () ['a'] 16 (by decide) (by decide))).1⟩

/-- Ending the first of them spends both permits and leaves both TCBs in READY. -/
theorem sem_thread_count_fails_at_processExit :
    ∃ k, Alcanza (siempreOk .fifo) anyLabel
        (dosProcesos ++ [.despachar, .respuesta (.processExit 0), .seguirFin, .seguirFin,
          .seguirFin, .seguirFin, .seguirFin]) k ∧
      k.fase.proximo? = none ∧ k.semThreadCount = 0 ∧ k.listReadyTcb.length = 2 :=
  ⟨_, alcanza_of_isSome () ['a'] 16 (by decide) (by decide), by decide, by decide, by decide⟩

end Kernel
end SinIdeas
