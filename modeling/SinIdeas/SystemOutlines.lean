import SinIdeas.Fibonacci
import SinIdeas.MachineLog

/-!
# Outlined processes in the whole system

A process whose program has an outline keeps it in the whole system too: whatever the
scheduler decides and the other processes do, its threads are at lines whose assertions
hold. So the FIBO scripts compute the Fibonacci numbers there.
-/

namespace SinIdeas

open Lib Memoria ProcessMachine
open Cpu (Registro)
open Kernel (pidsDisponibles)

/-- The lines that the other processes execute are correct. -/
def OtrosCorrectos (cfg : Config) (pid : UInt32) (m : Maquina) (h : Hecho) : Prop :=
  (∃ tid, hechoDe pid h = some (.run tid)) ∨ Correcto cfg m h

/-- What happens while the process has the threads that it has is alien to its outline. -/
theorem OtrosCorrectos.ajeno
    {cfg : Config} {A : Outline Registro UInt32 (List Char)} {pid : UInt32} {m : Maquina}
    {h : Hecho}
    (hotros : OtrosCorrectos cfg pid m h)
    (hvive : h ≠ .pedido (.processExit pid))
    (hcrea : ∀ tid filePath, h ≠ .pedido (.threadCreate pid tid filePath)) :
    AjenoCorrecto cfg A pid m h := by
  intro hajeno
  have hcorrecto : Correcto cfg m h := by
    rcases hotros with ⟨tid, hrun⟩ | hcorrecto
    · exact absurd hrun (hajeno tid)
    · exact hcorrecto
  refine ⟨hcorrecto, hvive, fun d v hd _ => ?_⟩
  cases h with
  | dispatch p tid =>
      cases hd
  | vuelta p tid interrupcion =>
      simp only [hechoDe, Option.ite_none_right_eq_some, Option.some.injEq] at hd
      obtain ⟨-, rfl⟩ := hd
      exact starts_run A v tid
  | pedido peticion =>
      cases peticion with
      | threadCreate p tid filePath =>
          simp only [hechoDe, Option.ite_none_right_eq_some, Option.some.injEq] at hd
          obtain ⟨rfl, -⟩ := hd
          exact absurd rfl (hcrea tid filePath)
      | threadExit p tid =>
          simp only [hechoDe, Option.ite_none_right_eq_some, Option.some.injEq] at hd
          obtain ⟨-, rfl⟩ := hd
          trivial
      | _ => cases hd

theorem OtrosCorrectos.ajenoSinHilos
    {cfg : Config} {pid : UInt32} {m : Maquina} {h : Hecho}
    (hotros : OtrosCorrectos cfg pid m h)
    (hvive : h ≠ .pedido (.processExit pid))
    (hcorre : ∀ d, hechoDe pid h = some d → ∃ tid, d = .run tid) :
    AjenoSinHilos cfg pid m h := by
  intro hajeno
  have hnone : hechoDe pid h = none := by
    refine Option.eq_none_iff_forall_not_mem.mpr (fun d hd => ?_)
    obtain ⟨tid, rfl⟩ := hcorre d hd
    exact hajeno tid hd
  rcases hotros with ⟨tid, hrun⟩ | hcorrecto
  · exact absurd hrun (hajeno tid)
  · exact ⟨hcorrecto, hvive, hnone⟩

section Alone

variable {cfg : Config} {alg : Kernel.SchedulerAlgorithm} {s s' : Computadora} {t : Turno}
  {h : Hecho}

/-- Without other processes there are no lines of theirs. -/
theorem otrosCorrectos_of_solo
    (hs : EnMarcha cfg s)
    (hsolo : s.kernel.globalPid ≤ 1)
    (hhecho : s.hecho t = some h) :
    OtrosCorrectos cfg 0 s.maquina h := by
  rcases hecho_cases hhecho with ⟨_, i, resto, _, rfl⟩ | ⟨c, interrupcion, _, hcpu, rfl⟩
  · exact Or.inr trivial
  · obtain ⟨p, hp, -, hclave, -, -⟩ := hs.control.cpu hcpu
    have hvivo := List.mem_append_left (Kernel.vista s.kernel).fresh
      (Kernel.mem_threads_of_ejecutando hp)
    have hlt : p.parentPid < s.kernel.globalPid :=
      (hs.residentes.coherente.hilos p.hilo hvivo).1
    have hcero : p.parentPid = 0 := by omega
    have hpid : c.pid = 0 := by
      refine (congrArg Prod.fst hclave).trans ?_
      simp [Kernel.Hilo.clave, Kernel.Tcb.hilo, hcero]
    exact Or.inl ⟨c.tid, by simp [hechoDe, hpid]⟩

/-- So a run in which no process is created is one in which the others are correct. -/
theorem otrosCorrectos_corre
    {turnos : List Turno}
    (hperm : ∀ l, (cfg.listSort ordenarPorBase l).Perm l)
    (hesq : cfg.esquema ≠ .otro)
    (hs : EnMarcha cfg s)
    (hrun : CorreComputadora cfg alg (EnMaquina anyLabel) s turnos s')
    (hsolo : s'.kernel.globalPid ≤ 1) :
    CorreComputadora cfg alg (EnMaquina (OtrosCorrectos cfg 0)) s turnos s' ∧
      EnMarcha cfg s' := by
  induction hrun with
  | nil =>
      exact ⟨Run.nil, hs⟩
  | @snoc ts a b u hbefore hok hpaso ih =>
      obtain ⟨hfila, -⟩ := fila_corre hs.residentes.fila hbefore
      obtain ⟨-, hle⟩ := fila_paso hfila hpaso
      obtain ⟨hguarded, ha⟩ := ih (hle.trans hsolo)
      refine ⟨hguarded.snoc ⟨hok.1, fun h hh => ?_⟩ hpaso, ?_⟩
      · exact otrosCorrectos_of_solo ha (hle.trans hsolo) hh
      · exact ha.paso hperm hesq (hsolo.trans (by decide)) hpaso

end Alone

/-- An outlined process is correct in the whole system. From any state in which its threads
are at lines whose assertions hold, until it ends or creates a thread, they are at such
lines, and the process is what its private machine computes: no matter how the dispatcher,
the I/O device and the other processes are interleaved with it. -/
theorem system_outlined_process_is_correct
    (cfg : Config) (alg : Kernel.SchedulerAlgorithm)
    (hsort : StableFor ordenarPorBase (cfg.listSort ordenarPorBase))
    (hcfg : cfg.Valida)
    (hesq : cfg.esquema ≠ .otro)
    {A : Outline Registro UInt32 (List Char)} {turnos₀ turnos : List Turno} {s t : Computadora}
    {path : List Char} {size : Nat} {pid : UInt32}
    {v : ProcessMachine.State Registro UInt32 (List Char)}
    (hA : Esquematizado cfg A)
    (hreach : CorreComputadora cfg alg (EnMaquina (Correcto cfg))
      (Computadora.inicio cfg alg path size) turnos₀ s)
    (hv : vistaProceso s.maquina pid = some v) (hannotated : Annotated A v)
    (hrun : CorreComputadora cfg alg (EnMaquina (OtrosCorrectos cfg pid)) s turnos t)
    (hpids : t.kernel.globalPid ≤ pidsDisponibles) :
    ∃ hechos, t.kernel.memoria.hechos = s.kernel.memoria.hechos ++ hechos ∧
      (.pedido (.processExit pid) ∉ hechos →
        (∀ tid filePath, .pedido (.threadCreate pid tid filePath) ∉ hechos) →
        ∃ v', vistaProceso t.maquina pid = some v' ∧ Annotated A v' ∧
          v' = (hechos.filterMap (hechoDe pid)).foldl
            (ProcessMachine.State.step 32 4 (codigoDe cfg)) v) := by
  obtain ⟨⟨hechos₀, -, hmaquina₀⟩, hechos, hlog, hmaquina⟩ :=
    desde_of_corre hsort.perm hesq (fun _ _ h => h) (fun _ _ h => Or.inr h) hreach hrun hpids
  refine ⟨hechos, hlog, fun hvive hcrea => ?_⟩
  have hlabels := hmaquina.with_labels
    (P := fun h => h ≠ .pedido (.processExit pid) ∧
      ∀ tid filePath, h ≠ .pedido (.threadCreate pid tid filePath))
    (fun h hh => ⟨fun heq => hvive (heq ▸ hh),
      fun tid filePath heq => hcrea tid filePath (heq ▸ hh)⟩)
  have hajeno : Corre cfg (AjenoCorrecto cfg A pid) s.maquina hechos t.maquina :=
    hlabels.mono (fun h => h.1.ajeno h.2.1 h.2.2)
  obtain ⟨hrepresenta, hend⟩ := hA.run hsort hcfg
    ⟨coherente_of_corre hsort hcfg hmaquina₀, hv⟩ hannotated hajeno
  exact ⟨_, hrepresenta.vista, hend, rfl⟩

/-- The first neighbour in the whole system, interrupted after its second line. -/
def turnosVecinos : List Turno :=
  [.kernel .despachar, .recibe, .vuelta false, .vuelta true, .responde, .kernel .despachar,
    .recibe, .vuelta false]

theorem system_outlined_process_is_correct_vecinos :
    ∃ t v, execute (pasoComputadora cfgVecinos .fifo)
        (Computadora.inicio cfgVecinos .fifo ['a'] 8) turnosVecinos = some t ∧
      vistaProceso t.maquina 0 = some v ∧ Annotated esquemaVecinos v := by
  have hsort : StableFor ordenarPorBase (cfgVecinos.listSort ordenarPorBase) := by
    rw [ordenarPorBase_eq]
    exact stableFor_insertionSortBy
  have hinicio : vistaProceso (Computadora.inicio cfgVecinos .fifo ['a'] 8).maquina 0 =
      some { threads := [hiloVisto (nuevoHilo 0 ['a'])], bytes := List.replicate 8 0 } := rfl
  have hannotated : Annotated esquemaVecinos
      { threads := [hiloVisto (nuevoHilo 0 ['a'])], bytes := List.replicate 8 0 } := by
    refine ⟨by simp, fun t ht => ?_⟩
    obtain rfl := List.mem_singleton.mp ht
    exact ⟨rfl, rfl, rfl, trivial⟩
  have hrun : CorreComputadora cfgVecinos .fifo (EnMaquina (Correcto cfgVecinos))
      (Computadora.inicio cfgVecinos .fifo ['a'] 8) turnosVecinos _ :=
    run_of_isSome (pasoComputadora cfgVecinos .fifo) id (by decide +kernel) (by decide +kernel)
  obtain ⟨hechos, hlog, hend⟩ := system_outlined_process_is_correct cfgVecinos .fifo hsort
    ⟨by decide, by decide⟩ (by decide) esquematizado_vecinos Run.nil hinicio hannotated
    (hrun.mono (fun h => ⟨h.1, fun e he => Or.inr (h.2 e he)⟩)) (by decide +kernel)
  have hlista : hechos = [.dispatch 0 0, .vuelta 0 0 false, .vuelta 0 0 true, .dispatch 0 0,
      .vuelta 0 0 false] := by
    refine List.append_cancel_left (hlog.symm.trans ?_)
    decide +kernel
  subst hlista
  obtain ⟨v, hv, hholds, -⟩ := hend (by simp) (by simp)
  exact ⟨_, v, (Option.some_get _).symm, hv, hholds⟩

/-- What a log says of the process of a FIBO script. -/
theorem fibo_en_registro
    {cfg : Config} {archivos : List Char → Option (List Char)}
    (hsort : StableFor ordenarPorBase (cfg.listSort ordenarPorBase))
    (hcfg : cfg.Valida)
    {n : Nat} {path : List Char} {hechos : List Hecho} {a b : Maquina} {pid tid : UInt32}
    {bytes : List UInt8}
    (hpos : 0 < n) (hn : 8 * n < 2 ^ 32)
    (hfile : archivos path = some (fiboArchivo n))
    (hcoherente : Coherente (cfg.conArchivos archivos) a)
    (hv : vistaProceso a pid = some
      { threads := [{ id := tid, program := path, state := RegisterMachine.start }], bytes })
    (hroom : 8 * n ≤ bytes.length)
    (hmaquina : Corre (cfg.conArchivos archivos) (OtrosCorrectos (cfg.conArchivos archivos) pid)
      a hechos b)
    (hvive : .pedido (.processExit pid) ∉ hechos)
    (hcorre : ∀ d ∈ hechos.filterMap (hechoDe pid), ∃ tid, d = .run tid)
    (henough : 6 + 10 * n ≤ (hechos.filterMap (hechoDe pid)).count (.run tid)) :
    ∃ datos, memoriaDe b.memoria pid = some datos ∧ Escritos (2 * n) datos := by
  have hscript : (cfg.conArchivos archivos).scripts path = some (fibo n) := by
    simp only [Config.conArchivos, hfile, Option.map_some, lineasDe_fiboArchivo]
  have hsort' : StableFor ordenarPorBase
      ((cfg.conArchivos archivos).listSort ordenarPorBase) := hsort
  have hcfg' : (cfg.conArchivos archivos).Valida := hcfg
  have hlabels := hmaquina.with_labels
    (P := fun h => h ≠ .pedido (.processExit pid) ∧
      ∀ d, hechoDe pid h = some d → ∃ tid, d = .run tid)
    (fun h hh => ⟨fun heq => hvive (heq ▸ hh),
      fun d hd => hcorre d (List.mem_filterMap.mpr ⟨h, hh, hd⟩)⟩)
  have hajeno : Corre (cfg.conArchivos archivos) (AjenoSinHilos (cfg.conArchivos archivos) pid)
      a hechos b :=
    hlabels.mono (fun h => h.1.ajenoSinHilos h.2.1 h.2.2)
  obtain ⟨v, hrepresenta, hescritos⟩ := fibo_en_memoria hsort' hcfg' hscript hpos hn
    ⟨hcoherente, hv⟩ hroom hajeno henough
  exact ⟨v.bytes, hrepresenta.memoriaDe, hescritos⟩

/-- The FIBO scripts compute in the whole system. From any state in which a process is about
to run one of them, once its only thread has executed the `6 + 10 n` lines of the loop, the
first `2 n` words of the process are the first `2 n` Fibonacci numbers in 32 bits, however
the thread was interrupted and whatever ran in between. -/
theorem fibo_scripts_compute_in_system
    (cfg : Config) (archivos : List Char → Option (List Char)) (alg : Kernel.SchedulerAlgorithm)
    (hsort : StableFor ordenarPorBase (cfg.listSort ordenarPorBase))
    (hcfg : cfg.Valida)
    (hesq : cfg.esquema ≠ .otro)
    {n : Nat} {path inicial : List Char} {size : Nat} {turnos₀ turnos : List Turno}
    {s t : Computadora} {pid tid : UInt32} {bytes : List UInt8}
    (hpos : 0 < n) (hn : 8 * n < 2 ^ 32)
    (hfile : archivos path = some (fiboArchivo n))
    (hreach : CorreComputadora (cfg.conArchivos archivos) alg
      (EnMaquina (Correcto (cfg.conArchivos archivos)))
      (Computadora.inicio (cfg.conArchivos archivos) alg inicial size) turnos₀ s)
    (hv : vistaProceso s.maquina pid = some
      { threads := [{ id := tid, program := path, state := RegisterMachine.start }], bytes })
    (hroom : 8 * n ≤ bytes.length)
    (hrun : CorreComputadora (cfg.conArchivos archivos) alg
      (EnMaquina (OtrosCorrectos (cfg.conArchivos archivos) pid)) s turnos t)
    (hpids : t.kernel.globalPid ≤ pidsDisponibles) :
    ∃ hechos, t.kernel.memoria.hechos = s.kernel.memoria.hechos ++ hechos ∧
      (.pedido (.processExit pid) ∉ hechos →
        (∀ d ∈ hechos.filterMap (hechoDe pid), ∃ tid, d = .run tid) →
        6 + 10 * n ≤ (hechos.filterMap (hechoDe pid)).count (.run tid) →
        ∃ datos, memoriaDe t.maquina.memoria pid = some datos ∧ Escritos (2 * n) datos) := by
  have hsort' : StableFor ordenarPorBase
      ((cfg.conArchivos archivos).listSort ordenarPorBase) := hsort
  obtain ⟨⟨hechos₀, -, hmaquina₀⟩, hechos, hlog, hmaquina⟩ :=
    desde_of_corre hsort'.perm hesq (fun _ _ h => h) (fun _ _ h => Or.inr h) hreach hrun hpids
  exact ⟨hechos, hlog, fibo_en_registro hsort hcfg hpos hn hfile
    (coherente_of_corre hsort' hcfg hmaquina₀) hv hroom hmaquina⟩

/-- A script with one round, interrupted in its loop. -/
def turnosFibo : List Turno :=
  [.kernel .despachar, .recibe] ++ List.replicate 8 (.vuelta false) ++
    [.vuelta true, .responde, .kernel .despachar, .recibe] ++ List.replicate 7 (.vuelta false)

/-- What happens on the machine then. -/
def registroFibo : List Hecho :=
  .dispatch 0 0 :: List.replicate 8 (.vuelta 0 0 false) ++ [.vuelta 0 0 true, .dispatch 0 0] ++
    List.replicate 7 (.vuelta 0 0 false)

theorem propio_registroFibo : ∀ d ∈ registroFibo.filterMap (hechoDe 0), d = .run 0 := by
  decide

theorem vista_inicioFibo :
    vistaProceso (Computadora.inicio (cfgFibo.conArchivos archivosFibo) .fifo ['f'] 8).maquina 0 =
      some { threads := [{ id := 0, program := ['f'], state := RegisterMachine.start }],
             bytes := List.replicate 8 0 } := by
  rw [← hiloVisto_nuevoHilo]
  rfl

theorem corre_turnosFibo :
    ∃ t, execute (pasoComputadora (cfgFibo.conArchivos archivosFibo) .fifo)
        (Computadora.inicio (cfgFibo.conArchivos archivosFibo) .fifo ['f'] 8) turnosFibo = some t ∧
      CorreComputadora (cfgFibo.conArchivos archivosFibo) .fifo
        (EnMaquina (Correcto (cfgFibo.conArchivos archivosFibo)))
        (Computadora.inicio (cfgFibo.conArchivos archivosFibo) .fifo ['f'] 8) turnosFibo t ∧
      t.kernel.globalPid = 1 ∧
      t.kernel.memoria.hechos = (Computadora.inicio (cfgFibo.conArchivos archivosFibo) .fifo
        ['f'] 8).kernel.memoria.hechos ++ registroFibo := by
  have hrun : CorreComputadora (cfgFibo.conArchivos archivosFibo) .fifo
      (EnMaquina (Correcto (cfgFibo.conArchivos archivosFibo)))
      (Computadora.inicio (cfgFibo.conArchivos archivosFibo) .fifo ['f'] 8) turnosFibo _ :=
    run_of_isSome (pasoComputadora _ .fifo) id (by decide +kernel) (by decide +kernel)
  exact ⟨_, (Option.some_get _).symm, hrun, by decide +kernel, by decide +kernel⟩

theorem estable_cfgFibo : StableFor ordenarPorBase (cfgFibo.listSort ordenarPorBase) := by
  rw [ordenarPorBase_eq]
  exact stableFor_insertionSortBy

theorem fibo_scripts_compute_in_system_unaVuelta :
    ∃ t datos, execute (pasoComputadora (cfgFibo.conArchivos archivosFibo) .fifo)
        (Computadora.inicio (cfgFibo.conArchivos archivosFibo) .fifo ['f'] 8) turnosFibo = some t ∧
      memoriaDe t.maquina.memoria 0 = some datos ∧ Escritos 2 datos := by
  obtain ⟨t, hexec, hrun, hglobal, hregistro⟩ := corre_turnosFibo
  obtain ⟨hechos, hlog, hend⟩ := fibo_scripts_compute_in_system cfgFibo archivosFibo .fifo
    estable_cfgFibo ⟨by decide, by decide⟩ (by decide) (by decide) (by decide) rfl Run.nil
    vista_inicioFibo (by decide) (hrun.mono (fun h => ⟨h.1, fun e he => Or.inr (h.2 e he)⟩))
    (hglobal.le.trans (by decide))
  obtain rfl := List.append_cancel_left (hlog.symm.trans hregistro)
  obtain ⟨datos, hdatos, hescritos⟩ :=
    hend (by decide) (fun d hd => ⟨0, propio_registroFibo d hd⟩) (by decide)
  exact ⟨t, datos, hexec, hdatos, hescritos⟩

/-- A FIBO script as the only process: the kernel boots with it, and nothing is assumed of
what the CPU executes. -/
theorem booted_fibo_script_computes
    (cfg : Config) (archivos : List Char → Option (List Char)) (alg : Kernel.SchedulerAlgorithm)
    (hsort : StableFor ordenarPorBase (cfg.listSort ordenarPorBase))
    (hcfg : cfg.Valida)
    (hesq : cfg.esquema ≠ .otro)
    {n : Nat} {path : List Char} {size : Nat} {turnos : List Turno} {t : Computadora}
    {bytes : List UInt8}
    (hpos : 0 < n) (hn : 8 * n < 2 ^ 32)
    (hfile : archivos path = some (fiboArchivo n))
    (hv : vistaProceso (Computadora.inicio (cfg.conArchivos archivos) alg path size).maquina 0 =
      some { threads := [{ id := 0, program := path, state := RegisterMachine.start }], bytes })
    (hroom : 8 * n ≤ bytes.length)
    (hrun : CorreComputadora (cfg.conArchivos archivos) alg (EnMaquina anyLabel)
      (Computadora.inicio (cfg.conArchivos archivos) alg path size) turnos t)
    (hsolo : t.kernel.globalPid = 1) :
    ∃ hechos, t.kernel.memoria.hechos =
        (Computadora.inicio (cfg.conArchivos archivos) alg path size).kernel.memoria.hechos ++
          hechos ∧
      (.pedido (.processExit 0) ∉ hechos →
        (∀ d ∈ hechos.filterMap (hechoDe 0), ∃ tid, d = .run tid) →
        6 + 10 * n ≤ (hechos.filterMap (hechoDe 0)).count (.run 0) →
        ∃ datos, memoriaDe t.maquina.memoria 0 = some datos ∧ Escritos (2 * n) datos) := by
  have hsort' : StableFor ordenarPorBase
      ((cfg.conArchivos archivos).listSort ordenarPorBase) := hsort
  have hinicio := enMarcha_inicio hsort'.perm hesq alg path size
  obtain ⟨hotros, -⟩ := otrosCorrectos_corre hsort'.perm hesq hinicio hrun hsolo.le
  have hnada : CorreComputadora (cfg.conArchivos archivos) alg
      (EnMaquina (Correcto (cfg.conArchivos archivos)))
      (Computadora.inicio (cfg.conArchivos archivos) alg path size) [] _ := Run.nil
  obtain ⟨⟨hechos₀, -, hmaquina₀⟩, hechos, hlog, hmaquina⟩ :=
    desde_of_corre hsort'.perm hesq (fun _ _ h => h) (fun _ _ h => Or.inr h) hnada hotros
      (hsolo.le.trans (by decide))
  exact ⟨hechos, hlog, fibo_en_registro hsort hcfg hpos hn hfile
    (coherente_of_corre hsort' hcfg hmaquina₀) hv hroom hmaquina⟩

theorem booted_fibo_script_computes_unaVuelta :
    ∃ t datos, execute (pasoComputadora (cfgFibo.conArchivos archivosFibo) .fifo)
        (Computadora.inicio (cfgFibo.conArchivos archivosFibo) .fifo ['f'] 8) turnosFibo = some t ∧
      t.kernel.globalPid = 1 ∧ memoriaDe t.maquina.memoria 0 = some datos ∧
      Escritos 2 datos := by
  obtain ⟨t, hexec, hrun, hglobal, hregistro⟩ := corre_turnosFibo
  obtain ⟨hechos, hlog, hend⟩ := booted_fibo_script_computes cfgFibo archivosFibo .fifo
    estable_cfgFibo ⟨by decide, by decide⟩ (by decide) (by decide) (by decide) rfl
    vista_inicioFibo (by decide) (hrun.mono (fun h => ⟨h.1, fun _ _ => trivial⟩)) hglobal
  obtain rfl := List.append_cancel_left (hlog.symm.trans hregistro)
  obtain ⟨datos, hdatos, hescritos⟩ :=
    hend (by decide) (fun d hd => ⟨0, propio_registroFibo d hd⟩) (by decide)
  exact ⟨t, datos, hexec, hglobal, hdatos, hescritos⟩

end SinIdeas
