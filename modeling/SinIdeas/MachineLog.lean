import SinIdeas.OutlinedProcess
import SinIdeas.System

/-!
# The machine inside the system

What the whole system does to memoria and the CPU is a run of the machine: the kernel
creates processes with new PIDs and ends nothing while the CPU works, unless a dump fails.
So what holds of the processes in every run of the machine holds in the whole system, and
nothing has to be assumed of the requests of the kernel.
-/

namespace SinIdeas

open Lib Memoria
open Cpu (Registro)
open Kernel (pidsDisponibles paso)

/-- A dump that failed: its process is ended, whoever is running. -/
def dumpFallido : Kernel.Evento → Bool
  | .dumpRespuesta _ .error => true
  | _ => false

/-- No dump fails, and what the step is for the machine meets `ok`. -/
def EnMaquina (ok : Maquina → Hecho → Prop) (s : Computadora) (t : Turno) : Prop :=
  (∀ e ∈ s.evento t, dumpFallido e = false) ∧ ∀ h ∈ s.hecho t, ok s.maquina h

instance (ok : Maquina → Hecho → Prop) [∀ m h, Decidable (ok m h)] (s : Computadora) (t : Turno) :
    Decidable (EnMaquina ok s t) :=
  inferInstanceAs (Decidable ((∀ e ∈ s.evento t, dumpFallido e = false) ∧
    ∀ h ∈ s.hecho t, ok s.maquina h))

/-- What has happened since the log was `base` is a run from `m₀`. -/
def Desde (cfg : Config) (ok : Maquina → Hecho → Prop) (base : List Hecho) (m₀ : Maquina)
    (a : Anotada) : Prop :=
  ∃ hechos, a.hechos = base ++ hechos ∧ Corre cfg ok m₀ hechos a.maquina

section Steps

variable {cfg : Config} {alg : Kernel.SchedulerAlgorithm} {ok : Maquina → Hecho → Prop}
  {base : List Hecho} {m₀ : Maquina} {s s' : Computadora} {t : Turno} {e : Kernel.Evento}
  {k : Kernel.Globals Anotada}

/-- While the CPU is free the requests of the kernel are as the machine counts on. -/
theorem mantiene_desde
    (hok : ∀ m p, DelKernel m p → ok m (.pedido p))
    (base : List Hecho) (m₀ : Maquina) :
    Mantiene cfg (fun a => a.maquina.cpu = none ∧ Desde cfg ok base m₀ a) := by
  rintro a p g ⟨-, hlibre, hechos, hlog, hrun⟩ hkernel hnew hstep
  have hdel : DelKernel a.maquina p := by
    cases p with
    | processCreate pid size => exact (hnew pid size rfl).1
    | processExit pid => simp [DelKernel, hlibre]
    | threadCreate pid tid filePath => trivial
    | threadExit pid tid => simp [DelKernel, hlibre]
    | _ => cases hkernel
  have hpaso : pasoMaquina cfg a.maquina (.pedido p) = some (a.pedido p g).maquina := by
    simp [pasoMaquina, hstep, Anotada.pedido]
  refine ⟨hlibre, hechos ++ [.pedido p], ?_, hrun.snoc (hok _ _ hdel) hpaso⟩
  simp [Anotada.pedido, hlog]

/-- While the CPU works the kernel asks memoria nothing. -/
theorem memoria_con_cpu
    {c : ExecutionContext}
    (hcontrol : Control s)
    (hvuelo : ∀ d ∈ s.kernel.dumps, d.fase.pid? = none)
    (hcpu : s.maquina.cpu = some c)
    (hevento : s.evento t = some e)
    (hstep : paso (conectada cfg alg) s.kernel e = some k) :
    k.memoria = s.kernel.memoria := by
  obtain ⟨p, hp, -, -, hlen, -⟩ := hcontrol.cpu hcpu
  cases e with
  | despachar =>
      obtain ⟨seguir, previo, proximo, k₁, hfase, -⟩ := Kernel.despachar_cases hstep
      simp [hp] at hfase
  | respuesta mensaje =>
      obtain ⟨-, m, hm, -⟩ := evento_respuesta hevento
      have hlt := (List.getElem?_eq_some_iff.mp hm).1
      omega
  | seguirFin =>
      rcases Kernel.seguirFin_cases hstep with
        ⟨causa, proximo, i, pid, k₁, avance, hfase, -⟩ |
        ⟨causa, proximo, i, pid, k₁, hfase, -⟩
      · simp [hp] at hfase
      · simp [hp] at hfase
  | ioFin =>
      obtain ⟨request, resto, _, ⟨l, q, m, _, _, _, rfl⟩ | ⟨_, rfl⟩⟩ := Kernel.ioFin_cases hstep
      · rfl
      · rfl
  | dumpRespuesta j r =>
      obtain ⟨d, _, _, ⟨_, rfl⟩ | ⟨_, _, rfl⟩ | ⟨_, rfl⟩⟩ := Kernel.dumpRespuesta_cases hstep
      · rfl
      · rfl
      · rfl
  | dumpSeguir j =>
      obtain ⟨d, hd, hcases⟩ := Kernel.dumpSeguir_cases hstep
      have hnone := hvuelo d (List.mem_of_getElem? hd)
      rcases hcases with ⟨pid, i, _, _, hfase, _⟩ | ⟨pid, i, _, hfase, _⟩
      · rw [hfase] at hnone
        cases hnone
      · rw [hfase] at hnone
        cases hnone

/-- What a run of the system keeps, next to the log. -/
structure Registrada (cfg : Config) (ok : Maquina → Hecho → Prop) (base : List Hecho)
    (m₀ : Maquina) (s : Computadora) : Prop where
  enMarcha : EnMarcha cfg s
  enVuelo : ∀ d ∈ s.kernel.dumps, d.fase.pid? = none
  desde : Desde cfg ok base m₀ s.kernel.memoria

theorem Registrada.paso
    (hperm : ∀ l, (cfg.listSort ordenarPorBase l).Perm l)
    (hesq : cfg.esquema ≠ .otro)
    (hok : ∀ m p, DelKernel m p → ok m (.pedido p))
    (hs : Registrada cfg ok base m₀ s)
    (hpids : s'.kernel.globalPid ≤ pidsDisponibles)
    (hguard : EnMaquina ok s t)
    (hstep : pasoComputadora cfg alg s t = some s') :
    Registrada cfg ok base m₀ s' := by
  have hnext := hs.enMarcha.paso hperm hesq hpids hstep
  rcases pasoComputadora_cases hstep with ⟨e, k, hevento, hk, rfl⟩ | ⟨h, m, _, hhecho, hm, rfl⟩
  · have hviejos : s.kernel.listaTcbsBlockeados = [] := hs.enMarcha.residentes.coherente.viejos
    refine ⟨hnext, ?_, ?_⟩
    · intro d hd
      refine Option.eq_none_iff_forall_not_mem.mpr (fun pid hpid => ?_)
      rcases Kernel.dumps_paso hviejos hk d hd pid hpid with ⟨d', hd', hpid'⟩ | ⟨⟨j, rfl⟩, -⟩
      · rw [hs.enVuelo d' hd'] at hpid'
        cases hpid'
      · exact absurd (hguard.1 _ hevento) (by simp [dumpFallido])
    · cases hcpu : s.maquina.cpu with
      | none =>
          exact (residentes_kernel hperm hesq (mantiene_desde hok base m₀)
            hs.enMarcha.residentes ⟨hcpu, hs.desde⟩ hpids hk).2.2
      | some c =>
          have hmem := memoria_con_cpu hs.enMarcha.control hs.enVuelo hcpu hevento hk
          exact hmem.symm ▸ hs.desde
  · obtain ⟨hechos, hlog, hrun⟩ := hs.desde
    refine ⟨hnext, hs.enVuelo, hechos ++ [h], ?_, hrun.snoc (hguard.2 h hhecho) hm⟩
    simp [Computadora.trasMaquina, hlog]

theorem registrada_inicio
    (hperm : ∀ l, (cfg.listSort ordenarPorBase l).Perm l)
    (hesq : cfg.esquema ≠ .otro)
    {ok : Maquina → Hecho → Prop}
    (hok : ∀ m p, DelKernel m p → ok m (.pedido p))
    (alg : Kernel.SchedulerAlgorithm) (path : List Char) (size : Nat) :
    Registrada cfg ok [] (Maquina.inicio cfg) (Computadora.inicio cfg alg path size) where
  enMarcha := enMarcha_inicio hperm hesq alg path size
  enVuelo := by
    have hnone : (Computadora.inicio cfg alg path size).kernel.dumps = [] := by
      simp only [Computadora.inicio, Kernel.arranque]
      rw [Kernel.processCreate_admite]
      rfl
    simp [hnone]
  desde :=
    (residentes_inicio hperm hesq (mantiene_desde hok [] (Maquina.inicio cfg))
      ⟨rfl, [], rfl, Run.nil⟩ alg path size).memoria.2.2

theorem Registrada.of_corre
    {turnos : List Turno}
    (hperm : ∀ l, (cfg.listSort ordenarPorBase l).Perm l)
    (hesq : cfg.esquema ≠ .otro)
    (hok : ∀ m p, DelKernel m p → ok m (.pedido p))
    (hs : Registrada cfg ok base m₀ s)
    (hrun : CorreComputadora cfg alg (EnMaquina ok) s turnos s')
    (hpids : s'.kernel.globalPid ≤ pidsDisponibles) :
    Registrada cfg ok base m₀ s' :=
  invariant_of_corre hrun hs.enMarcha.residentes.fila hpids hs
    (fun hb ha hguard hpaso => ha.paso hperm hesq hok hb hguard hpaso)

/-- The log from here on. -/
theorem Registrada.desdeAqui
    (hs : Registrada cfg ok base m₀ s)
    (ok' : Maquina → Hecho → Prop) :
    Registrada cfg ok' s.kernel.memoria.hechos s.maquina s where
  enMarcha := hs.enMarcha
  enVuelo := hs.enVuelo
  desde := ⟨[], (List.append_nil _).symm, Run.nil⟩

/-- The bound on the PIDs at the end of a run was one at its start. -/
theorem fila_corre
    {ok : Computadora → Turno → Prop} {turnos : List Turno}
    (hfila : ∃ ps a, Kernel.Fila ps a s.kernel)
    (hrun : CorreComputadora cfg alg ok s turnos s') :
    (∃ ps a, Kernel.Fila ps a s'.kernel) ∧ s.kernel.globalPid ≤ s'.kernel.globalPid := by
  refine hrun.invariant (I := fun a => (∃ ps l, Kernel.Fila ps l a.kernel) ∧
    s.kernel.globalPid ≤ a.kernel.globalPid) ⟨hfila, le_rfl⟩ ?_
  rintro a b t ⟨hfila, ha⟩ _ hpaso
  obtain ⟨hfila', hle⟩ := fila_paso hfila hpaso
  exact ⟨hfila', ha.trans hle⟩

/-- A run from the start to `s` and one from there: what has happened before and since. -/
theorem desde_of_corre
    {ok ok' : Maquina → Hecho → Prop} {turnos₀ turnos : List Turno} {path : List Char} {size : Nat}
    (hperm : ∀ l, (cfg.listSort ordenarPorBase l).Perm l)
    (hesq : cfg.esquema ≠ .otro)
    (hok : ∀ m p, DelKernel m p → ok m (.pedido p))
    (hok' : ∀ m p, DelKernel m p → ok' m (.pedido p))
    (hreach : CorreComputadora cfg alg (EnMaquina ok) (Computadora.inicio cfg alg path size)
      turnos₀ s)
    (hrun : CorreComputadora cfg alg (EnMaquina ok') s turnos s')
    (hpids : s'.kernel.globalPid ≤ pidsDisponibles) :
    Desde cfg ok [] (Maquina.inicio cfg) s.kernel.memoria ∧
      Desde cfg ok' s.kernel.memoria.hechos s.maquina s'.kernel.memoria := by
  have hstart : Registrada cfg ok [] (Maquina.inicio cfg) (Computadora.inicio cfg alg path size) :=
    registrada_inicio hperm hesq hok alg path size
  obtain ⟨hfila, -⟩ := fila_corre hstart.enMarcha.residentes.fila hreach
  obtain ⟨-, hle⟩ := fila_corre hfila hrun
  have hs := hstart.of_corre hperm hesq hok hreach (hle.trans hpids)
  have ht := (hs.desdeAqui ok').of_corre hperm hesq hok' hrun hpids
  exact ⟨hs.desde, ht.desde⟩

end Steps

/-- In every run of the whole system without a failed dump in which the CPU executes
correct lines, the log is a run of the machine in which the requests of the kernel are
correct too. -/
theorem machine_log_is_correct_run
    (cfg : Config) (alg : Kernel.SchedulerAlgorithm)
    (hperm : ∀ l, (cfg.listSort ordenarPorBase l).Perm l)
    (hesq : cfg.esquema ≠ .otro)
    {turnos : List Turno} {s : Computadora} {path : List Char} {size : Nat}
    (hrun : CorreComputadora cfg alg (EnMaquina (Correcto cfg))
      (Computadora.inicio cfg alg path size) turnos s)
    (hpids : s.kernel.globalPid ≤ pidsDisponibles) :
    Corre cfg (Correcto cfg) (Maquina.inicio cfg) s.kernel.memoria.hechos s.maquina := by
  have hnada : CorreComputadora cfg alg (EnMaquina (Correcto cfg)) s [] s := Run.nil
  obtain ⟨⟨hechos, hlog, hmaquina⟩, -⟩ :=
    desde_of_corre hperm hesq (fun _ _ h => h) (fun _ _ h => h) hrun hnada hpids
  rw [List.nil_append] at hlog
  rw [hlog]
  exact hmaquina

theorem machine_log_is_correct_run_dos :
    ∃ s, execute (pasoComputadora cfgDos .fifo) (Computadora.inicio cfgDos .fifo ['a'] 8)
        turnosDos = some s ∧
      Corre cfgDos (Correcto cfgDos) (Maquina.inicio cfgDos) s.kernel.memoria.hechos s.maquina := by
  have hrun : CorreComputadora cfgDos .fifo (EnMaquina (Correcto cfgDos))
      (Computadora.inicio cfgDos .fifo ['a'] 8) turnosDos _ :=
    run_of_isSome (pasoComputadora cfgDos .fifo) id (by decide +kernel) (by decide +kernel)
  exact ⟨_, (Option.some_get _).symm,
    machine_log_is_correct_run cfgDos .fifo perm_cfgDos (by decide) hrun (by decide +kernel)⟩

/-- In the whole system every process runs on a machine of its own. From any state in which
it is resident until it ends, what a process sees is what a private machine computes from
its events in the log, whatever the kernel decides and the other processes do. -/
theorem system_process_is_private_machine
    (cfg : Config) (alg : Kernel.SchedulerAlgorithm)
    (hsort : StableFor ordenarPorBase (cfg.listSort ordenarPorBase))
    (hcfg : cfg.Valida)
    (hesq : cfg.esquema ≠ .otro)
    {turnos₀ turnos : List Turno} {s t : Computadora} {path : List Char} {size : Nat}
    {pid : UInt32} {v : ProcessMachine.State Registro UInt32 (List Char)}
    (hreach : CorreComputadora cfg alg (EnMaquina (Correcto cfg))
      (Computadora.inicio cfg alg path size) turnos₀ s)
    (hv : vistaProceso s.maquina pid = some v)
    (hrun : CorreComputadora cfg alg (EnMaquina (Correcto cfg)) s turnos t)
    (hpids : t.kernel.globalPid ≤ pidsDisponibles) :
    ∃ hechos, t.kernel.memoria.hechos = s.kernel.memoria.hechos ++ hechos ∧
      (.pedido (.processExit pid) ∉ hechos →
        vistaProceso t.maquina pid =
          some ((hechos.filterMap (hechoDe pid)).foldl
            (ProcessMachine.State.step 32 4 (codigoDe cfg)) v)) := by
  obtain ⟨⟨hechos₀, -, hmaquina₀⟩, hechos, hlog, hmaquina⟩ :=
    desde_of_corre hsort.perm hesq (fun _ _ h => h) (fun _ _ h => h) hreach hrun hpids
  refine ⟨hechos, hlog, fun hvive => ?_⟩
  have hrepresenta : Representa cfg pid s.maquina v :=
    ⟨coherente_of_corre hsort hcfg hmaquina₀, hv⟩
  have hlabels : Corre cfg (fun a e => Correcto cfg a e ∧ e ≠ .pedido (.processExit pid))
      s.maquina hechos t.maquina :=
    hmaquina.with_labels (fun e he heq => hvive (heq ▸ he))
  exact (Run.projects (Representa cfg pid) hlabels (hechoDe pid)
    (ProcessMachine.State.step 32 4 (codigoDe cfg)) hrepresenta
    (fun h hok hstep => h.step hsort hcfg hok.1 hok.2 hstep)).vista

/-- When the first process has created the second one. -/
def mitadDos : Option Computadora :=
  execute (pasoComputadora cfgDos .fifo) (Computadora.inicio cfgDos .fifo ['a'] 8)
    (turnosDos.take 4)

theorem isSome_mitadDos : mitadDos.isSome = true := by decide +kernel

theorem system_process_is_private_machine_dos :
    ∃ t, execute (pasoComputadora cfgDos .fifo) (mitadDos.get isSome_mitadDos)
        (turnosDos.drop 4) = some t ∧
      ∃ v hechos, vistaProceso (mitadDos.get isSome_mitadDos).maquina 1 = some v ∧
        t.kernel.memoria.hechos =
          (mitadDos.get isSome_mitadDos).kernel.memoria.hechos ++ hechos ∧
        vistaProceso t.maquina 1 =
          some ((hechos.filterMap (hechoDe 1)).foldl
            (ProcessMachine.State.step 32 4 (codigoDe cfgDos)) v) := by
  have hsort : StableFor ordenarPorBase (cfgDos.listSort ordenarPorBase) := by
    rw [ordenarPorBase_eq]
    exact stableFor_insertionSortBy
  have hreach : CorreComputadora cfgDos .fifo (EnMaquina (Correcto cfgDos))
      (Computadora.inicio cfgDos .fifo ['a'] 8) (turnosDos.take 4)
      (mitadDos.get isSome_mitadDos) :=
    run_of_isSome (pasoComputadora cfgDos .fifo) id (by decide +kernel) isSome_mitadDos
  have hrun : CorreComputadora cfgDos .fifo (EnMaquina (Correcto cfgDos))
      (mitadDos.get isSome_mitadDos) (turnosDos.drop 4) _ :=
    run_of_isSome (pasoComputadora cfgDos .fifo) id (by decide +kernel) (by decide +kernel)
  have hvista : (vistaProceso (mitadDos.get isSome_mitadDos).maquina 1).isSome = true := by
    decide +kernel
  obtain ⟨hechos, hlog, hend⟩ := system_process_is_private_machine cfgDos .fifo hsort
    ⟨by decide, by decide⟩ (by decide) hreach (Option.some_get hvista).symm hrun
    (by decide +kernel)
  refine ⟨_, (Option.some_get _).symm, _, hechos, (Option.some_get hvista).symm, hlog,
    hend (fun hmem => ?_)⟩
  exact absurd (hlog.symm ▸ List.mem_append_right _ hmem) (by decide +kernel)

end SinIdeas
