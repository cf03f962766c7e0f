import SinIdeas.Kernel.QuantumSteps

/-!
# No thread runs without a quantum

Under CMN a quantum is started by `schedule_next_tcb` and interrupted by every message
of the CPU. The thread on the CPU has a quantum as long as every dispatch follows a
call of the scheduler; a dispatch of the same thread again, after a syscall that does
not block, leaves it without one.
-/

namespace SinIdeas
namespace Kernel

open Lib

variable {μ : Type}

/-- A quantum is pending, or the timer is counting one that nobody has interrupted. -/
def Sistema.quantumEnMarcha (s : Sistema μ) : Prop :=
  0 < s.kernel.semQuantum ∨ s.temporizador = .tomado ∨
    ((s.temporizador = .contando ∨ s.temporizador = .comprobando) ∧
      s.kernel.quantumInterrupted = false)

/-- While the CPU has a thread and the timer has not expired since its last dispatch, a
quantum was started after the last `interrupt_quantum`, and it is pending or counting. -/
def ConQuantum (s : Sistema μ) (r : Registro) : Prop :=
  s.enCpu → r.vencido = false → r.armado = true ∧ s.quantumEnMarcha

/-- The dispatcher calls `schedule_next_tcb` before it gives the CPU a thread. -/
def AgendaSiempre (x : Vigilado μ) (a : Accion) : Prop :=
  a = .kernel .despachar → x.sistema.kernel.fase.agenda = true

instance decidableAgendaSiempre (x : Vigilado μ) (a : Accion) :
    Decidable (AgendaSiempre x a) :=
  inferInstanceAs (Decidable (a = .kernel .despachar → x.sistema.kernel.fase.agenda = true))

section Armado

variable {cfg : Config μ} {s s' : Sistema μ} {r r' : Registro} {a : Accion}

/-- While the timer raises an interruption, only a pending quantum counts. -/
theorem Sistema.quantumEnMarcha.pendiente
    (h : s.quantumEnMarcha)
    (htomado : s.temporizador ≠ .tomado)
    (hcuenta : s.temporizador ≠ .contando)
    (hcomprueba : s.temporizador ≠ .comprobando) :
    0 < s.kernel.semQuantum := by
  rcases h with hpending | ht | ⟨ht | ht, _⟩
  · exact hpending
  · exact absurd ht htomado
  · exact absurd ht hcuenta
  · exact absurd ht hcomprueba

/-- The timer raises an interruption: the quantum of the thread on the CPU is pending. -/
theorem ConQuantum.avisa
    (h : ConQuantum s r)
    (htomado : s.temporizador ≠ .tomado)
    (hcuenta : s.temporizador ≠ .contando)
    (hcomprueba : s.temporizador ≠ .comprobando)
    (hsem : s'.kernel.semQuantum = s.kernel.semQuantum)
    (hcpu : s'.enCpu ↔ s.enCpu) :
    ConQuantum s' r := by
  intro hcpu' hvencido
  obtain ⟨harmado, hmarcha⟩ := h (hcpu.mp hcpu') hvencido
  refine ⟨harmado, Or.inl ?_⟩
  rw [hsem]
  exact hmarcha.pendiente htomado hcuenta hcomprueba

/-- A guarded step leaves no thread on the CPU without a quantum. -/
theorem ConQuantum.paso
    (hcmn : cfg.schedulerAlgorithm = .cmn)
    (hlink : Enlace s r)
    (h : ConQuantum s r)
    (hcaso : CasoVigilado cfg s r a s' r')
    (hok : AgendaSiempre ⟨s, r⟩ a) :
    ConQuantum s' r' := by
  cases hcaso with
  | agenda _ _ _ _ hsem =>
      intro _ _
      refine ⟨by rw [if_pos hcmn], Or.inl ?_⟩
      rw [if_pos hcmn] at hsem
      simp only [hsem]
      omega
  | sigue hfase _ _ _ _ =>
      have hagenda := hok rfl
      simp [hfase, Fase.agenda] at hagenda
  | respuesta hrespuestas hfase _ _ _ _ =>
      obtain ⟨hdespachos, hlibre, _⟩ := hlink.sin_respuesta hfase hrespuestas
      rintro (hd | hc) _
      · exact absurd hdespachos hd
      · exact absurd hlibre hc
  | otro _ hreloj _ =>
      intro hcpu hvencido
      obtain ⟨harmado, hmarcha⟩ := h hcpu hvencido
      refine ⟨harmado, ?_⟩
      simp only [Sistema.quantumEnMarcha, hreloj.semQuantum, hreloj.quantumInterrupted]
      exact hmarcha
  | tomarQuantum _ _ =>
      intro hcpu hvencido
      obtain ⟨harmado, _⟩ := h hcpu hvencido
      exact ⟨harmado, Or.inr (Or.inl rfl)⟩
  | reiniciar _ =>
      intro hcpu hvencido
      obtain ⟨harmado, _⟩ := h hcpu hvencido
      exact ⟨harmado, Or.inr (Or.inr ⟨Or.inl rfl, rfl⟩)⟩
  | salirDelBucle hcuenta =>
      intro hcpu hvencido
      obtain ⟨harmado, hpending | ht | ⟨_, hflag⟩⟩ := h hcpu hvencido
      · exact ⟨harmado, Or.inl hpending⟩
      · rw [hcuenta] at ht
        cases ht
      · exact ⟨harmado, Or.inr (Or.inr ⟨Or.inr rfl, hflag⟩)⟩
  | interrumpido hcomprueba hflag =>
      -- the quantum that was interrupted is an older one: the last one is still pending
      intro hcpu hvencido
      obtain ⟨harmado, hpending | ht | ⟨_, hno⟩⟩ := h hcpu hvencido
      · exact ⟨harmado, Or.inl hpending⟩
      · rw [hcomprueba] at ht
        cases ht
      · rw [hflag] at hno
        cases hno
  | completado _ _ =>
      intro _ hvencido
      cases hvencido
  | pedirMutex ht =>
      exact h.avisa (by simp [ht]) (by simp [ht]) (by simp [ht]) rfl Iff.rfl
  | marcar ht =>
      exact h.avisa (by simp [ht]) (by simp [ht]) (by simp [ht]) rfl Iff.rfl
  | avisar ht =>
      exact h.avisa (by simp [ht]) (by simp [ht]) (by simp [ht]) rfl Iff.rfl
  | soltarMutex ht =>
      exact h.avisa (by simp [ht]) (by simp [ht]) (by simp [ht]) rfl Iff.rfl
  | recibir _ hdespachos =>
      intro _ hvencido
      exact h (Or.inl (by simp [hdespachos])) hvencido
  | instruccion hejecuta =>
      intro _ hvencido
      exact h (Or.inr (by simp [hejecuta])) hvencido
  | responder hejecuta =>
      obtain ⟨_, hdespachos, _⟩ := hlink.con_cpu (by rw [hejecuta]; rfl)
      rintro (hd | hc) _
      · exact absurd hdespachos hd
      · exact absurd rfl hc
  | interrumpir hchequea _ =>
      obtain ⟨_, hdespachos, _⟩ := hlink.con_cpu (by rw [hchequea]; rfl)
      rintro (hd | hc) _
      · exact absurd hdespachos hd
      · exact absurd rfl hc
  | seguir hchequea _ =>
      intro _ hvencido
      exact h (Or.inr (by simp [hchequea])) hvencido
  | _ =>
      exact h

/-- A thread that is dispatched again without a call of the scheduler has no quantum. -/
theorem sin_quantum
    (hlink : Enlace s r)
    (hcaso : CasoVigilado cfg s r a s' r')
    (hno : ¬ AgendaSiempre ⟨s, r⟩ a) :
    ¬ ConQuantum s' r' := by
  have hdespacha : a = .kernel .despachar ∧ s.kernel.fase.agenda = false := by
    simpa [AgendaSiempre] using hno
  obtain ⟨rfl, hagenda⟩ := hdespacha
  cases hcaso with
  | agenda hfase _ _ _ _ =>
      simp [hfase, Fase.agenda] at hagenda
  | sigue hfase _ _ _ _ =>
      intro hcon
      have harmado : r.armado = false := hlink.desarmado (by simp [hfase])
      have hcpu := hcon (Or.inl (by simp)) rfl
      rw [harmado] at hcpu
      exact absurd hcpu.1 (by decide)
  | otro hotro _ _ =>
      exact absurd rfl hotro

theorem conQuantum_encendido
    (cfg : Config μ) (memoria : μ) (path : List Char) (size : Nat) :
    ConQuantum (encendido cfg memoria path size).sistema
      (encendido cfg memoria path size).registro := by
  rintro (hd | hc) _
  · exact absurd rfl hd
  · exact absurd rfl hc

end Armado

/-- Under CMN, the runs in which the thread on the CPU always has a quantum are those in
which every dispatch follows a call of the scheduler. -/
theorem thread_on_cpu_has_quantum_iff
    {cfg : Config μ} {as : List Accion} {x : Vigilado μ}
    (hcmn : cfg.schedulerAlgorithm = .cmn) :
    AlcanzaQuantum cfg AgendaSiempre as x ↔
      AlcanzaQuantum cfg (fun a _ => ConQuantum a.sistema a.registro) as x ∧
        ConQuantum x.sistema x.registro := by
  apply AlcanzaQuantum.guarded_iff
  case hstart =>
    exact conQuantum_encendido cfg
  case hweak =>
    intro s r h
    exact h
  case hstep =>
    intro s s' r r' a hlink hcon hcaso hok
    exact hcon.paso hcmn hlink hcaso hok
  case hbad =>
    intro s s' r r' a hlink _ hcaso hno
    exact sin_quantum hlink hcaso hno

/-- The first thread runs, its quantum is counted, and it asks for IO. -/
theorem thread_on_cpu_has_quantum_io :
    ∃ as x, AlcanzaQuantum (siempreOk .cmn) AgendaSiempre as x ∧
      ConQuantum x.sistema x.registro := by
  have hrun : AlcanzaQuantum (siempreOk .cmn) AgendaSiempre
      [.kernel .despachar, .recibir, .tomarQuantum, .instruccion, .chequear, .reiniciar,
        .responder (.io 5), .kernel (.respuesta (.io 5)), .kernel .ioFin, .kernel .despachar,
        .salirDelBucle] _ :=
    ⟨(), [], 0, run_of_isSome (pasoVigilado (siempreOk .cmn)) id (by decide) (by decide)⟩
  exact ⟨_, _, hrun, ((thread_on_cpu_has_quantum_iff rfl).mp hrun).2⟩

/-- After a syscall that does not block the same thread is dispatched again, and nothing
starts a quantum for it. -/
theorem thread_runs_without_quantum :
    ¬ ∀ (as : List Accion) (x : Vigilado Unit),
      AlcanzaQuantum (siempreOk .cmn) anyLabel as x → ConQuantum x.sistema x.registro := by
  intro h
  have hrun : AlcanzaQuantum (siempreOk .cmn) anyLabel
      [.kernel .despachar, .recibir, .responder (.mutexCreate ['m'] 0),
        .kernel (.respuesta (.mutexCreate ['m'] 0)), .kernel .despachar] _ :=
    ⟨(), [], 0, run_of_isSome (pasoVigilado (siempreOk .cmn)) id (by decide) (by decide)⟩
  obtain ⟨harmado, _⟩ := h _ _ hrun (Or.inl (by decide)) (by decide)
  exact absurd harmado (by decide)

end Kernel
end SinIdeas
