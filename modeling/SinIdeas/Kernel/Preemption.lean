import SinIdeas.Kernel.QuantumSteps

/-!
# Whose quantum preempts

An interruption travels from the timer to a flag, from there to the sender, through the
interrupt connection to a flag of the CPU, and nothing takes it back when its thread
leaves the CPU. The CPU preempts only the thread whose quantum expired as long as a
thread is scheduled with no interruption on its way, and a quantum that is completed is
the last one that was started.
-/

namespace SinIdeas
namespace Kernel

open Lib

variable {μ : Type}

/-- The interruption that the timer is about to raise. -/
def Temporizador.marcas : Temporizador → List Marca
  | .completado marca => [marca]
  | .conMutex marca => [marca]
  | _ => []

/-- The interruption that the sender is about to send. -/
def Emisor.marcas : Emisor → List Marca
  | .eligio marca => [marca]
  | _ => []

/-- The interruptions on their way to the CPU. -/
def Sistema.enVuelo (s : Sistema μ) : List Marca :=
  s.temporizador.marcas ++ (s.quantumInterruption.toList ++ (s.emisor.marcas ++
    (s.conexionInterrupt ++ s.interrupcion.toList)))

/-- Where the answer to dispatch `n` is an interruption, it was raised for the quantum
that was started with the turn of that dispatch, and that quantum expired in that turn. -/
def PreemptaSuya (r : Registro) : Prop :=
  ∀ (n : Nat) (m : Marca), r.contestados[n]? = some (some m) →
    ∃ t, r.turnos[n]? = some t ∧ m = .quantum t t

/-- Only the thread whose quantum expired is preempted, and no interruption of an earlier
thread is on its way to the CPU. -/
structure SoloSuQuantum (s : Sistema μ) (r : Registro) : Prop where
  suyas : PreemptaSuya r
  enVuelo : ∀ m ∈ s.enVuelo, m = .quantum r.turno r.turno

/-- A thread is scheduled when no interruption is on its way, and the timer completes a
quantum when no other one has been started after it. -/
def SinRestos (x : Vigilado μ) (a : Accion) : Prop :=
  (a = .kernel .despachar → x.sistema.kernel.fase.agenda = true →
    x.sistema.enVuelo = []) ∧
  (a = .comprobar → x.sistema.kernel.quantumInterrupted = false →
    x.sistema.kernel.semQuantum = 0)

instance decidableSinRestos (x : Vigilado μ) (a : Accion) : Decidable (SinRestos x a) :=
  inferInstanceAs (Decidable
    ((a = .kernel .despachar → x.sistema.kernel.fase.agenda = true →
      x.sistema.enVuelo = []) ∧
    (a = .comprobar → x.sistema.kernel.quantumInterrupted = false →
      x.sistema.kernel.semQuantum = 0)))

/-- What holds of the quanta in every run: under CMN there is one for each turn, and
otherwise there is none; and nothing raises a kernel interruption. -/
structure Cuenta (cfg : Config μ) (s : Sistema μ) (r : Registro) : Prop where
  conCmn : cfg.schedulerAlgorithm = .cmn → s.kernel.semQuantum + r.tomados = r.turno
  sinCmn : cfg.schedulerAlgorithm ≠ .cmn →
    s.kernel.semQuantum = 0 ∧ s.temporizador = .espera
  sinKernel : s.kernelInterruption = false

section Marcas

variable {cfg : Config μ} {s s' : Sistema μ} {r r' : Registro} {a : Accion}

theorem Cuenta.paso
    (h : Cuenta cfg s r)
    (hcaso : CasoVigilado cfg s r a s' r') :
    Cuenta cfg s' r' := by
  have hespera : ∀ {t : Temporizador}, s.temporizador = t → t ≠ .espera →
      cfg.schedulerAlgorithm = .cmn := by
    intro t ht hno
    by_contra hcmn
    exact hno (ht.symm.trans (h.sinCmn hcmn).2)
  cases hcaso with
  | agenda _ _ _ _ hsem =>
      constructor
      case conCmn =>
        intro hcmn
        rw [if_pos hcmn] at hsem
        have hcuenta := h.conCmn hcmn
        simp only [hsem]
        omega
      case sinCmn =>
        intro hcmn
        rw [if_neg hcmn] at hsem
        exact ⟨hsem.trans (h.sinCmn hcmn).1, (h.sinCmn hcmn).2⟩
      case sinKernel =>
        exact h.sinKernel
  | sigue _ _ _ _ hsem =>
      exact ⟨fun hcmn => by simpa [hsem] using h.conCmn hcmn,
        fun hcmn => ⟨hsem.trans (h.sinCmn hcmn).1, (h.sinCmn hcmn).2⟩, h.sinKernel⟩
  | respuesta _ _ _ _ hsem _ =>
      exact ⟨fun hcmn => by simpa [hsem] using h.conCmn hcmn,
        fun hcmn => ⟨hsem.trans (h.sinCmn hcmn).1, (h.sinCmn hcmn).2⟩, h.sinKernel⟩
  | otro _ hreloj _ =>
      exact ⟨fun hcmn => by simpa [hreloj.semQuantum] using h.conCmn hcmn,
        fun hcmn => ⟨hreloj.semQuantum.trans (h.sinCmn hcmn).1, (h.sinCmn hcmn).2⟩,
        h.sinKernel⟩
  | tomarQuantum _ hsem =>
      constructor
      case conCmn =>
        intro hcmn
        have hcuenta := h.conCmn hcmn
        simp only [hsem] at hcuenta ⊢
        omega
      case sinCmn =>
        intro hcmn
        have hcero := (h.sinCmn hcmn).1
        omega
      case sinKernel =>
        exact h.sinKernel
  | reiniciar ht =>
      exact ⟨h.conCmn, fun hcmn => absurd (hespera ht (by simp)) hcmn, h.sinKernel⟩
  | salirDelBucle ht =>
      exact ⟨h.conCmn, fun hcmn => absurd (hespera ht (by simp)) hcmn, h.sinKernel⟩
  | interrumpido ht _ =>
      exact ⟨h.conCmn, fun hcmn => absurd (hespera ht (by simp)) hcmn, h.sinKernel⟩
  | completado ht _ =>
      exact ⟨h.conCmn, fun hcmn => absurd (hespera ht (by simp)) hcmn, h.sinKernel⟩
  | pedirMutex ht =>
      exact ⟨h.conCmn, fun hcmn => absurd (hespera ht (by simp)) hcmn, h.sinKernel⟩
  | marcar ht =>
      exact ⟨h.conCmn, fun hcmn => absurd (hespera ht (by simp)) hcmn, h.sinKernel⟩
  | avisar ht =>
      exact ⟨h.conCmn, fun hcmn => absurd (hespera ht (by simp)) hcmn, h.sinKernel⟩
  | soltarMutex ht =>
      exact ⟨h.conCmn, fun hcmn => absurd (hespera ht (by simp)) hcmn, h.sinKernel⟩
  | limpiarKernel _ =>
      exact ⟨h.conCmn, h.sinCmn, rfl⟩
  | _ =>
      exact ⟨h.conCmn, h.sinCmn, h.sinKernel⟩

/-- A dispatch is answered with the turn that is current. -/
theorem Enlace.turno_de_cpu
    (h : Enlace s r)
    (hcpu : s.cpu.ocupada = 1) :
    r.turnos[r.contestados.length]? = some r.turno := by
  obtain ⟨_, hdespachos, _⟩ := h.con_cpu hcpu
  have hcontados := h.contados
  simp only [hdespachos, List.length_nil, hcpu] at hcontados
  have hlast : r.turnos.getLast? = r.turnos[r.contestados.length]? := by
    rw [List.getLast?_eq_getElem?, hcontados]
    rfl
  have hlt : r.contestados.length < r.turnos.length := by omega
  have hultimo := h.ultimo
  rw [hlast, List.getElem?_eq_getElem hlt] at hultimo
  rw [List.getElem?_eq_getElem hlt, hultimo _ rfl]

/-- One more dispatch. -/
theorem PreemptaSuya.despachar
    {turno t : Nat} {armado vencido : Bool}
    (h : PreemptaSuya r) :
    PreemptaSuya { r with
      turno := turno
      turnos := r.turnos ++ [t]
      armado := armado
      vencido := vencido } := by
  intro n m hm
  obtain ⟨t', ht', hmarca⟩ := h n m hm
  refine ⟨t', ?_, hmarca⟩
  rw [List.getElem?_append_left (List.getElem?_eq_some_iff.mp ht').1]
  exact ht'

/-- One more answer. -/
theorem PreemptaSuya.contestar
    {o : Option Marca}
    (h : PreemptaSuya r)
    (ho : ∀ m, o = some m →
      ∃ t, r.turnos[r.contestados.length]? = some t ∧ m = .quantum t t) :
    PreemptaSuya { r with contestados := r.contestados ++ [o] } := by
  intro n m hm
  rcases lt_trichotomy n r.contestados.length with hlt | rfl | hgt
  · rw [List.getElem?_append_left hlt] at hm
    exact h n m hm
  · simp only [List.getElem?_concat_length, Option.some.injEq] at hm
    exact ho m hm
  · rw [List.getElem?_eq_none (by simp; omega)] at hm
    cases hm

/-- A step that raises nothing and starts no turn keeps every mark. -/
theorem SoloSuQuantum.mantiene
    (h : SoloSuQuantum s r)
    (hsuyas : PreemptaSuya r')
    (hturno : r'.turno = r.turno)
    (hsub : ∀ m ∈ s'.enVuelo, m ∈ s.enVuelo) :
    SoloSuQuantum s' r' := by
  refine ⟨hsuyas, ?_⟩
  intro m hm
  rw [hturno]
  exact h.enVuelo m (hsub m hm)

/-- A step that leaves the interruptions on their way where they are. -/
theorem SoloSuQuantum.quieto
    (h : SoloSuQuantum s r)
    (hsuyas : PreemptaSuya r')
    (hturno : r'.turno = r.turno)
    (htemporizador : s'.temporizador.marcas = s.temporizador.marcas)
    (hemisor : s'.emisor.marcas = s.emisor.marcas)
    (hbandera : s'.quantumInterruption = s.quantumInterruption)
    (hconexion : s'.conexionInterrupt = s.conexionInterrupt)
    (hcpu : s'.interrupcion = s.interrupcion) :
    SoloSuQuantum s' r' := by
  refine h.mantiene hsuyas hturno ?_
  intro m hm
  unfold Sistema.enVuelo at hm ⊢
  rwa [htemporizador, hemisor, hbandera, hconexion, hcpu] at hm

/-- A guarded step keeps the interruptions with their threads. -/
theorem SoloSuQuantum.paso
    (hlink : Enlace s r)
    (hcuenta : Cuenta cfg s r)
    (h : SoloSuQuantum s r)
    (hcaso : CasoVigilado cfg s r a s' r')
    (hok : SinRestos ⟨s, r⟩ a) :
    SoloSuQuantum s' r' := by
  cases hcaso with
  | agenda hfase _ _ _ _ =>
      refine ⟨h.suyas.despachar, ?_⟩
      intro m hm
      have hnada : s.enVuelo = [] := hok.1 rfl (by simp [hfase, Fase.agenda])
      have hvacio : m ∈ s.enVuelo := hm
      rw [hnada] at hvacio
      cases hvacio
  | sigue _ _ _ _ _ =>
      exact ⟨h.suyas.despachar, h.enVuelo⟩
  | respuesta _ _ _ _ _ _ =>
      exact ⟨h.suyas, h.enVuelo⟩
  | otro _ _ _ =>
      exact ⟨h.suyas, h.enVuelo⟩
  | tomarQuantum ht _ =>
      exact h.quieto h.suyas rfl (congrArg Temporizador.marcas ht).symm rfl rfl rfl rfl
  | reiniciar ht =>
      exact h.quieto h.suyas rfl (congrArg Temporizador.marcas ht).symm rfl rfl rfl rfl
  | salirDelBucle ht =>
      exact h.quieto h.suyas rfl (congrArg Temporizador.marcas ht).symm rfl rfl rfl rfl
  | interrumpido ht _ =>
      exact h.quieto h.suyas rfl (congrArg Temporizador.marcas ht).symm rfl rfl rfl rfl
  | completado ht hflag =>
      -- no later quantum is pending, so the one that is completed belongs to this turn
      have hcmn : cfg.schedulerAlgorithm = .cmn := by
        by_contra hno
        have hespera := (hcuenta.sinCmn hno).2
        rw [ht] at hespera
        cases hespera
      have htomados : r.tomados = r.turno := by
        have hsem : s.kernel.semQuantum = 0 := hok.2 rfl hflag
        have hconCmn := hcuenta.conCmn hcmn
        omega
      refine ⟨h.suyas, ?_⟩
      intro m hm
      simp only [Sistema.enVuelo, Temporizador.marcas, List.mem_append, List.mem_singleton] at hm
      rcases hm with rfl | hm
      · rw [htomados]
      · apply h.enVuelo
        simp only [Sistema.enVuelo, List.mem_append]
        exact Or.inr hm
  | pedirMutex ht =>
      exact h.quieto h.suyas rfl (congrArg Temporizador.marcas ht).symm rfl rfl rfl rfl
  | marcar ht =>
      refine h.mantiene h.suyas rfl ?_
      intro m hm
      simp only [Sistema.enVuelo, ht, Temporizador.marcas, Option.toList_some, List.mem_append,
        List.mem_singleton] at hm ⊢
      tauto
  | avisar ht =>
      exact h.quieto h.suyas rfl (congrArg Temporizador.marcas ht).symm rfl rfl rfl rfl
  | soltarMutex ht =>
      exact h.quieto h.suyas rfl (congrArg Temporizador.marcas ht).symm rfl rfl rfl rfl
  | despertarEmisor he =>
      exact h.quieto h.suyas rfl rfl (congrArg Emisor.marcas he).symm rfl rfl rfl
  | @elegir marca he helige =>
      refine h.mantiene h.suyas rfl ?_
      intro m hm
      rcases helige with hq | ⟨_, hk⟩
      · simp only [Sistema.enVuelo, hq, he, Emisor.marcas, Option.toList_some, List.mem_append,
          List.mem_singleton] at hm ⊢
        tauto
      · rw [hcuenta.sinKernel] at hk
        cases hk
  | nadaQueEnviar he =>
      exact h.quieto h.suyas rfl rfl (congrArg Emisor.marcas he).symm rfl rfl rfl
  | @enviar marca emisor he henviado =>
      refine h.mantiene h.suyas rfl ?_
      intro m hm
      have hnada : emisor.marcas = [] := by
        rcases henviado with rfl | rfl
        · rfl
        · rfl
      have hsuya : s.emisor.marcas = [marca] := by
        rw [he]
        rfl
      simp only [Sistema.enVuelo, hnada, hsuya, List.mem_append, List.mem_singleton,
        List.not_mem_nil, false_or] at hm ⊢
      tauto
  | pedirMutexEmisor he =>
      exact h.quieto h.suyas rfl rfl (congrArg Emisor.marcas he).symm rfl rfl rfl
  | limpiar he =>
      refine h.mantiene h.suyas rfl ?_
      intro m hm
      simp only [Sistema.enVuelo, he, Emisor.marcas, Option.toList_none, List.mem_append,
        List.not_mem_nil, false_or] at hm ⊢
      tauto
  | limpiarKernel he =>
      exact h.quieto h.suyas rfl rfl (congrArg Emisor.marcas he).symm rfl rfl rfl
  | soltarMutexEmisor he =>
      exact h.quieto h.suyas rfl rfl (congrArg Emisor.marcas he).symm rfl rfl rfl
  | escuchar hconexion =>
      refine h.mantiene h.suyas rfl ?_
      intro m hm
      simp only [Sistema.enVuelo, hconexion, Option.toList_some, List.mem_append, List.mem_cons,
        List.not_mem_nil, or_false] at hm ⊢
      tauto
  | recibir _ _ =>
      exact ⟨h.suyas, h.enVuelo⟩
  | instruccion _ =>
      exact ⟨h.suyas, h.enVuelo⟩
  | responder _ =>
      exact ⟨h.suyas.contestar (by simp), h.enVuelo⟩
  | @interrumpir pid tid marca hchequea hmarca =>
      have hpropia : marca = .quantum r.turno r.turno := by
        apply h.enVuelo
        simp [Sistema.enVuelo, hmarca]
      have hturno := hlink.turno_de_cpu (by rw [hchequea]; rfl)
      refine h.mantiene (h.suyas.contestar ?_) rfl ?_
      · intro m hm
        cases hm
        exact ⟨r.turno, hturno, hpropia⟩
      · intro m hm
        simp only [Sistema.enVuelo, Option.toList_none, List.mem_append, List.not_mem_nil,
          or_false] at hm ⊢
        tauto
  | seguir _ _ =>
      exact ⟨h.suyas, h.enVuelo⟩

/-- A step that is not guarded leaves an interruption of an earlier thread on its way. -/
theorem restos
    (hcuenta : Cuenta cfg s r)
    (h : SoloSuQuantum s r)
    (hcaso : CasoVigilado cfg s r a s' r')
    (hno : ¬ SinRestos ⟨s, r⟩ a) :
    ¬ SoloSuQuantum s' r' := by
  intro hbien
  cases hcaso with
  | agenda hfase _ _ _ _ =>
      apply hno
      refine ⟨?_, by simp⟩
      intro _ _
      apply List.eq_nil_iff_forall_not_mem.mpr
      intro m hm
      have hantes := h.enVuelo m hm
      have hdespues := hbien.enVuelo m hm
      rw [hantes, Marca.quantum.injEq] at hdespues
      exact absurd hdespues.1 (Nat.ne_of_lt (Nat.lt_succ_self r.turno))
  | sigue hfase _ _ _ _ =>
      exact hno ⟨by simp [hfase, Fase.agenda], by simp⟩
  | otro hotro _ _ =>
      exact hno ⟨by simp [hotro], by simp⟩
  | interrumpido _ hflag =>
      exact hno ⟨by simp, by simp [hflag]⟩
  | completado ht _ =>
      apply hno
      refine ⟨by simp, ?_⟩
      intro _ _
      by_cases hcmn : cfg.schedulerAlgorithm = .cmn
      · have hconCmn := hcuenta.conCmn hcmn
        have hmarca := hbien.enVuelo (.quantum r.tomados r.turno)
          (by simp [Sistema.enVuelo, Temporizador.marcas])
        rw [Marca.quantum.injEq] at hmarca
        have htomados : r.tomados = r.turno := hmarca.1
        change s.kernel.semQuantum = 0
        omega
      · exact (hcuenta.sinCmn hcmn).1
  | _ =>
      exact hno ⟨by simp, by simp⟩

theorem cuenta_encendido
    (cfg : Config μ) (memoria : μ) (path : List Char) (size : Nat) :
    Cuenta cfg (encendido cfg memoria path size).sistema
      (encendido cfg memoria path size).registro := by
  have hsem : (arranque cfg memoria path size).semQuantum = 0 :=
    (arranque_reloj cfg memoria path size).semQuantum
  exact ⟨fun _ => by simp [encendido, hsem, Registro.vacio], fun _ => ⟨hsem, rfl⟩, rfl⟩

theorem soloSuQuantum_encendido
    (cfg : Config μ) (memoria : μ) (path : List Char) (size : Nat) :
    SoloSuQuantum (encendido cfg memoria path size).sistema
      (encendido cfg memoria path size).registro := by
  constructor
  case suyas =>
    intro n m hm
    cases hm
  case enVuelo =>
    intro m hm
    cases hm

end Marcas

/-- The runs in which a quantum interruption only preempts, and is only on its way to,
the thread whose quantum expired are those in which a thread is scheduled with no
interruption on its way and only the last quantum is completed. -/
theorem interruption_preempts_its_thread_iff
    {cfg : Config μ} {as : List Accion} {x : Vigilado μ} :
    AlcanzaQuantum cfg SinRestos as x ↔
      AlcanzaQuantum cfg (fun a _ => SoloSuQuantum a.sistema a.registro) as x ∧
        SoloSuQuantum x.sistema x.registro := by
  apply AlcanzaQuantum.guarded_iff (S := fun s r => Cuenta cfg s r ∧ SoloSuQuantum s r)
  case hstart =>
    intro memoria path size
    exact ⟨cuenta_encendido cfg memoria path size, soloSuQuantum_encendido cfg memoria path size⟩
  case hweak =>
    intro s r h
    exact h.2
  case hstep =>
    rintro s s' r r' a hlink ⟨hcuenta, hsolo⟩ hcaso hok
    exact ⟨hcuenta.paso hcaso, hsolo.paso hlink hcuenta hcaso hok⟩
  case hbad =>
    rintro s s' r r' a _ ⟨hcuenta, hsolo⟩ hcaso hno
    exact restos hcuenta hsolo hcaso hno

/-- The quantum of the first process expires while it is at a syscall. It asks for IO and
the second process is scheduled; the interruption arrives then and preempts it. -/
theorem interruption_preempts_later_thread :
    ¬ ∀ (as : List Accion) (x : Vigilado Unit),
      AlcanzaQuantum (siempreOk .cmn) anyLabel as x → PreemptaSuya x.registro := by
  intro h
  have hrun : AlcanzaQuantum (siempreOk .cmn) anyLabel
      [.kernel .despachar, .recibir, .tomarQuantum, .responder (.processCreate [] 0 0),
        .kernel (.respuesta (.processCreate [] 0 0)), .kernel .despachar, .recibir, .reiniciar,
        .salirDelBucle, .comprobar, .responder (.io 5), .kernel (.respuesta (.io 5)),
        .kernel .despachar, .recibir, .pedirMutex, .marcar, .avisar, .despertarEmisor, .elegir,
        .enviar, .escuchar, .instruccion, .chequear] _ :=
    ⟨(), [], 0, run_of_isSome (pasoVigilado (siempreOk .cmn)) id (by decide) (by decide)⟩
  obtain ⟨t, ht, hmarca⟩ := h _ _ hrun 2 (.quantum 1 1) (by decide)
  cases hmarca
  exact absurd ht (by decide)

end Kernel
end SinIdeas
