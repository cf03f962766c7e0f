import SinIdeas.Cpu.Ports
import SinIdeas.Cpu.ReturnMessage
import SinIdeas.PrivateProcess
import SinIdeas.Residency

/-!
# The whole system

The kernel, memoria and the CPU together. The dispatcher sends a TCB on the dispatch
connection and waits for a message on it; the CPU takes the TCB, asks memoria for its
context, executes and sends one message; the I/O device and the threads of the dumps work
in between. Whatever the order, exactly one of the two sides has the control, the resident
processes are the active ones and their partitions the occupied ones.
-/

namespace SinIdeas

open Lib Memoria
open Kernel (Hilo Reside Residentes pidsDisponibles paso)

/-- Memoria and the CPU as the kernel finds them, with what has happened there. -/
structure Anotada where
  maquina : Maquina
  hechos : List Hecho

/-- After a request of the kernel. -/
def Anotada.pedido (a : Anotada) (p : Peticion) (g : Globals) : Anotada where
  maquina := { a.maquina with memoria := g }
  hechos := a.hechos ++ [.pedido p]

/-- The requests of the kernel, answered by memoria. -/
def conectada (cfg : Config) (alg : Kernel.SchedulerAlgorithm) : Kernel.Config Anotada where
  schedulerAlgorithm := alg
  createProcessMemory a pid size :=
    let r := verificarEspacioYCrearProceso cfg a.maquina.memoria (.ofNat pid) (.ofNat size)
    (a.pedido (.processCreate (.ofNat pid) (.ofNat size)) r.1, r.2)
  createThreadMemory a t :=
    let r := verificarYAgregarHilo a.maquina.memoria (.ofNat t.parentPid) (.ofNat t.tid) t.filePath
    (a.pedido (.threadCreate (.ofNat t.parentPid) (.ofNat t.tid) t.filePath) r.1, r.2)
  deleteProcessMemory a pid _ :=
    (a.pedido (.processExit (.ofNat pid)) (eliminarProcesoMem cfg a.maquina.memoria (.ofNat pid)),
      true)
  deleteThreadMemory a t :=
    (a.pedido (.threadExit (.ofNat t.parentPid) (.ofNat t.tid))
      (eliminarHiloMem cfg a.maquina.memoria (.ofNat t.parentPid) (.ofNat t.tid)), true)

/-- The kernel with the machine that it dispatches to; the TCBs that are on their way, and how
many of the messages of the CPU the dispatcher has read. -/
structure Computadora where
  kernel : Kernel.Globals Anotada
  enviados : List (UInt32 × UInt32)
  leidos : Nat

/-- Memoria and the CPU. -/
abbrev Computadora.maquina (s : Computadora) : Maquina := s.kernel.memoria.maquina

/-- Who takes the next step: a thread of the kernel, the dispatcher with the next message,
or the CPU, which takes a TCB or executes an instruction. -/
inductive Turno where
  | kernel (e : Kernel.Evento)
  | responde
  | recibe
  | vuelta (interrupcion : Bool)

/-- The event of the kernel that it is. Messages come from the CPU only. -/
def Computadora.evento (s : Computadora) : Turno → Option Kernel.Evento
  | .kernel (.respuesta _) => none
  | .kernel e => some e
  | .responde => (s.maquina.kernel[s.leidos]?).map (fun m => .respuesta (m.map UInt32.toNat))
  | .recibe => none
  | .vuelta _ => none

/-- What it is for the machine. -/
def Computadora.hecho (s : Computadora) : Turno → Option Hecho
  | .recibe => s.enviados.head?.map (fun i => .dispatch i.1 i.2)
  | .vuelta interrupcion => s.maquina.cpu.map (fun c => .vuelta c.pid c.tid interrupcion)
  | _ => none

/-- A step of the kernel: a dispatch sends the TCB, and a message is read. -/
def Computadora.trasKernel (s : Computadora) (e : Kernel.Evento) (k : Kernel.Globals Anotada) :
    Computadora where
  kernel := k
  enviados :=
    match e with
    | .despachar => s.enviados ++ k.fase.corriendo.toList.map Hilo.clave
    | _ => s.enviados
  leidos :=
    match e with
    | .respuesta _ => s.leidos + 1
    | _ => s.leidos

/-- A step of the machine: a dispatch takes the TCB. -/
def Computadora.trasMaquina (s : Computadora) (h : Hecho) (m : Maquina) : Computadora where
  kernel := { s.kernel with memoria := { maquina := m, hechos := s.kernel.memoria.hechos ++ [h] } }
  enviados :=
    match h with
    | .dispatch _ _ => s.enviados.tail
    | _ => s.enviados
  leidos := s.leidos

/-- A step of the system. -/
def pasoComputadora (cfg : Config) (alg : Kernel.SchedulerAlgorithm) (s : Computadora) (t : Turno) :
    Option Computadora :=
  match s.evento t with
  | some e => (paso (conectada cfg alg) s.kernel e).map (s.trasKernel e)
  | none => do
      let h ← s.hecho t
      let m ← pasoMaquina cfg s.maquina h
      some (s.trasMaquina h m)

/-- The start: the first process, in a memoria that has just started. -/
def Computadora.inicio (cfg : Config) (alg : Kernel.SchedulerAlgorithm) (path : List Char)
    (size : Nat) : Computadora where
  kernel := Kernel.arranque (conectada cfg alg) { maquina := Maquina.inicio cfg, hechos := [] } path
    size
  enviados := []
  leidos := 0

/-- A run of the system. -/
abbrev CorreComputadora (cfg : Config) (alg : Kernel.SchedulerAlgorithm)
    (ok : Computadora → Turno → Prop) (s : Computadora) (turnos : List Turno)
    (t : Computadora) : Prop :=
  Run (fun a e b => pasoComputadora cfg alg a e = some b) ok s turnos t

/-- What memoria has of the processes. -/
def Anotada.residencia (a : Anotada) : Kernel.Residencia := Memoria.residencia a.maquina.memoria

/-- No PID twice in the table, and `J`. -/
def SinRepetidos (J : Anotada → Prop) (a : Anotada) : Prop :=
  (a.maquina.memoria.memoryProcessList.map MemPcb.pid).Nodup ∧ J a

/-- `J` is kept by the requests of the kernel, which create processes with new PIDs. -/
def Mantiene (cfg : Config) (J : Anotada → Prop) : Prop :=
  ∀ a p g, SinRepetidos J a → p.deCpu = false →
    (∀ pid size, p = .processCreate pid size →
      buscarProcesoPorPid a.maquina.memoria pid = none ∧ pid ≠ pidLibre) →
    atiende cfg a.maquina.memoria p = some g → J (a.pedido p g)

section Requests

variable {cfg : Config} {alg : Kernel.SchedulerAlgorithm} {J : Anotada → Prop}

/-- One request of the kernel: the table has no PID twice and `J` holds. -/
theorem Mantiene.pedido
    {a : Anotada} {p : Peticion} {g : Globals}
    (hperm : ∀ l, (cfg.listSort ordenarPorBase l).Perm l)
    (hJ : Mantiene cfg J)
    (ha : SinRepetidos J a)
    (hkernel : p.deCpu = false)
    (hnew : ∀ pid size, p = .processCreate pid size →
      buscarProcesoPorPid a.maquina.memoria pid = none ∧ pid ≠ pidLibre)
    (hstep : atiende cfg a.maquina.memoria p = some g) :
    SinRepetidos J (a.pedido p g) := by
  obtain ⟨l, hefecto, hl⟩ := efectoTabla_of_atiende hperm hstep
  refine ⟨?_, hJ a p g ha hkernel hnew hstep⟩
  exact ((hl.map MemPcb.pid).nodup_iff).mpr
    (hefecto.pids ha.1 (fun pid size hp => (hnew pid size hp).1))

/-- Memoria answers as the kernel counts on. -/
theorem reside_conectada
    (hperm : ∀ l, (cfg.listSort ordenarPorBase l).Perm l)
    (hesq : cfg.esquema ≠ .otro)
    (hJ : Mantiene cfg J) :
    Reside (conectada cfg alg) Anotada.residencia (SinRepetidos J) where
  crear := by
    intro a pid size ha hpid hout
    have hfresh : buscarProcesoPorPid a.maquina.memoria (.ofNat pid) = none := by
      rwa [Anotada.residencia, mem_procesos, Bool.not_eq_true, Option.isSome_eq_false_iff,
        Option.isNone_iff_eq_none] at hout
    have hlibre : UInt32.ofNat pid ≠ pidLibre := by
      intro heq
      have hnat := congrArg UInt32.toNat heq
      rw [UInt32.toNat_ofNat_of_lt' (hpid.trans (by decide))] at hnat
      exact absurd hnat (Nat.ne_of_lt hpid)
    refine ⟨hJ.pedido hperm ha rfl ?_ rfl, residencia_verificarEspacio hperm hesq _ _ _⟩
    rintro _ _ ⟨rfl, rfl⟩
    exact ⟨hfresh, hlibre⟩
  agregar := by
    intro a t ha
    obtain ⟨hok, hres⟩ := residencia_agregarHilo a.maquina.memoria (.ofNat t.parentPid)
      (.ofNat t.tid) t.filePath
    exact ⟨hJ.pedido hperm ha rfl (by simp) rfl, hok, hres⟩
  borrar := by
    intro a pid _ ha
    exact ⟨hJ.pedido hperm ha rfl (by simp) rfl, residencia_eliminarProceso hperm ha.1 _⟩
  quitar := by
    intro a t ha
    exact ⟨hJ.pedido hperm ha rfl (by simp) rfl, residencia_eliminarHilo hperm ha.1 _ _⟩

/-- What a step of the kernel keeps, if each of its requests does. -/
theorem residentes_kernel
    {s : Computadora} {e : Kernel.Evento} {k : Kernel.Globals Anotada}
    (hperm : ∀ l, (cfg.listSort ordenarPorBase l).Perm l)
    (hesq : cfg.esquema ≠ .otro)
    (hJ : Mantiene cfg J)
    (h : Residentes Anotada.residencia (SinRepetidos (fun _ => True)) s.kernel)
    (hj : J s.kernel.memoria)
    (hpids : k.globalPid ≤ pidsDisponibles)
    (hstep : paso (conectada cfg alg) s.kernel e = some k) :
    Residentes Anotada.residencia (SinRepetidos (fun _ => True)) k ∧ J k.memoria := by
  have hstart : Residentes Anotada.residencia (SinRepetidos J) s.kernel :=
    { h with memoria := ⟨h.memoria.1, hj⟩ }
  have hend := hstart.paso (reside_conectada hperm hesq hJ) hpids hstep
  exact ⟨{ hend with memoria := ⟨hend.memoria.1, trivial⟩ }, hend.memoria.2⟩

theorem mantiene_cuadra
    (hperm : ∀ l, (cfg.listSort ordenarPorBase l).Perm l) :
    Mantiene cfg (fun a => Cuadra cfg a.maquina.memoria) := by
  rintro a p g ⟨hpids, hcuadra⟩ hkernel hnew hstep
  cases p with
  | processCreate pid size =>
      obtain rfl := Option.some.inj hstep
      exact hcuadra.crear hperm (hnew pid size rfl).2
  | processExit pid =>
      obtain rfl := Option.some.inj hstep
      exact hcuadra.eliminarProceso hperm pid
  | threadCreate pid tid filePath =>
      obtain rfl := Option.some.inj hstep
      obtain ⟨-, hres⟩ := residencia_agregarHilo a.maquina.memoria pid tid filePath
      refine hcuadra.of_procesos ?_ ?_
      · refine (congrArg Kernel.Residencia.procesos hres).trans ?_
        split_ifs <;> rfl
      · simp only [Anotada.pedido, verificarYAgregarHilo]
        split <;> rfl
  | threadExit pid tid =>
      obtain rfl := Option.some.inj hstep
      exact hcuadra.eliminarHilo hperm hpids pid tid
  | _ => cases hkernel

end Requests

/-- How many threads the CPU has taken. -/
def despachos (hechos : List Hecho) : Nat :=
  hechos.countP (fun h => match h with
    | .dispatch _ _ => true
    | _ => false)

/-- Who has the control: the kernel between two dispatches; a TCB on its way; the CPU, with
the thread that was dispatched; its message, not yet read; or nobody, when the loop of the
CPU was left without a message. -/
inductive Control (s : Computadora) : Prop
  | planifica :
      s.kernel.fase.ejecutando? = none →
      s.enviados = [] →
      s.maquina.cpu = none →
      s.leidos = s.maquina.kernel.length →
      despachos s.kernel.memoria.hechos = s.leidos →
      Control s
  | enViaje (p : Kernel.Tcb) :
      s.kernel.fase = .ejecutando p →
      s.enviados = [p.hilo.clave] →
      s.maquina.cpu = none →
      s.leidos = s.maquina.kernel.length →
      despachos s.kernel.memoria.hechos = s.leidos →
      Control s
  | enCpu (p : Kernel.Tcb) (c : ExecutionContext) :
      s.kernel.fase = .ejecutando p →
      s.enviados = [] →
      s.maquina.cpu = some c →
      (c.pid, c.tid) = p.hilo.clave →
      s.leidos = s.maquina.kernel.length →
      despachos s.kernel.memoria.hechos = s.leidos + 1 →
      Control s
  | responde (p : Kernel.Tcb) :
      s.kernel.fase = .ejecutando p →
      s.enviados = [] →
      s.maquina.cpu = none →
      s.leidos + 1 = s.maquina.kernel.length →
      despachos s.kernel.memoria.hechos = s.leidos + 1 →
      Control s
  | callada (p : Kernel.Tcb) :
      s.kernel.fase = .ejecutando p →
      s.enviados = [] →
      s.maquina.cpu = none →
      s.leidos = s.maquina.kernel.length →
      despachos s.kernel.memoria.hechos = s.leidos + 1 →
      Control s

section Steps

variable {cfg : Config} {alg : Kernel.SchedulerAlgorithm} {s s' : Computadora} {t : Turno}
  {e : Kernel.Evento} {k : Kernel.Globals Anotada} {h : Hecho} {m : Maquina}

/-- A step is an event of the kernel or something that happens on the machine. -/
theorem pasoComputadora_cases
    (hstep : pasoComputadora cfg alg s t = some s') :
    (∃ e k, s.evento t = some e ∧ paso (conectada cfg alg) s.kernel e = some k ∧
      s' = s.trasKernel e k) ∨
    (∃ h m, s.evento t = none ∧ s.hecho t = some h ∧ pasoMaquina cfg s.maquina h = some m ∧
      s' = s.trasMaquina h m) := by
  unfold pasoComputadora at hstep
  cases hevento : s.evento t with
  | some e =>
      rw [hevento] at hstep
      obtain ⟨k, hk, rfl⟩ := Option.map_eq_some_iff.mp hstep
      exact Or.inl ⟨e, k, rfl, hk, rfl⟩
  | none =>
      rw [hevento] at hstep
      obtain ⟨h, hhecho, hstep⟩ := Option.bind_eq_some_iff.mp hstep
      obtain ⟨m, hm, hs'⟩ := Option.bind_eq_some_iff.mp hstep
      cases hs'
      exact Or.inr ⟨h, m, rfl, hhecho, hm, rfl⟩

/-- An event that is a message is the next one of the CPU. -/
theorem evento_respuesta
    {mensaje : Mensaje Nat}
    (hevento : s.evento t = some (.respuesta mensaje)) :
    t = .responde ∧ ∃ m', s.maquina.kernel[s.leidos]? = some m' ∧
      mensaje = m'.map UInt32.toNat := by
  cases t with
  | kernel e =>
      cases e <;> cases hevento
  | responde =>
      obtain ⟨m', hm', heq⟩ := Option.map_eq_some_iff.mp hevento
      cases heq
      exact ⟨rfl, m', hm', rfl⟩
  | recibe =>
      cases hevento
  | vuelta interrupcion =>
      cases hevento

/-- What the machine of the CPU does not know of a step of the kernel. -/
theorem mantiene_cpu
    (cpu : Option ExecutionContext) (mensajes : List (Mensaje UInt32)) (n : Nat) :
    Mantiene cfg (fun a => a.maquina.cpu = cpu ∧ a.maquina.kernel = mensajes ∧
      despachos a.hechos = n) := by
  rintro a p g ⟨-, hcpu, hkernel, hn⟩ _ _ _
  refine ⟨hcpu, hkernel, ?_⟩
  simpa [Anotada.pedido, despachos] using hn

/-- The dispatcher works: nothing is on its way. -/
theorem Control.despachador
    (hcontrol : Control s)
    (hfase : s.kernel.fase.ejecutando? = none) :
    s.enviados = [] ∧ s.maquina.cpu = none ∧ s.leidos = s.maquina.kernel.length ∧
      despachos s.kernel.memoria.hechos = s.leidos := by
  cases hcontrol with
  | planifica _ henv hlibre hlen hn => exact ⟨henv, hlibre, hlen, hn⟩
  | enViaje p hp _ _ _ _ => simp [hp, Kernel.Fase.ejecutando?] at hfase
  | enCpu p c hp _ _ _ _ _ => simp [hp, Kernel.Fase.ejecutando?] at hfase
  | responde p hp _ _ _ _ => simp [hp, Kernel.Fase.ejecutando?] at hfase
  | callada p hp _ _ _ _ => simp [hp, Kernel.Fase.ejecutando?] at hfase

/-- A TCB that is on its way is the only one, and the dispatcher waits for its thread. -/
theorem Control.envio
    {i : UInt32 × UInt32} {resto : List (UInt32 × UInt32)}
    (hcontrol : Control s)
    (henviados : s.enviados = i :: resto) :
    ∃ p, s.kernel.fase = .ejecutando p ∧ i = p.hilo.clave ∧ resto = [] ∧ s.maquina.cpu = none ∧
      s.leidos = s.maquina.kernel.length ∧ despachos s.kernel.memoria.hechos = s.leidos := by
  cases hcontrol with
  | planifica _ hnil _ _ _ => simp [hnil] at henviados
  | enCpu p c _ hnil _ _ _ _ => simp [hnil] at henviados
  | responde p _ hnil _ _ _ => simp [hnil] at henviados
  | callada p _ hnil _ _ _ => simp [hnil] at henviados
  | enViaje p hp henv hlibre hlen hn =>
      rw [henv] at henviados
      obtain ⟨rfl, rfl⟩ := List.cons_eq_cons.mp henviados
      exact ⟨p, hp, rfl, rfl, hlibre, hlen, hn⟩

/-- The CPU works: it has the thread that the dispatcher waits for. -/
theorem Control.cpu
    {c : ExecutionContext}
    (hcontrol : Control s)
    (hcpu : s.maquina.cpu = some c) :
    ∃ p, s.kernel.fase = .ejecutando p ∧ s.enviados = [] ∧ (c.pid, c.tid) = p.hilo.clave ∧
      s.leidos = s.maquina.kernel.length ∧
      despachos s.kernel.memoria.hechos = s.leidos + 1 := by
  cases hcontrol with
  | planifica _ _ hlibre _ _ => simp [hlibre] at hcpu
  | enViaje p _ _ hlibre _ _ => simp [hlibre] at hcpu
  | responde p _ _ hlibre _ _ => simp [hlibre] at hcpu
  | callada p _ _ hlibre _ _ => simp [hlibre] at hcpu
  | enCpu p c' hp henv hc hclave hlen hn =>
      obtain rfl := Option.some.inj (hcpu.symm.trans hc)
      exact ⟨p, hp, henv, hclave, hlen, hn⟩

/-- A message that has not been read is the only one. -/
theorem Control.mensaje
    (hcontrol : Control s)
    (hlt : s.leidos < s.maquina.kernel.length) :
    s.enviados = [] ∧ s.maquina.cpu = none ∧ s.leidos + 1 = s.maquina.kernel.length ∧
      despachos s.kernel.memoria.hechos = s.leidos + 1 := by
  cases hcontrol with
  | planifica _ _ _ hlen _ => omega
  | enViaje p _ _ _ hlen _ => omega
  | enCpu p c _ _ _ _ hlen _ => omega
  | responde p _ henv hlibre hlen hn => exact ⟨henv, hlibre, hlen, hn⟩
  | callada p _ _ _ hlen _ => omega

/-- Only a dispatch sends a TCB. -/
theorem enviados_trasKernel
    (s : Computadora) (k : Kernel.Globals Anotada)
    (hdespacho : e ≠ .despachar) :
    (s.trasKernel e k).enviados = s.enviados := by
  cases e <;> first | rfl | exact absurd rfl hdespacho

/-- Only a message is read. -/
theorem leidos_trasKernel
    (s : Computadora) (k : Kernel.Globals Anotada)
    (hmensaje : ∀ m, e ≠ .respuesta m) :
    (s.trasKernel e k).leidos = s.leidos := by
  cases e <;> first | rfl | exact absurd rfl (hmensaje _)

/-- A step of the kernel passes the control on or leaves it where it is. -/
theorem Control.trasKernel
    (hcontrol : Control s)
    (hviejos : s.kernel.listaTcbsBlockeados = [])
    (hevento : s.evento t = some e)
    (hstep : paso (conectada cfg alg) s.kernel e = some k)
    (hmaquina : k.memoria.maquina.cpu = s.maquina.cpu ∧
      k.memoria.maquina.kernel = s.maquina.kernel ∧
      despachos k.memoria.hechos = despachos s.kernel.memoria.hechos) :
    Control (s.trasKernel e k) := by
  obtain ⟨hcpu, hmensajes, hdespachos⟩ := hmaquina
  -- where the dispatcher does nothing, nothing changes hands
  have haparte : (∀ m, e ≠ .respuesta m) → e ≠ .despachar → k.fase = s.kernel.fase →
      Control (s.trasKernel e k) := by
    intro hmensaje hdespacho hfase
    have henviados := enviados_trasKernel s k hdespacho
    have hleidos := leidos_trasKernel s k hmensaje
    cases hcontrol with
    | planifica hno henv hlibre hlen hn =>
        exact .planifica (by rwa [← hfase] at hno) (henviados.trans henv) (hcpu.trans hlibre)
          (by rw [hleidos, hlen]; exact congrArg _ hmensajes.symm)
          (hdespachos.trans (hn.trans hleidos.symm))
    | enViaje p hp henv hlibre hlen hn =>
        exact .enViaje p (hfase.trans hp) (henviados.trans henv) (hcpu.trans hlibre)
          (by rw [hleidos, hlen]; exact congrArg _ hmensajes.symm)
          (hdespachos.trans (hn.trans hleidos.symm))
    | enCpu p c hp henv hc hclave hlen hn =>
        exact .enCpu p c (hfase.trans hp) (henviados.trans henv) (hcpu.trans hc) hclave
          (by rw [hleidos, hlen]; exact congrArg _ hmensajes.symm)
          (by rw [hleidos]; exact hdespachos.trans hn)
    | responde p hp henv hlibre hlen hn =>
        exact .responde p (hfase.trans hp) (henviados.trans henv) (hcpu.trans hlibre)
          (by rw [hleidos, hlen]; exact congrArg _ hmensajes.symm)
          (by rw [hleidos]; exact hdespachos.trans hn)
    | callada p hp henv hlibre hlen hn =>
        exact .callada p (hfase.trans hp) (henviados.trans henv) (hcpu.trans hlibre)
          (by rw [hleidos, hlen]; exact congrArg _ hmensajes.symm)
          (by rw [hleidos]; exact hdespachos.trans hn)
  -- the events of the kernel between two dispatches
  have hplanifica : s.kernel.fase.ejecutando? = none → k.fase.ejecutando? = none →
      (∀ m, e ≠ .respuesta m) → e ≠ .despachar → Control (s.trasKernel e k) := by
    intro hantes hdespues hmensaje hdespacho
    have hleidos := leidos_trasKernel s k hmensaje
    obtain ⟨henv, hlibre, hlen, hn⟩ := hcontrol.despachador hantes
    exact .planifica hdespues ((enviados_trasKernel s k hdespacho).trans henv)
      (hcpu.trans hlibre) (by rw [hleidos, hlen]; exact congrArg _ hmensajes.symm)
      (hdespachos.trans (hn.trans hleidos.symm))
  cases e with
  | despachar =>
      obtain ⟨seguir, previo, proximo, k₁, hfase, _, rfl, hcases⟩ :=
        Kernel.despachar_cases hstep
      obtain ⟨henv, hlibre, hlen, hn⟩ := hcontrol.despachador (by rw [hfase]; rfl)
      refine .enViaje proximo rfl ?_ (hcpu.trans hlibre) ?_ (hdespachos.trans hn)
      · simp [Computadora.trasKernel, henv, Kernel.Fase.corriendo]
      · exact hlen.trans (congrArg _ hmensajes.symm)
  | respuesta mensaje =>
      obtain ⟨rfl, m', hm', rfl⟩ := evento_respuesta hevento
      obtain ⟨proximo, pid, _, _, hsyscall⟩ := Kernel.atenderMensaje_cases hstep
      have hfase : k.fase.ejecutando? = none := by
        rcases (Kernel.atenderSyscall_fase hsyscall).1 with ⟨seguir, hfase⟩ | ⟨causa, hk, _⟩
        · rw [hfase]
          rfl
        · rw [hk]
          rfl
      obtain ⟨henv, hlibre, hlen, hn⟩ :=
        hcontrol.mensaje (List.getElem?_eq_some_iff.mp hm').1
      exact .planifica hfase henv (hcpu.trans hlibre)
        (hlen.trans (congrArg _ hmensajes.symm)) (hdespachos.trans hn)
  | seguirFin =>
      rcases Kernel.seguirFin_cases hstep with
        ⟨causa, proximo, i, pid, k₁, avance, hfase, _, _, hcases⟩ |
        ⟨causa, proximo, i, pid, k₁, hfase, _, _, rfl⟩
      · refine hplanifica (by rw [hfase]; rfl) ?_ (by simp) (by simp)
        rcases hcases with ⟨_, rfl⟩ | ⟨_, rfl⟩ | ⟨_, rfl⟩
        · rfl
        · rfl
        · rfl
      · exact hplanifica (by rw [hfase]; rfl) rfl (by simp) (by simp)
  | ioFin =>
      obtain ⟨-, -, hmisma⟩ := Kernel.mueve_ioFin (fun _ _ => True) trivial trivial hstep
      exact haparte (by simp) (by simp) hmisma.1
  | dumpRespuesta j r =>
      obtain ⟨-, -, hmisma⟩ :=
        Kernel.mueve_dumpRespuesta (fun _ _ => True) trivial trivial trivial hstep
      exact haparte (by simp) (by simp) hmisma.1
  | dumpSeguir j =>
      obtain ⟨-, -, -, hmisma⟩ := Kernel.mueve_dumpSeguir hviejos hstep
      exact haparte (by simp) (by simp) hmisma.1

/-- A round, from outside: what the loop does to the connections. -/
theorem vuelta_spec
    {a b : Maquina} {pid tid : UInt32} {interrupcion : Bool}
    (hstep : pasoMaquina cfg a (.vuelta pid tid interrupcion) = some b) :
    ∃ c conexiones, a.cpu = some c ∧
      Cpu.vuelta (handleClient cfg) interrupcion c ⟨a.memoria, a.kernel⟩ =
        some (conexiones, b.cpu) ∧
      b.memoria = conexiones.memoria ∧ b.kernel = conexiones.kernel := by
  obtain ⟨c, hcpu, hres⟩ := Option.bind_eq_some_iff.mp hstep
  split_ifs at hres
  obtain ⟨⟨conexiones, c'⟩, hvuelta, hres⟩ := Option.bind_eq_some_iff.mp hres
  cases hres
  exact ⟨c, conexiones, hcpu, hvuelta, rfl, rfl⟩

/-- The CPU changes neither the residency nor the partitions. -/
theorem conserva_residencia
    (cfg : Config) (r : Kernel.Residencia) (l : List MemPartition) :
    Cpu.Conserva (handleClient cfg) (fun g => residencia g = r ∧ g.partitionList = l) := by
  rintro g p g' respuesta ⟨hres, hlist⟩ hcpu hstep
  have hatiende : atiende cfg g p = some g' := by
    rw [atiende, hstep]
    rfl
  obtain ⟨hres', hlist'⟩ := residencia_deCpu hcpu hatiende
  exact ⟨hres'.trans hres, hlist'.trans hlist⟩

/-- What happens on the machine between two requests of the kernel. -/
theorem hecho_cases
    (hhecho : s.hecho t = some h) :
    (t = .recibe ∧ ∃ i resto, s.enviados = i :: resto ∧ h = .dispatch i.1 i.2) ∨
    (∃ c interrupcion, t = .vuelta interrupcion ∧ s.maquina.cpu = some c ∧
      h = .vuelta c.pid c.tid interrupcion) := by
  cases t with
  | kernel e =>
      cases hhecho
  | responde =>
      cases hhecho
  | recibe =>
      obtain ⟨i, hi, rfl⟩ := Option.map_eq_some_iff.mp hhecho
      obtain ⟨resto, hresto⟩ := List.head?_eq_some_iff.mp hi
      exact Or.inl ⟨rfl, i, resto, hresto, rfl⟩
  | vuelta interrupcion =>
      obtain ⟨c, hc, rfl⟩ := Option.map_eq_some_iff.mp hhecho
      exact Or.inr ⟨c, interrupcion, rfl, hc, rfl⟩

theorem residencia_trasMaquina
    (hhecho : s.hecho t = some h)
    (hstep : pasoMaquina cfg s.maquina h = some m) :
    residencia m.memoria = residencia s.maquina.memoria ∧
      m.memoria.partitionList = s.maquina.memoria.partitionList := by
  rcases hecho_cases hhecho with ⟨_, i, resto, _, rfl⟩ | ⟨c, interrupcion, _, _, rfl⟩
  · obtain ⟨-, p, hilo, -, -, rfl⟩ := dispatch_spec hstep
    exact ⟨rfl, rfl⟩
  · obtain ⟨c', conexiones, -, hvuelta, hmem, -⟩ := vuelta_spec hstep
    obtain ⟨hsame, -⟩ := (conserva_residencia cfg _ _).vuelta ⟨rfl, rfl⟩ hvuelta
    rw [hmem]
    exact hsame

/-- A step of the machine passes the control on or keeps it. -/
theorem Control.trasMaquina
    (hcontrol : Control s)
    (hhecho : s.hecho t = some h)
    (hstep : pasoMaquina cfg s.maquina h = some m) :
    Control (s.trasMaquina h m) := by
  have hcuenta : ∀ n, despachos s.kernel.memoria.hechos = n →
      despachos (s.kernel.memoria.hechos ++ [h]) =
        n + (match h with | .dispatch _ _ => 1 | _ => 0) := by
    rintro n rfl
    cases h <;> simp [despachos]
  rcases hecho_cases hhecho with ⟨rfl, i, resto, henv, rfl⟩ | ⟨c, interrupcion, rfl, hcpu, rfl⟩
  · obtain ⟨hlibre, p, hilo, -, -, rfl⟩ := dispatch_spec hstep
    obtain ⟨q, hq, rfl, rfl, -, hlen, hn⟩ := hcontrol.envio henv
    exact .enCpu q _ hq (by simp [Computadora.trasMaquina, henv]) rfl rfl hlen (hcuenta _ hn)
  · obtain ⟨q, hq, hnil, hclave, hlen, hn⟩ := hcontrol.cpu hcpu
    obtain ⟨c', conexiones, hc', hvuelta, hmem, hkernel⟩ := vuelta_spec hstep
    obtain rfl := Option.some.inj (hcpu.symm.trans hc')
    obtain ⟨-, hmismo⟩ := (conserva_residencia cfg _ _).vuelta ⟨rfl, rfl⟩ hvuelta
    obtain ⟨s₁, c₁, linea, -, hsale⟩ := Cpu.vuelta_messages hvuelta
    rcases hsale with ⟨_, hnone, hmensajes⟩ | ⟨_, hnone, mensaje, hmensajes⟩ |
      ⟨_, hsigue, hmensajes⟩
    · refine .callada q hq hnil hnone ?_ (hcuenta _ hn)
      exact hlen.trans (congrArg List.length (hkernel.trans hmensajes)).symm
    · refine .responde q hq hnil hnone ?_ (hcuenta _ hn)
      have hlong := congrArg List.length (hkernel.trans hmensajes)
      rw [List.length_append, List.length_singleton] at hlong
      exact (congrArg (· + 1) hlen).trans hlong.symm
    · obtain ⟨c₂, hc₂⟩ := Option.ne_none_iff_exists'.mp hsigue
      obtain ⟨hpid, htid⟩ := hmismo c₂ hc₂
      refine .enCpu q c₂ hq hnil hc₂ ?_ ?_ (hcuenta _ hn)
      · rw [hpid, htid]
        exact hclave
      · exact hlen.trans (congrArg List.length (hkernel.trans hmensajes)).symm

end Steps

/-- What every reachable state has. -/
structure EnMarcha (cfg : Config) (s : Computadora) : Prop where
  residentes : Residentes Anotada.residencia (SinRepetidos (fun _ => True)) s.kernel
  cuadra : Cuadra cfg s.maquina.memoria
  control : Control s

section Runs

variable {cfg : Config} {alg : Kernel.SchedulerAlgorithm} {s s' : Computadora} {t : Turno}
  {h : Hecho} {m : Maquina}

/-- The kernel next to a machine that has moved on. -/
theorem residentes_trasMaquina
    (hres : Residentes Anotada.residencia (SinRepetidos (fun _ => True)) s.kernel)
    (hhecho : s.hecho t = some h)
    (hstep : pasoMaquina cfg s.maquina h = some m) :
    Residentes Anotada.residencia (SinRepetidos (fun _ => True)) (s.trasMaquina h m).kernel := by
  obtain ⟨hsame, -⟩ := residencia_trasMaquina hhecho hstep
  have hprocs := congrArg Kernel.Residencia.procesos hsame
  refine hres.conMemoria ⟨?_, trivial⟩ hprocs
  exact (Multiset.coe_eq_coe.mp hprocs).nodup_iff.mpr hres.memoria.1

theorem EnMarcha.paso
    (hperm : ∀ l, (cfg.listSort ordenarPorBase l).Perm l)
    (hesq : cfg.esquema ≠ .otro)
    (hs : EnMarcha cfg s)
    (hpids : s'.kernel.globalPid ≤ pidsDisponibles)
    (hstep : pasoComputadora cfg alg s t = some s') :
    EnMarcha cfg s' := by
  rcases pasoComputadora_cases hstep with ⟨e, k, hevento, hk, rfl⟩ | ⟨h, m, _, hhecho, hm, rfl⟩
  · obtain ⟨ps, a, hfila⟩ := hs.residentes.fila
    obtain ⟨hres, hcuadra⟩ := residentes_kernel hperm hesq (mantiene_cuadra hperm) hs.residentes
      hs.cuadra hpids hk
    obtain ⟨-, hcpu⟩ := residentes_kernel hperm hesq
      (mantiene_cpu s.maquina.cpu s.maquina.kernel (despachos s.kernel.memoria.hechos))
      hs.residentes ⟨rfl, rfl, rfl⟩ hpids hk
    exact ⟨hres, hcuadra, hs.control.trasKernel hfila.viejos hevento hk hcpu⟩
  · obtain ⟨hsame, hlist⟩ := residencia_trasMaquina hhecho hm
    exact ⟨residentes_trasMaquina hs.residentes hhecho hm,
      hs.cuadra.of_procesos (congrArg Kernel.Residencia.procesos hsame) hlist,
      hs.control.trasMaquina hhecho hm⟩

/-- The start keeps what the requests of the kernel keep. -/
theorem residentes_inicio
    {J : Anotada → Prop}
    (hperm : ∀ l, (cfg.listSort ordenarPorBase l).Perm l)
    (hesq : cfg.esquema ≠ .otro)
    (hJ : Mantiene cfg J)
    (hj : J { maquina := Maquina.inicio cfg, hechos := [] })
    (alg : Kernel.SchedulerAlgorithm) (path : List Char) (size : Nat) :
    Residentes Anotada.residencia (SinRepetidos J)
      (Computadora.inicio cfg alg path size).kernel := by
  have hm : SinRepetidos J { maquina := Maquina.inicio cfg, hechos := [] } :=
    ⟨List.nodup_nil, hj⟩
  exact Kernel.residentes_arranque (reside_conectada hperm hesq hJ) hm rfl path size

theorem enMarcha_inicio
    (hperm : ∀ l, (cfg.listSort ordenarPorBase l).Perm l)
    (hesq : cfg.esquema ≠ .otro)
    (alg : Kernel.SchedulerAlgorithm) (path : List Char) (size : Nat) :
    EnMarcha cfg (Computadora.inicio cfg alg path size) := by
  have hcuadra := residentes_inicio hperm hesq (mantiene_cuadra hperm) (cuadra_inicializar cfg)
    alg path size
  obtain ⟨-, hcpu, hmensajes, hdespachos⟩ :=
    (residentes_inicio hperm hesq (mantiene_cpu none [] 0) ⟨rfl, rfl, rfl⟩ alg path size).memoria
  refine ⟨{ hcuadra with memoria := ⟨hcuadra.memoria.1, trivial⟩ }, hcuadra.memoria.2, ?_⟩
  have hfase : (Computadora.inicio cfg alg path size).kernel.fase.ejecutando? = none := by
    simp only [Computadora.inicio, Kernel.arranque]
    rw [Kernel.processCreate_admite]
    rfl
  exact .planifica hfase rfl hcpu (congrArg List.length hmensajes).symm hdespachos

/-- PIDs are not taken back, so a bound at the end was one all along. -/
theorem fila_paso
    (hfila : ∃ ps a, Kernel.Fila ps a s.kernel)
    (hstep : pasoComputadora cfg alg s t = some s') :
    (∃ ps a, Kernel.Fila ps a s'.kernel) ∧ s.kernel.globalPid ≤ s'.kernel.globalPid := by
  obtain ⟨ps, a, hf⟩ := hfila
  rcases pasoComputadora_cases hstep with ⟨e, k, _, hk, rfl⟩ | ⟨h, m, _, _, _, rfl⟩
  · refine ⟨⟨_, _, (Kernel.Fila.paso (h := { pedidos := ps, hilosCero := a }) hf hk).1⟩, ?_⟩
    exact Kernel.globalPid_le_paso ⟨ps, a, hf⟩ hk
  · exact ⟨⟨ps, a, hf.conMemoria _⟩, le_rfl⟩

/-- An invariant of the runs in which the PIDs have not run out. -/
theorem invariant_of_corre
    {ok : Computadora → Turno → Prop} {I : Computadora → Prop} {turnos : List Turno}
    (hrun : CorreComputadora cfg alg ok s turnos s')
    (hfila : ∃ ps a, Kernel.Fila ps a s.kernel)
    (hpids : s'.kernel.globalPid ≤ pidsDisponibles)
    (hstart : I s)
    (hstep : ∀ {a b : Computadora} {t : Turno}, b.kernel.globalPid ≤ pidsDisponibles → I a →
      ok a t → pasoComputadora cfg alg a t = some b → I b) :
    I s' := by
  have hinv := hrun.invariant (I := fun a => (∃ ps l, Kernel.Fila ps l a.kernel) ∧
    (a.kernel.globalPid ≤ pidsDisponibles → I a)) ⟨hfila, fun _ => hstart⟩ ?_
  · exact hinv.2 hpids
  · rintro a b t ⟨hfila, ha⟩ hok hpaso
    obtain ⟨hfila', hle⟩ := fila_paso hfila hpaso
    exact ⟨hfila', fun hb => hstep hb (ha (hle.trans hb)) hok hpaso⟩

theorem enMarcha_of_corre
    {ok : Computadora → Turno → Prop} {turnos : List Turno} {path : List Char} {size : Nat}
    (hperm : ∀ l, (cfg.listSort ordenarPorBase l).Perm l)
    (hesq : cfg.esquema ≠ .otro)
    (hrun : CorreComputadora cfg alg ok (Computadora.inicio cfg alg path size) turnos s)
    (hpids : s.kernel.globalPid ≤ pidsDisponibles) :
    EnMarcha cfg s := by
  have hstart := enMarcha_inicio hperm hesq alg path size
  exact invariant_of_corre hrun hstart.residentes.fila hpids hstart
    (fun hb ha _ hpaso => ha.paso hperm hesq hb hpaso)

end Runs

/-- Two partitions; the first process creates another one and ends. -/
def cfgDos : Config where
  esquema := .fijas
  algoritmoBusqueda := .first
  tamMemoria := 32
  particiones := [16, 16]
  scripts := fun path =>
    if path = ['a'] then some ["PROCESS_CREATE b 8 0".toList, "PROCESS_EXIT".toList]
    else some ["SET AX 1".toList, "PROCESS_EXIT".toList]
  listSort := fun _ => insertionSortBy claveBase

theorem perm_cfgDos : ∀ l, (cfgDos.listSort ordenarPorBase l).Perm l := by
  have hsort : StableFor ordenarPorBase (cfgDos.listSort ordenarPorBase) := by
    rw [ordenarPorBase_eq]
    exact stableFor_insertionSortBy
  exact hsort.perm

/-- The second process is interrupted after its first instruction. -/
def turnosDos : List Turno :=
  [.kernel .despachar, .recibe, .vuelta false, .responde, .kernel .despachar, .recibe,
    .vuelta false, .responde, .kernel .seguirFin, .kernel .seguirFin, .kernel .despachar,
    .recibe, .vuelta true]

/-- In every run of the whole system the control alternates: the dispatcher waits while a
TCB is on its way or the CPU runs, the CPU runs the thread that was dispatched last and is
free when the dispatcher works, at most one TCB and one message are on the connection, and
every message that is read answers a dispatch of its own. -/
theorem control_alternates
    (cfg : Config) (alg : Kernel.SchedulerAlgorithm)
    (hperm : ∀ l, (cfg.listSort ordenarPorBase l).Perm l)
    (hesq : cfg.esquema ≠ .otro)
    {turnos : List Turno} {s : Computadora} {path : List Char} {size : Nat}
    (hrun : CorreComputadora cfg alg anyLabel (Computadora.inicio cfg alg path size) turnos s)
    (hpids : s.kernel.globalPid ≤ pidsDisponibles) :
    Control s :=
  (enMarcha_of_corre hperm hesq hrun hpids).control

theorem control_alternates_dos :
    ∃ s, execute (pasoComputadora cfgDos .fifo) (Computadora.inicio cfgDos .fifo ['a'] 8)
        turnosDos = some s ∧ s.leidos = 2 ∧ Control s := by
  have hrun : CorreComputadora cfgDos .fifo anyLabel (Computadora.inicio cfgDos .fifo ['a'] 8)
      turnosDos _ :=
    run_of_isSome (pasoComputadora cfgDos .fifo) id (by decide +kernel) (by decide +kernel)
  exact ⟨_, (Option.some_get _).symm, by decide +kernel,
    control_alternates cfgDos .fifo perm_cfgDos (by decide) hrun (by decide +kernel)⟩

end SinIdeas
