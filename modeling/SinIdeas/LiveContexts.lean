import SinIdeas.Kernel.DeviceSteps
import SinIdeas.Kernel.LiveThreads
import SinIdeas.System

/-!
# Live threads and their contexts in the whole system

Memoria keeps a context for each thread, created and deleted at the kernel's request, and
the CPU asks for it when it takes a TCB. The I/O device works in critical sections of its
own, so a thread may be in its hand, in no list of the kernel. When processes end without a
trace, every live thread has its context, so a TCB that is on its way is always taken; if no
thread is lost either, memoria keeps no other contexts.
-/

namespace SinIdeas

open Lib Memoria
open Kernel (Contextos FinLimpioSeparado Mano ProcesosCerrados Separado SinPerdidas TcbsPropios
  Tramo pidQueTermina pidsDisponibles vivos)

namespace Kernel

variable {μ : Type}

/-- The thread in the hand of the device, as it is sent to memoria. -/
def Mano.claves (mano : Mano) : Multiset (UInt32 × UInt32) :=
  ↑(mano.tcb?.toList.map (fun t => t.hilo.clave))

/-- The event locks no mutex of another process, and dispatches no thread with a twin in
READY. -/
def SinPerdidasSeparado (cfg : Config μ) (s : Separado μ) : Tramo → Prop
  | .kernel e => SinPerdidas cfg s.kernel e
  | _ => True

instance decidableSinPerdidasSeparado (cfg : Config μ) (s : Separado μ) :
    ∀ x, Decidable (SinPerdidasSeparado cfg s x)
  | .kernel e => inferInstanceAs (Decidable (SinPerdidas cfg s.kernel e))
  | .retira => inferInstanceAs (Decidable True)
  | .pone => inferInstanceAs (Decidable True)
  | .publica => inferInstanceAs (Decidable True)
  | .registra => inferInstanceAs (Decidable True)

section Device

variable {cfg : Config μ} {s s' : Separado μ} {x : Tramo}

/-- A critical section of the device changes two lists, its queue and the semaphore. -/
theorem dispositivo_frame
    (hx : ∀ e, x ≠ .kernel e)
    (hpend : s.pendientes = [])
    (h : pasoSeparado cfg s x = some s') :
    s'.pendientes = [] ∧ ∃ ready blocked requests count, s'.kernel =
      { s.kernel with
        listReadyTcb := ready
        listBlockedTcb := blocked
        ioRequestQueue := requests
        semThreadCount := count } := by
  cases casoDispositivo hx hpend h with
  | descarta requests _ _ => exact ⟨hpend, _, _, _, _, rfl⟩
  | retira tcb k blocked requests _ hk _ => exact ⟨hpend, _, _, _, _, hk⟩
  | pone tcb _ => exact ⟨hpend, _, _, _, _, rfl⟩
  | publica _ => exact ⟨hpend, _, _, _, _, rfl⟩

/-- It moves a thread at most, from a list to the hand or back. -/
theorem vivos_dispositivo
    (hx : ∀ e, x ≠ .kernel e)
    (hpend : s.pendientes = [])
    (h : pasoSeparado cfg s x = some s') :
    vivos s'.kernel + s'.mano.claves = vivos s.kernel + s.mano.claves := by
  have hpone : ∀ (tcb : Tcb) (k : Globals μ), vivos (ponerEnReady tcb k) =
      vivos k + (Mano.retirado tcb).claves := by
    intro tcb k
    rw [vivos_cons threads_ponerEnReady, ← Multiset.singleton_add, Multiset.add_comm]
    rfl
  have hfin : ∀ {k₁}, ioFin s.kernel = some k₁ → vivos k₁ = vivos s.kernel := by
    intro k₁ hio
    obtain ⟨hmove, -, -⟩ := mueve_ioFin
      (fun _ l => ∀ t, l ≠ .enter t ∧ l ≠ .drop t ∧ l ≠ .lose t) (by simp) (by simp) hio
    exact vivos_of_threads (threads_perm_of_mueve hmove)
  cases casoDispositivo hx hpend h with
  | descarta requests _ hio =>
      exact congrArg (· + s.mano.claves) (hfin hio)
  | retira tcb k blocked requests hmano _ hio =>
      have hposted := hfin hio
      have hready : vivos (ponerEnReady tcb k) = vivos s.kernel := hposted
      rw [hpone] at hready
      rw [hmano]
      exact hready.trans (Multiset.add_zero _).symm
  | pone tcb hmano =>
      rw [hmano]
      exact (Multiset.add_zero _).trans (hpone tcb s.kernel)
  | publica hmano =>
      rw [hmano]
      rfl

end Device

end Kernel

/-- The system, and what the I/O device has between its critical sections. -/
structure ComputadoraSeparada where
  sistema : Computadora
  mano : Mano

/-- The kernel with the device; the first PCB is active. -/
def ComputadoraSeparada.nucleo (s : ComputadoraSeparada) : Separado Anotada where
  kernel := s.sistema.kernel
  mano := s.mano
  pendientes := []

/-- A step of the system, or a critical section of the device. -/
inductive TurnoSeparado where
  | sistema (t : Turno)
  | dispositivo (x : Tramo)

/-- A step, with an IO completion in its parts. -/
def pasoSeparada (cfg : Config) (alg : Kernel.SchedulerAlgorithm) (s : ComputadoraSeparada) :
    TurnoSeparado → Option ComputadoraSeparada
  | .sistema (.kernel .ioFin) => none
  | .sistema t => (pasoComputadora cfg alg s.sistema t).map (fun c => { s with sistema := c })
  | .dispositivo (.kernel _) => none
  | .dispositivo x => (Kernel.pasoSeparado (conectada cfg alg) s.nucleo x).map (fun n =>
      { sistema := { s.sistema with kernel := n.kernel }, mano := n.mano })

/-- The start: the first process is active, and the device has nothing. -/
def ComputadoraSeparada.inicio (cfg : Config) (alg : Kernel.SchedulerAlgorithm)
    (path : List Char) (size : Nat) : ComputadoraSeparada where
  sistema := Computadora.inicio cfg alg path size
  mano := .nada

/-- A run of the system with the separate steps of the device. -/
abbrev CorreSeparada (cfg : Config) (alg : Kernel.SchedulerAlgorithm)
    (ok : ComputadoraSeparada → TurnoSeparado → Prop) (s : ComputadoraSeparada)
    (turnos : List TurnoSeparado) (t : ComputadoraSeparada) : Prop :=
  Run (fun a e b => pasoSeparada cfg alg a e = some b) ok s turnos t

/-- The event of the kernel, if the step is one, meets `ok`. -/
def EnNucleo (ok : Separado Anotada → Tramo → Prop) (s : ComputadoraSeparada) :
    TurnoSeparado → Prop
  | .sistema t => ∀ e ∈ s.sistema.evento t, ok s.nucleo (.kernel e)
  | .dispositivo x => ok s.nucleo x

instance decidableEnNucleo (ok : Separado Anotada → Tramo → Prop) [∀ n x, Decidable (ok n x)]
    (s : ComputadoraSeparada) : ∀ t, Decidable (EnNucleo ok s t)
  | .sistema t => inferInstanceAs (Decidable (∀ e ∈ s.sistema.evento t, ok s.nucleo (.kernel e)))
  | .dispositivo x => inferInstanceAs (Decidable (ok s.nucleo x))

section Device

variable {cfg : Config} {alg : Kernel.SchedulerAlgorithm} {s : Computadora}
  {a b : ComputadoraSeparada} {turnos : List Turno}

theorem pasoSeparada_dispositivo
    {x : Tramo}
    (hx : ∀ e, x ≠ .kernel e) :
    pasoSeparada cfg alg a (.dispositivo x) =
      (Kernel.pasoSeparado (conectada cfg alg) a.nucleo x).map (fun n =>
        { sistema := { a.sistema with kernel := n.kernel }, mano := n.mano }) := by
  cases x with
  | kernel e => exact absurd rfl (hx e)
  | _ => rfl

theorem pasoSeparada_sistema
    {t : Turno}
    (hio : t ≠ .kernel .ioFin) :
    pasoSeparada cfg alg a (.sistema t) =
      (pasoComputadora cfg alg a.sistema t).map (fun c => { a with sistema := c }) := by
  cases t with
  | kernel e =>
      cases e with
      | ioFin => exact absurd rfl hio
      | _ => rfl
  | _ => rfl

/-- A step is one of the system, or a critical section of the device. -/
theorem pasoSeparada_cases
    {t : TurnoSeparado}
    (h : pasoSeparada cfg alg a t = some b) :
    (∃ t' c, t = .sistema t' ∧ t' ≠ .kernel .ioFin ∧
      pasoComputadora cfg alg a.sistema t' = some c ∧ b = { a with sistema := c }) ∨
    (∃ x n, t = .dispositivo x ∧ (∀ e, x ≠ .kernel e) ∧
      Kernel.pasoSeparado (conectada cfg alg) a.nucleo x = some n ∧
      b = { sistema := { a.sistema with kernel := n.kernel }, mano := n.mano }) := by
  cases t with
  | sistema t =>
      by_cases hio : t = .kernel .ioFin
      · subst hio
        cases h
      · rw [pasoSeparada_sistema hio] at h
        obtain ⟨c, hc, rfl⟩ := Option.map_eq_some_iff.mp h
        exact Or.inl ⟨t, c, rfl, hio, hc, rfl⟩
  | dispositivo x =>
      by_cases hx : ∀ e, x ≠ .kernel e
      · rw [pasoSeparada_dispositivo hx] at h
        obtain ⟨n, hn, rfl⟩ := Option.map_eq_some_iff.mp h
        exact Or.inr ⟨x, n, rfl, hx, hn, rfl⟩
      · simp only [ne_eq, not_forall, not_not] at hx
        obtain ⟨e, rfl⟩ := hx
        cases h

/-- Steps of the device alone. -/
theorem execute_dispositivo
    {as : List Tramo} {n : Separado Anotada}
    (has : ∀ x ∈ as, ∀ e, x ≠ .kernel e)
    (h : execute (Kernel.pasoSeparado (conectada cfg alg)) a.nucleo as = some n) :
    execute (pasoSeparada cfg alg) a (as.map .dispositivo) =
      some { sistema := { a.sistema with kernel := n.kernel }, mano := n.mano } := by
  induction as generalizing a with
  | nil =>
      cases h
      rfl
  | cons x as ih =>
      have hx := has x List.mem_cons_self
      obtain ⟨n₁, hstep, hrest⟩ : ∃ n₁, Kernel.pasoSeparado (conectada cfg alg) a.nucleo x =
          some n₁ ∧ execute (Kernel.pasoSeparado (conectada cfg alg)) n₁ as = some n := by
        rw [execute] at h
        split at h
        · rename_i n₁ hstep
          exact ⟨n₁, hstep, h⟩
        · cases h
      obtain ⟨hpend, -⟩ := Kernel.dispositivo_frame hx rfl hstep
      have hnucleo : n₁ = ComputadoraSeparada.nucleo
          { sistema := { a.sistema with kernel := n₁.kernel }, mano := n₁.mano } := by
        obtain ⟨k, mano, pendientes⟩ := n₁
        exact congrArg (Separado.mk k mano) hpend
      rw [hnucleo] at hrest
      have hih := ih (fun y hy => has y (List.mem_cons_of_mem _ hy)) hrest
      simp only [List.map_cons, execute, pasoSeparada_dispositivo hx, hstep, Option.map_some]
      exact hih

/-- Every run of the system is one with the separate steps of the device. -/
theorem correSeparada_of_corre
    {path : List Char} {size : Nat}
    (hrun : CorreComputadora cfg alg anyLabel (Computadora.inicio cfg alg path size) turnos s) :
    ∃ us, CorreSeparada cfg alg anyLabel (ComputadoraSeparada.inicio cfg alg path size) us
      { sistema := s, mano := .nada } := by
  induction hrun with
  | nil =>
      exact ⟨[], Run.nil⟩
  | @snoc _ c d t _ _ hstep ih =>
      obtain ⟨us, hrun⟩ := ih
      by_cases hio : t = .kernel .ioFin
      · subst hio
        obtain ⟨k, hk, rfl⟩ := Option.map_eq_some_iff.mp hstep
        obtain ⟨as, has, hexec⟩ := Kernel.ioFin_separado (conectada cfg alg) [] hk
        have hdevice : execute (pasoSeparada cfg alg) { sistema := c, mano := .nada }
            (as.map .dispositivo) = some { sistema := { c with kernel := k }, mano := .nada } :=
          execute_dispositivo (a := { sistema := c, mano := .nada }) has hexec
        exact ⟨us ++ as.map .dispositivo, hrun.append
          (run_of_execute (pasoSeparada cfg alg) id (guarded_anyLabel _ _) hdevice)⟩
      · refine ⟨us ++ [.sistema t], Run.snoc hrun trivial ?_⟩
        rw [pasoSeparada_sistema hio]
        exact Option.map_eq_some_iff.mpr ⟨d, hstep, rfl⟩

end Device

/-- The threads of the kernel, those in the hand of the device included, and the contexts of
memoria, next to what a step needs of both. -/
structure Apareados (cfg : Config) (exacto : Prop) (s : ComputadoraSeparada) : Prop where
  enMarcha : EnMarcha cfg s.sistema
  cerrados : ProcesosCerrados s.nucleo.completo
  propios : TcbsPropios s.sistema.kernel
  contextos : Contextos Anotada.residencia exacto s.mano.claves s.sistema.kernel

section Runs

variable {cfg : Config} {alg : Kernel.SchedulerAlgorithm} {exacto : Prop}
  {s s' : ComputadoraSeparada} {c : Computadora} {t : TurnoSeparado} {path : List Char}
  {size : Nat} {turnos : List TurnoSeparado}

/-- The thread in the hand is not of the process that is ending. -/
theorem mano_fuera
    (hcerrados : ProcesosCerrados s.nucleo.completo)
    (hpids : s.sistema.kernel.globalPid ≤ pidsDisponibles) :
    ∀ pid ∈ pidQueTermina s.sistema.kernel, ∀ i ∈ s.mano.claves, i.1 ≠ .ofNat pid := by
  obtain ⟨⟨kernel, enviados, leidos⟩, mano⟩ := s
  intro pid hpid i hi
  cases mano with
  | nada => simp [Mano.claves, Mano.tcb?] at hi
  | puesto => simp [Mano.claves, Mano.tcb?] at hi
  | retirado tcb =>
      obtain ⟨hk, hmano⟩ := Kernel.cerrados_ponerEnReady_iff.mp hcerrados
      obtain rfl : i = tcb.hilo.clave := by simpa [Mano.claves, Mano.tcb?] using hi
      intro heq
      have hfin : kernel.currentPcbExecuting = some pid ∧ ∃ causa p j,
          kernel.fase = .finalizando causa p j ∨ kernel.fase = .esperando causa p j := by
        simp only [pidQueTermina, Option.mem_def] at hpid
        split at hpid
        · rename_i causa p j hfase
          exact ⟨hpid, causa, p, j, Or.inl hfase⟩
        · rename_i causa p j hfase
          exact ⟨hpid, causa, p, j, Or.inr hfase⟩
        · cases hpid
      obtain ⟨hcurrent, causa, p, j, hfase⟩ := hfin
      have hlt : pid < kernel.globalPid := (hk.fin causa p j pid hfase hcurrent).1.emitido
      exact hmano.vive causa p j pid hfase hcurrent
        (Kernel.ofNat_inj_of_lt (hmano.pid.1.trans_le hpids) (hlt.trans_le hpids) heq)

/-- A critical section of the device leaves the rest of the system alone. -/
theorem EnMarcha.dispositivo
    {x : Tramo} {n : Separado Anotada}
    (hs : EnMarcha cfg s.sistema)
    (hcoherente : Kernel.Coherente n.kernel)
    (hx : ∀ e, x ≠ .kernel e)
    (hstep : Kernel.pasoSeparado (conectada cfg alg) s.nucleo x = some n) :
    EnMarcha cfg { s.sistema with kernel := n.kernel } := by
  obtain ⟨-, ready, blocked, requests, count, hkernel⟩ := Kernel.dispositivo_frame hx rfl hstep
  rw [hkernel] at hcoherente ⊢
  obtain ⟨hres, hcuadra, hcontrol⟩ := hs
  refine ⟨?_, hcuadra, ?_⟩
  · obtain ⟨ps, a, hfila⟩ := hres.fila
    exact ⟨hcoherente, ⟨ps, a, hfila.soloHilos rfl⟩, hres.dumps, hres.memoria, hres.procesos,
      hres.activos⟩
  · cases hcontrol with
    | planifica hfase henv hlibre hlen hn => exact .planifica hfase henv hlibre hlen hn
    | enViaje p hp henv hlibre hlen hn => exact .enViaje p hp henv hlibre hlen hn
    | enCpu p c hp henv hcpu hclave hlen hn => exact .enCpu p c hp henv hcpu hclave hlen hn
    | responde p hp henv hlibre hlen hn => exact .responde p hp henv hlibre hlen hn
    | callada p hp henv hlibre hlen hn => exact .callada p hp henv hlibre hlen hn

theorem Apareados.dispositivo
    {x : Tramo} {n : Separado Anotada}
    (hs : Apareados cfg exacto s)
    (hlimpio : FinLimpioSeparado s.nucleo x)
    (hx : ∀ e, x ≠ .kernel e)
    (hstep : Kernel.pasoSeparado (conectada cfg alg) s.nucleo x = some n) :
    Apareados cfg exacto { sistema := { s.sistema with kernel := n.kernel }, mano := n.mano } := by
  obtain ⟨hpend, hcerrados⟩ := Kernel.cerrados_pasoSeparado hs.cerrados rfl hlimpio hstep
  have hvivos := Kernel.vivos_dispositivo hx rfl hstep
  obtain ⟨-, ready, blocked, requests, count, hkernel⟩ := Kernel.dispositivo_frame hx rfl hstep
  have hmarcha := hs.enMarcha.dispositivo hcerrados.of_completo.coherente hx hstep
  refine ⟨hmarcha, ?_, ?_, ?_⟩
  · obtain ⟨k, mano, pendientes⟩ := n
    exact hcerrados
  · rw [hkernel]
    exact hs.propios
  · have hcubre := hs.contextos
    have hmem : n.kernel.memoria = s.sistema.kernel.memoria := by
      rw [hkernel]
      rfl
    have hfin : pidQueTermina n.kernel = pidQueTermina s.sistema.kernel := by
      rw [hkernel]
      rfl
    rw [Contextos] at hcubre ⊢
    rw [hmem, hfin, hvivos]
    exact hcubre

/-- A step of the kernel, or of the machine, with a thread in the hand of the device. -/
theorem Apareados.sistema
    {t : Turno}
    (hperm : ∀ l, (cfg.listSort ordenarPorBase l).Perm l)
    (hesq : cfg.esquema ≠ .otro)
    (hs : Apareados cfg exacto s)
    (hpids : c.kernel.globalPid ≤ pidsDisponibles)
    (hlimpio : ∀ e ∈ s.sistema.evento t, FinLimpioSeparado s.nucleo (.kernel e))
    (hpierde : exacto → ∀ e ∈ s.sistema.evento t,
      SinPerdidas (conectada cfg alg) s.sistema.kernel e)
    (hio : t ≠ .kernel .ioFin)
    (hstep : pasoComputadora cfg alg s.sistema t = some c) :
    Apareados cfg exacto { s with sistema := c } := by
  have hmarcha := hs.enMarcha.paso hperm hesq hpids hstep
  rcases pasoComputadora_cases hstep with ⟨e, k, hevento, hk, rfl⟩ | ⟨h, m, _, hhecho, hm, rfl⟩
  · have he : e ≠ .ioFin := by
      rintro rfl
      cases t with
      | kernel e' =>
          cases e' with
          | ioFin => exact hio rfl
          | _ => cases hevento
      | responde =>
          obtain ⟨m, _, hno⟩ := Option.map_eq_some_iff.mp hevento
          cases hno
      | recibe => cases hevento
      | vuelta interrupcion => cases hevento
    have hspec : Kernel.Reside (conectada cfg alg) Anotada.residencia
        (SinRepetidos (fun _ => True)) :=
      reside_conectada hperm hesq (fun _ _ _ _ _ _ _ => trivial)
    have hnucleo : Kernel.pasoSeparado (conectada cfg alg) s.nucleo (.kernel e) =
        some { s.nucleo with kernel := k } := by
      rw [Kernel.pasoSeparado_kernel he]
      exact Option.map_eq_some_iff.mpr ⟨k, hk, rfl⟩
    obtain ⟨-, hcerrados⟩ :=
      Kernel.cerrados_pasoSeparado hs.cerrados rfl (hlimpio e hevento) hnucleo
    have hcerrados : ProcesosCerrados
        (ComputadoraSeparada.nucleo { s with sistema := s.sistema.trasKernel e k }).completo :=
      hcerrados
    have hprevio : Kernel.Previo (conectada cfg alg) Anotada.residencia
        (SinRepetidos (fun _ => True)) s.sistema.kernel :=
      ⟨hs.enMarcha.residentes, hs.cerrados.of_completo, hs.propios⟩
    refine ⟨hmarcha, hcerrados, hs.propios.paso hprevio.residentes.coherente.viejos hk, ?_⟩
    exact hs.contextos.paso hspec hprevio hmarcha.residentes hpids (hlimpio e hevento).1
      (fun hexacto => hpierde hexacto e hevento) (mano_fuera hcerrados hpids) hk
  · obtain ⟨hsame, -⟩ := residencia_trasMaquina hhecho hm
    refine ⟨hmarcha, ?_, hs.propios, hs.contextos.conMemoria hsame⟩
    have hcerrados := hs.cerrados
    obtain ⟨sistema, mano⟩ := s
    cases mano with
    | retirado tcb => exact ProcesosCerrados.conMemoria hcerrados _
    | nada => exact ProcesosCerrados.conMemoria hcerrados _
    | puesto => exact ProcesosCerrados.conMemoria hcerrados _

theorem Apareados.paso
    (hperm : ∀ l, (cfg.listSort ordenarPorBase l).Perm l)
    (hesq : cfg.esquema ≠ .otro)
    (hs : Apareados cfg exacto s)
    (hpids : s'.sistema.kernel.globalPid ≤ pidsDisponibles)
    (hlimpio : EnNucleo FinLimpioSeparado s t)
    (hpierde : exacto → EnNucleo (Kernel.SinPerdidasSeparado (conectada cfg alg)) s t)
    (hstep : pasoSeparada cfg alg s t = some s') :
    Apareados cfg exacto s' := by
  rcases pasoSeparada_cases hstep with ⟨t, c, rfl, hio, hc, rfl⟩ | ⟨x, n, rfl, hx, hn, rfl⟩
  · exact hs.sistema hperm hesq hpids hlimpio hpierde hio hc
  · exact hs.dispositivo hlimpio hx hn

theorem apareados_inicio
    (hperm : ∀ l, (cfg.listSort ordenarPorBase l).Perm l)
    (hesq : cfg.esquema ≠ .otro)
    (alg : Kernel.SchedulerAlgorithm) (exacto : Prop) (path : List Char) (size : Nat) :
    Apareados cfg exacto (ComputadoraSeparada.inicio cfg alg path size) := by
  have hspec : Kernel.Reside (conectada cfg alg) Anotada.residencia
      (SinRepetidos (fun _ => True)) :=
    reside_conectada hperm hesq (fun _ _ _ _ _ _ _ => trivial)
  have hm : SinRepetidos (fun _ => True) { maquina := Maquina.inicio cfg, hechos := [] } :=
    ⟨List.nodup_nil, trivial⟩
  have hprevio := Kernel.previo_arranque hspec hm rfl path size
  exact ⟨enMarcha_inicio hperm hesq alg path size, hprevio.cerrados, hprevio.propios,
    Kernel.contextos_arranque hspec hm rfl path size⟩

/-- PIDs are not taken back in the separate steps either. -/
theorem fila_pasoSeparada
    (hfila : ∃ ps a, Kernel.Fila ps a s.sistema.kernel)
    (hstep : pasoSeparada cfg alg s t = some s') :
    (∃ ps a, Kernel.Fila ps a s'.sistema.kernel) ∧
      s.sistema.kernel.globalPid ≤ s'.sistema.kernel.globalPid := by
  rcases pasoSeparada_cases hstep with ⟨t, c, rfl, _, hc, rfl⟩ | ⟨x, n, rfl, hx, hn, rfl⟩
  · exact fila_paso hfila hc
  · obtain ⟨ps, a, hf⟩ := hfila
    obtain ⟨-, ready, blocked, requests, count, hkernel⟩ := Kernel.dispositivo_frame hx rfl hn
    rw [hkernel]
    exact ⟨⟨ps, a, hf.soloHilos rfl⟩, le_rfl⟩

theorem apareados_of_corre
    {ok : ComputadoraSeparada → TurnoSeparado → Prop}
    (hperm : ∀ l, (cfg.listSort ordenarPorBase l).Perm l)
    (hesq : cfg.esquema ≠ .otro)
    (hrun : CorreSeparada cfg alg ok (ComputadoraSeparada.inicio cfg alg path size) turnos s)
    (hpids : s.sistema.kernel.globalPid ≤ pidsDisponibles)
    (hlimpio : ∀ a t, ok a t → EnNucleo FinLimpioSeparado a t)
    (hpierde : exacto → ∀ a t, ok a t →
      EnNucleo (Kernel.SinPerdidasSeparado (conectada cfg alg)) a t) :
    Apareados cfg exacto s := by
  have hstart := apareados_inicio hperm hesq alg exacto path size
  have hinv := hrun.invariant
    (I := fun a => (∃ ps l, Kernel.Fila ps l a.sistema.kernel) ∧
      (a.sistema.kernel.globalPid ≤ pidsDisponibles → Apareados cfg exacto a))
    ⟨hstart.enMarcha.residentes.fila, fun _ => hstart⟩ ?_
  · exact hinv.2 hpids
  · rintro a b t ⟨hfila, ha⟩ hok hpaso
    obtain ⟨hfila', hle⟩ := fila_pasoSeparada hfila hpaso
    exact ⟨hfila', fun hb => (ha (hle.trans hb)).paso hperm hesq hb (hlimpio a t hok)
      (fun hexacto => hpierde hexacto a t hok) hpaso⟩

/-- A thread whose context memoria has can be dispatched. -/
theorem dispatch_isSome
    (cfg : Config) {m : Maquina} {i : UInt32 × UInt32}
    (hlibre : m.cpu = none)
    (hpids : (m.memoria.memoryProcessList.map MemPcb.pid).Nodup)
    (hi : i ∈ (residencia m.memoria).hilos) :
    (pasoMaquina cfg m (.dispatch i.1 i.2)).isSome = true := by
  obtain ⟨p, hp, hhilo⟩ := (mem_hilos hpids).mp hi
  obtain ⟨hilo, hhilo⟩ := Option.isSome_iff_exists.mp hhilo
  have hregistros : obtenerRegistrosTcb m.memoria i.1 i.2 = some (registrosDe p hilo) := by
    simp only [obtenerRegistrosTcb, hp, hhilo, Option.bind_eq_bind, Option.bind_some]
  simp [pasoMaquina, hlibre, Cpu.pedirContexto_handleClient hregistros]

/-- The TCB that is on its way is that of a live thread. -/
theorem Apareados.recibe
    (hs : Apareados cfg exacto s)
    (henviados : s.sistema.enviados ≠ []) :
    (pasoComputadora cfg alg s.sistema .recibe).isSome = true := by
  obtain ⟨i, resto, hlista⟩ := List.exists_cons_of_ne_nil henviados
  obtain ⟨p, hp, rfl, -, hlibre, -, -⟩ := hs.enMarcha.control.envio hlista
  have hvivo : p.hilo.clave ∈ vivos s.sistema.kernel :=
    Multiset.mem_coe.mpr (List.mem_map_of_mem (Kernel.mem_threads_of_ejecutando hp))
  have hfin : pidQueTermina s.sistema.kernel = none := Kernel.pidQueTermina_of_ejecutando hp
  have hcubre := hs.contextos
  rw [Contextos, hfin] at hcubre
  have htiene : p.hilo.clave ∈ (residencia s.sistema.maquina.memoria).hilos :=
    Multiset.mem_of_le hcubre.le (Multiset.mem_add.mpr (Or.inl hvivo))
  have hdispatch := dispatch_isSome cfg hlibre hs.enMarcha.residentes.memoria.1 htiene
  obtain ⟨m, hm⟩ := Option.isSome_iff_exists.mp hdispatch
  have hhecho : s.sistema.hecho .recibe = some (.dispatch p.hilo.clave.1 p.hilo.clave.2) := by
    simp [Computadora.hecho, hlista]
  have hpaso : pasoComputadora cfg alg s.sistema .recibe =
      some (s.sistema.trasMaquina (.dispatch p.hilo.clave.1 p.hilo.clave.2) m) := by
    simp [pasoComputadora, Computadora.evento, hhecho, hm]
  rw [hpaso]
  rfl

end Runs

/-- As long as processes end without a trace, memoria has a context for every live thread
of the kernel, in the hand of the device too, and the CPU can take every TCB that it is
sent. -/
theorem live_threads_have_context
    (cfg : Config) (alg : Kernel.SchedulerAlgorithm)
    (hperm : ∀ l, (cfg.listSort ordenarPorBase l).Perm l)
    (hesq : cfg.esquema ≠ .otro)
    {turnos : List TurnoSeparado} {s : ComputadoraSeparada} {path : List Char} {size : Nat}
    (hrun : CorreSeparada cfg alg (EnNucleo FinLimpioSeparado)
      (ComputadoraSeparada.inicio cfg alg path size) turnos s)
    (hpids : s.sistema.kernel.globalPid ≤ pidsDisponibles) :
    vivos s.sistema.kernel + s.mano.claves ≤ (residencia s.sistema.maquina.memoria).hilos ∧
      (s.sistema.enviados ≠ [] → (pasoSeparada cfg alg s (.sistema .recibe)).isSome = true) := by
  have hs : Apareados cfg False s :=
    apareados_of_corre hperm hesq hrun hpids (fun _ _ hok => hok) False.elim
  refine ⟨hs.contextos.le.trans ?_, ?_⟩
  · unfold Kernel.Residencia.fuera
    split
    · exact le_rfl
    · exact Multiset.filter_le _ _
  · intro henviados
    rw [pasoSeparada_sistema (by simp), Option.isSome_map]
    exact hs.recibe henviados

/-- Two processes, of which the first waits for the I/O device. -/
def cfgEspera : Config where
  esquema := .fijas
  algoritmoBusqueda := .first
  tamMemoria := 32
  particiones := [16, 16]
  scripts := fun path =>
    if path = ['a'] then some ["PROCESS_CREATE b 8 0".toList, "IO 5".toList]
    else some ["PROCESS_EXIT".toList]
  listSort := fun _ => insertionSortBy claveBase

theorem perm_cfgEspera : ∀ l, (cfgEspera.listSort ordenarPorBase l).Perm l := perm_cfgDos

/-- The device has taken the thread of the first process out of BLOCKED when the second
process ends. -/
def turnosMano : List TurnoSeparado :=
  [.sistema (.kernel .despachar), .sistema .recibe, .sistema (.vuelta false), .sistema .responde,
    .sistema (.kernel .despachar), .sistema .recibe, .sistema (.vuelta false), .sistema .responde,
    .sistema (.kernel .despachar), .dispositivo .retira, .sistema .recibe,
    .sistema (.vuelta false), .sistema .responde, .sistema (.kernel .seguirFin),
    .sistema (.kernel .seguirFin)]

theorem live_threads_have_context_mano :
    ∃ s, execute (pasoSeparada cfgEspera .fifo) (ComputadoraSeparada.inicio cfgEspera .fifo ['a'] 8)
        turnosMano = some s ∧ vivos s.sistema.kernel + s.mano.claves = {(0, 0)} ∧
      s.mano.tcb?.map Kernel.Tcb.ident = some (0, 0) ∧
      vivos s.sistema.kernel + s.mano.claves ≤ (residencia s.sistema.maquina.memoria).hilos := by
  have hrun : CorreSeparada cfgEspera .fifo (EnNucleo FinLimpioSeparado)
      (ComputadoraSeparada.inicio cfgEspera .fifo ['a'] 8) turnosMano _ :=
    run_of_isSome (pasoSeparada cfgEspera .fifo) id (by decide +kernel) (by decide +kernel)
  exact ⟨_, (Option.some_get _).symm, by decide +kernel, by decide +kernel,
    (live_threads_have_context cfgEspera .fifo perm_cfgEspera (by decide) hrun
      (by decide +kernel)).1⟩

/-- If no thread is lost either, the contexts that memoria has, outside a process that is
ending, are those of the live threads, one each. -/
theorem contexts_are_live_threads
    (cfg : Config) (alg : Kernel.SchedulerAlgorithm)
    (hperm : ∀ l, (cfg.listSort ordenarPorBase l).Perm l)
    (hesq : cfg.esquema ≠ .otro)
    {turnos : List TurnoSeparado} {s : ComputadoraSeparada} {path : List Char} {size : Nat}
    (hrun : CorreSeparada cfg alg
      (EnNucleo (fun n x =>
        FinLimpioSeparado n x ∧ Kernel.SinPerdidasSeparado (conectada cfg alg) n x))
      (ComputadoraSeparada.inicio cfg alg path size) turnos s)
    (hpids : s.sistema.kernel.globalPid ≤ pidsDisponibles) :
    (residencia s.sistema.maquina.memoria).fuera (pidQueTermina s.sistema.kernel) =
      vivos s.sistema.kernel + s.mano.claves := by
  have hs : Apareados cfg True s := by
    refine apareados_of_corre hperm hesq hrun hpids ?_ (fun _ => ?_)
    · rintro a (t | x) hok
      · exact fun e he => (hok e he).1
      · exact hok.1
    · rintro a (t | x) hok
      · exact fun e he => (hok e he).2
      · exact hok.2
  exact hs.contextos.eq trivial

theorem contexts_are_live_threads_mano :
    ∃ s, execute (pasoSeparada cfgEspera .fifo) (ComputadoraSeparada.inicio cfgEspera .fifo ['a'] 8)
        turnosMano = some s ∧ pidQueTermina s.sistema.kernel = none ∧
      s.mano.claves = {(0, 0)} ∧
      (residencia s.sistema.maquina.memoria).hilos = vivos s.sistema.kernel + s.mano.claves := by
  have hrun : CorreSeparada cfgEspera .fifo
      (EnNucleo (fun n x =>
        FinLimpioSeparado n x ∧ Kernel.SinPerdidasSeparado (conectada cfgEspera .fifo) n x))
      (ComputadoraSeparada.inicio cfgEspera .fifo ['a'] 8) turnosMano _ :=
    run_of_isSome (pasoSeparada cfgEspera .fifo) id (by decide +kernel) (by decide +kernel)
  exact ⟨_, (Option.some_get _).symm, by decide +kernel, by decide +kernel,
    contexts_are_live_threads cfgEspera .fifo perm_cfgEspera (by decide) hrun
      (by decide +kernel)⟩

end SinIdeas
