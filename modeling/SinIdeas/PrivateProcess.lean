import SinIdeas.ProcessRounds

/-!
# Processes on one CPU and one memory

Memoria, the CPU and the requests of the kernel together, with any number of processes
and threads. Every process sees a machine of its own: `vistaProceso` are its threads,
with the registers of the one that the CPU is running, and the bytes of its region.
As long as the addresses that the scripts use fit in the size of their process or are
answered with SEG_FAULT, only the events of a process move its machine.
-/

namespace SinIdeas

open Lib Memoria Cpu

/-- Memoria, the messages to the kernel and the context that the CPU is working with. -/
structure Maquina where
  memoria : Globals
  kernel : List (Mensaje UInt32)
  cpu : Option ExecutionContext
  deriving DecidableEq

/-- What happens: the kernel dispatches a thread, the CPU executes an instruction of
the thread it has, with a value of the interruption flag, or the kernel sends a request
to memoria. -/
inductive Hecho where
  | dispatch (pid tid : UInt32)
  | vuelta (pid tid : UInt32) (interrupcion : Bool)
  | pedido (p : Peticion)
  deriving DecidableEq

/-- The machine before the first process. -/
def Maquina.inicio (cfg : Config) : Maquina where
  memoria := inicializar cfg
  kernel := []
  cpu := none

/-- One step of the machine. -/
def pasoMaquina (cfg : Config) (s : Maquina) : Hecho → Option Maquina
  | .dispatch pid tid =>
      match s.cpu with
      | some _ => none
      | none => do
          let (g, c) ← pedirContexto (handleClient cfg) pid tid s.memoria
          some { s with memoria := g, cpu := some c }
  | .vuelta pid tid interrupcion => do
      let c ← s.cpu
      if c.pid = pid ∧ c.tid = tid then do
        let conexiones : Conexiones Globals := { memoria := s.memoria, kernel := s.kernel }
        let (conexiones, c') ← vuelta (handleClient cfg) interrupcion c conexiones
        some { memoria := conexiones.memoria, kernel := conexiones.kernel, cpu := c' }
      else
        none
  | .pedido p => do
      let g ← atiende cfg s.memoria p
      some { s with memoria := g }

/-- The requests of the kernel: a process is created with the PID of no resident one,
and what the CPU is running is not ended. -/
def DelKernel (s : Maquina) : Peticion → Prop
  | .processCreate pid _ => buscarProcesoPorPid s.memoria pid = none
  | .processExit pid => ∀ c ∈ s.cpu, c.pid ≠ pid
  | .threadCreate .. => True
  | .threadExit pid tid => ∀ c ∈ s.cpu, ¬ (c.pid = pid ∧ c.tid = tid)
  | _ => False

/-- A step in which the CPU runs a correct line and the kernel sends its requests. -/
def Correcto (cfg : Config) (s : Maquina) : Hecho → Prop
  | .dispatch .. => True
  | .vuelta .. =>
      ∀ c ∈ s.cpu, ∀ p ∈ buscarProcesoPorPid s.memoria c.pid,
        ∀ linea ∈ obtenerLineaPseudocodigo cfg s.memoria c.pid c.tid c.registers.pc,
          LineaCorrecta p c.registers linea
  | .pedido p => DelKernel s p

instance decidableDelKernel (s : Maquina) : ∀ p, Decidable (DelKernel s p)
  | .processCreate pid _ =>
      inferInstanceAs (Decidable (buscarProcesoPorPid s.memoria pid = none))
  | .processExit pid => inferInstanceAs (Decidable (∀ c ∈ s.cpu, c.pid ≠ pid))
  | .threadCreate .. => inferInstanceAs (Decidable True)
  | .threadExit pid tid =>
      inferInstanceAs (Decidable (∀ c ∈ s.cpu, ¬ (c.pid = pid ∧ c.tid = tid)))
  | .instructionRequest .. => inferInstanceAs (Decidable False)
  | .executionContext .. => inferInstanceAs (Decidable False)
  | .executionContextUpdate .. => inferInstanceAs (Decidable False)
  | .readMemRequest .. => inferInstanceAs (Decidable False)
  | .writeMemRequest .. => inferInstanceAs (Decidable False)

instance decidableCorrecto (cfg : Config) (s : Maquina) : ∀ e, Decidable (Correcto cfg s e)
  | .dispatch .. => inferInstanceAs (Decidable True)
  | .vuelta .. =>
      inferInstanceAs (Decidable
        (∀ c ∈ s.cpu, ∀ p ∈ buscarProcesoPorPid s.memoria c.pid,
          ∀ linea ∈ obtenerLineaPseudocodigo cfg s.memoria c.pid c.tid c.registers.pc,
            LineaCorrecta p c.registers linea))
  | .pedido p => inferInstanceAs (Decidable (DelKernel s p))

/-- The entry of a process, with the context that the CPU has of it. -/
def procesoVisto (cpu : Option ExecutionContext) (p : MemPcb) : MemPcb :=
  match cpu with
  | none => p
  | some c => p.tras (.executionContextUpdate c.pid c.tid c.registers)

/-- A thread of memoria as a thread of the private machine. -/
def hiloVisto (hilo : MemTcb) : ProcessMachine.Thread Registro UInt32 (List Char) where
  id := hilo.tid
  program := hilo.filePath
  state := vistaMem hilo.regs

/-- The machine that a process sees. -/
def vistaProceso (s : Maquina) (pid : UInt32) :
    Option (ProcessMachine.State Registro UInt32 (List Char)) :=
  (buscarProcesoPorPid s.memoria pid).map (fun p =>
    { threads := (procesoVisto s.cpu p).threads.map hiloVisto
      bytes := ventana s.memoria.memoriaUsuario p })

/-- The event of the process `pid` that something is. -/
def hechoDe (pid : UInt32) : Hecho → Option (ProcessMachine.Event UInt32 (List Char))
  | .vuelta p tid _ => if p = pid then some (.run tid) else none
  | .pedido (.threadCreate p tid filePath) => if p = pid then some (.create tid filePath) else none
  | .pedido (.threadExit p tid) => if p = pid then some (.exit tid) else none
  | _ => none

/-- What every reachable machine has: its memoria is a reachable one, and the CPU runs a
thread of a resident process with the region of that process. -/
structure Coherente (cfg : Config) (s : Maquina) : Prop where
  alcanza : ∃ peticiones, Alcanza cfg Regular peticiones s.memoria
  cpu : ∀ c, s.cpu = some c → ∃ p hilo, buscarProcesoPorPid s.memoria c.pid = some p ∧
    p.threads.find? (fun hilo => hilo.tid == c.tid) = some hilo ∧
    c.registers.base = p.base ∧ c.registers.limite = p.limite

/-- The machine `v` is what the process sees. -/
structure Representa
    (cfg : Config) (pid : UInt32) (s : Maquina)
    (v : ProcessMachine.State Registro UInt32 (List Char)) :
    Prop where
  coherente : Coherente cfg s
  vista : vistaProceso s pid = some v

section Threads

variable {cfg : Config} {tid : UInt32} {r r' : Register} {l : List MemTcb}

/-- The threads of a process when the context of one of them is stored. -/
def conRegistros (tid : UInt32) (r : Register) (l : List MemTcb) : List MemTcb :=
  modifyFirst (fun hilo => hilo.tid == tid)
    (fun hilo => { hilo with regs := MemRegister.ofRegister r }) l

theorem threads_tras_update (p : MemPcb) (pid : UInt32) :
    (p.tras (.executionContextUpdate pid tid r)).threads =
      if pid = p.pid then conRegistros tid r p.threads else p.threads := by
  rw [MemPcb.tras]
  split_ifs <;> rfl

theorem conRegistros_conRegistros (tid : UInt32) (r r' : Register) (l : List MemTcb) :
    conRegistros tid r' (conRegistros tid r l) = conRegistros tid r' l :=
  modifyFirst_modifyFirst (fun _ => rfl)

/-- The private machine runs a line of the thread that the CPU has. -/
theorem step_run
    {hilo : MemTcb} {i : ProcessMachine.Instr Registro} {bytes bytes' : List UInt8}
    (hhilo : l.find? (fun hilo => hilo.tid == tid) = some hilo)
    (hcodigo : codigoDe cfg hilo.filePath r.pc.toNat = some i)
    (hefecto : (vista r', bytes') = i.apply 32 4 (vista r) bytes) :
    ProcessMachine.State.step 32 4 (codigoDe cfg)
        { threads := (conRegistros tid r l).map hiloVisto, bytes := bytes } (.run tid) =
      { threads := (conRegistros tid r' l).map hiloVisto, bytes := bytes' } := by
  have hmod : (conRegistros tid r l).find? (fun hilo => hilo.tid == tid) =
      some { hilo with regs := MemRegister.ofRegister r } := by
    rw [conRegistros, find?_modifyFirst, hhilo]
    · rfl
    · exact fun _ => rfl
  have hfind : ((conRegistros tid r l).map hiloVisto).find? (fun t => t.id == tid) =
      some (hiloVisto { hilo with regs := MemRegister.ofRegister r }) := by
    rw [List.find?_map]
    exact congrArg (Option.map hiloVisto) hmod
  have hcodigo' : codigoDe cfg (hiloVisto { hilo with regs := MemRegister.ofRegister r }).program
      (hiloVisto { hilo with regs := MemRegister.ofRegister r }).state.pc = some i := hcodigo
  have hmap : modifyFirst (fun t => t.id == tid)
      (fun t => { t with state := (i.apply 32 4 t.state bytes).1 })
      ((conRegistros tid r l).map hiloVisto) = (conRegistros tid r' l).map hiloVisto := by
    have hstate : (i.apply 32 4 (vista r) bytes).1 = vista r' := (congrArg Prod.fst hefecto).symm
    rw [← conRegistros_conRegistros tid r r' l]
    refine modifyFirst_map (fun _ => rfl) (fun x hx => ?_)
    obtain rfl := Option.some.inj (hmod.symm.trans hx)
    exact congrArg (ProcessMachine.Thread.mk hilo.tid hilo.filePath) hstate
  simp only [ProcessMachine.State.step, hfind, hcodigo']
  refine ProcessMachine.State.ext hmap ?_
  exact (congrArg Prod.snd hefecto).symm

end Threads

section Rounds

variable {cfg : Config} {s s' : Maquina} {pid tid : UInt32} {interrupcion : Bool}

/-- Where a round leaves the machine: the table as it was and the new registers in the
CPU, or the new registers in memoria and the CPU free. -/
structure TrasRonda
    (cfg : Config) (s s' : Maquina) (c : ExecutionContext) (r : Register) (bytes : List UInt8) :
    Prop where
  memoria : s'.memoria = { s.memoria with memoriaUsuario := bytes } ∧
      s'.cpu = some { c with registers := r } ∨
    s'.memoria = actualizarRegistros { s.memoria with memoriaUsuario := bytes } c.pid c.tid r ∧
      s'.cpu = none

/-- A round that is possible is one of a thread of a resident process, and it does what
its line says. -/
theorem Coherente.ronda
    (h : Coherente cfg s)
    (hrecinto : Recinto cfg s.memoria)
    (hok : Correcto cfg s (.vuelta pid tid interrupcion))
    (hstep : pasoMaquina cfg s (.vuelta pid tid interrupcion) = some s') :
    ∃ c p hilo i r bytes, s.cpu = some c ∧ c.pid = pid ∧ c.tid = tid ∧
      buscarProcesoPorPid s.memoria pid = some p ∧
      p.threads.find? (fun hilo => hilo.tid == tid) = some hilo ∧
      c.registers.base = p.base ∧ c.registers.limite = p.limite ∧
      codigoDe cfg hilo.filePath c.registers.pc.toNat = some i ∧
      RondaDe cfg interrupcion p c { memoria := s.memoria, kernel := s.kernel } i r bytes ∧
      TrasRonda cfg s s' c r bytes := by
  obtain ⟨c, hcpu, hres⟩ := Option.bind_eq_some_iff.mp hstep
  split_ifs at hres with hquien
  obtain ⟨rfl, rfl⟩ := hquien
  obtain ⟨p, hilo, hp, hhilo, hbase, hlimite⟩ := h.cpu c hcpu
  have hmem : p ∈ s.memoria.memoryProcessList := List.mem_of_find?_eq_some hp
  cases hlinea : obtenerLineaPseudocodigo cfg s.memoria c.pid c.tid c.registers.pc with
  | none =>
      have hronda : vuelta (handleClient cfg) interrupcion c ⟨s.memoria, s.kernel⟩ = none :=
        vuelta_sin_linea hlinea
      simp [hronda] at hres
  | some linea =>
      obtain ⟨i, hi, hacceso⟩ := hok c hcpu p hp linea hlinea
      have hdentro : p.limite.toNat ≤ s.memoria.memoriaUsuario.length := by
        rw [hrecinto.entera.longitud]
        exact hrecinto.aislada.dentro p hmem
      obtain ⟨r, bytes, hronda⟩ := exists_rondaDe
        (s := ⟨s.memoria, s.kernel⟩) hlinea (hrecinto.exacta p hmem) hdentro hbase hlimite
        interrupcion hi hacceso
      have hcodigo : codigoDe cfg hilo.filePath c.registers.pc.toNat = some i := by
        simp only [obtenerLineaPseudocodigo, hp, hhilo, Option.bind_eq_bind, Option.bind_some,
          Option.bind_eq_some_iff] at hlinea
        obtain ⟨lineas, hlineas, hget⟩ := hlinea
        simp [codigoDe, hlineas, hget, Option.mem_def.mp hi]
      refine ⟨c, p, hilo, i, r, bytes, hcpu, rfl, rfl, hp, hhilo, hbase, hlimite, hcodigo, hronda,
        ?_⟩
      rcases hronda.hace with hsigue | ⟨kernel, htermina⟩
      · simp only [hsigue, Option.bind_eq_bind, Option.bind_some, Option.some.injEq] at hres
        exact ⟨Or.inl ⟨hres ▸ rfl, hres ▸ rfl⟩⟩
      · simp only [htermina, Option.bind_eq_bind, Option.bind_some, Option.some.injEq] at hres
        exact ⟨Or.inr ⟨hres ▸ rfl, hres ▸ rfl⟩⟩

/-- A process after a round: seen from outside it has the new registers in any case. -/
theorem TrasRonda.entrada
    {c : ExecutionContext} {r : Register} {bytes : List UInt8} {q : UInt32} {p : MemPcb}
    (h : TrasRonda cfg s s' c r bytes)
    (hp : buscarProcesoPorPid s.memoria q = some p)
    (hregion : c.pid = p.pid → r.base = p.base) :
    s'.memoria.memoriaUsuario = bytes ∧ ∃ p', buscarProcesoPorPid s'.memoria q = some p' ∧
      (procesoVisto s'.cpu p').threads =
        (if c.pid = p.pid then conRegistros c.tid r p.threads else p.threads) ∧
      p'.base = p.base ∧ p'.size = p.size := by
  rcases h.memoria with ⟨hmem, hcpu⟩ | ⟨hmem, hcpu⟩
  · rw [hmem, hcpu]
    exact ⟨rfl, p, hp, threads_tras_update p c.pid, rfl, rfl⟩
  · rw [hmem, hcpu]
    refine ⟨rfl, p.tras (.executionContextUpdate c.pid c.tid r), buscar_modificar (fun _ => rfl) hp,
      threads_tras_update p c.pid, ?_, ?_⟩
    · rw [MemPcb.tras]
      split_ifs with hpid
      · exact hregion hpid
      · rfl
    · rw [MemPcb.tras]
      split_ifs <;> rfl

/-- A word written in the region of one process is no byte of another one. -/
theorem Memoria.Recinto.ventana_ajeno
    {g : Globals} {p q : MemPcb} {dir valor : UInt32} {bytes : List UInt8}
    (h : Recinto cfg g)
    (hp : p ∈ g.memoryProcessList)
    (hq : q ∈ g.memoryProcessList)
    (hne : p.pid ≠ q.pid)
    (hdentro : Dentro p dir)
    (hescribe : escribirEnMemoria valor g.memoriaUsuario dir = some bytes) :
    ventana bytes q = ventana g.memoriaUsuario q := by
  rw [escribirEnMemoria_eq_putWord] at hescribe
  refine ProcessMachine.putWord_window_of_apart hescribe ?_
  have hexacta := h.exacta q hq
  rw [MemPcb.Exacto] at hexacta
  obtain ⟨hlo, hhi⟩ := hdentro
  rcases h.aislada.aparte q hq p hp hne with hantes | hdespues
  · right
    omega
  · left
    omega

/-- The requests that a round sends are regular ones. -/
theorem RondaDe.alcanza
    {p : MemPcb} {c : ExecutionContext} {i : ProcessMachine.Instr Registro} {r : Register}
    {bytes : List UInt8} {kernel : List (Mensaje UInt32)}
    (hronda : RondaDe cfg interrupcion p c ⟨s.memoria, kernel⟩ i r bytes)
    (halcanza : ∃ peticiones, Alcanza cfg Regular peticiones s.memoria) :
    ∃ peticiones, Alcanza cfg Regular peticiones { s.memoria with memoriaUsuario := bytes } := by
  obtain ⟨peticiones, hrun⟩ := halcanza
  rcases hronda.escribe with rfl | ⟨dir, valor, _, hescribe⟩
  · exact ⟨peticiones, hrun⟩
  · have hstep : atiende cfg s.memoria (.writeMemRequest dir valor) =
        some { s.memoria with memoriaUsuario := bytes } := by
      simp [atiende, handleClient, show escribirEnMemoria valor s.memoria.memoriaUsuario dir = _
        from hescribe]
    have hregular : Regular s.memoria (.writeMemRequest dir valor) := trivial
    exact ⟨_, Run.snoc hrun hregular hstep⟩

/-- A round keeps the machine coherent. -/
theorem Coherente.vuelta
    (h : Coherente cfg s)
    (hrecinto : Recinto cfg s.memoria)
    (hok : Correcto cfg s (.vuelta pid tid interrupcion))
    (hstep : pasoMaquina cfg s (.vuelta pid tid interrupcion) = some s') :
    Coherente cfg s' := by
  obtain ⟨c, p, hilo, i, r, bytes, hcpu, rfl, rfl, hp, hhilo, hbase, hlimite, hcodigo, hronda,
    htras⟩ := h.ronda hrecinto hok hstep
  obtain ⟨hbase', hlimite'⟩ := hronda.region
  have halcanza := hronda.alcanza h.alcanza
  rcases htras.memoria with ⟨hmem, hcpu'⟩ | ⟨hmem, hcpu'⟩
  · refine ⟨hmem ▸ halcanza, fun c' hc' => ?_⟩
    obtain rfl := Option.some.inj (hcpu'.symm.trans hc')
    rw [hmem]
    exact ⟨p, hilo, hp, hhilo, hbase'.trans hbase, hlimite'.trans hlimite⟩
  · refine ⟨?_, fun c' hc' => ?_⟩
    · obtain ⟨peticiones, hrun⟩ := halcanza
      have hregular : Regular { s.memoria with memoriaUsuario := bytes }
          (.executionContextUpdate c.pid c.tid r) := by
        intro q hq
        obtain rfl := Option.some.inj (hp.symm.trans hq)
        exact ⟨hbase'.trans hbase, hlimite'.trans hlimite⟩
      rw [hmem]
      exact ⟨_, Run.snoc hrun hregular rfl⟩
    · rw [hcpu'] at hc'
      cases hc'

/-- A round moves the machine of the process whose thread it is, and no other. -/
theorem Coherente.vistaProceso_vuelta
    {q : UInt32} {v : ProcessMachine.State Registro UInt32 (List Char)}
    (h : Coherente cfg s)
    (hrecinto : Recinto cfg s.memoria)
    (hok : Correcto cfg s (.vuelta pid tid interrupcion))
    (hstep : pasoMaquina cfg s (.vuelta pid tid interrupcion) = some s')
    (hv : vistaProceso s q = some v) :
    vistaProceso s' q =
      some ((hechoDe q (.vuelta pid tid interrupcion)).elim v (v.step 32 4 (codigoDe cfg))) := by
  obtain ⟨c, p, hilo, i, r, bytes, hcpu, rfl, rfl, hp, hhilo, hbase, hlimite, hcodigo, hronda,
    htras⟩ := h.ronda hrecinto hok hstep
  obtain ⟨p₀, hp₀, rfl⟩ := Option.map_eq_some_iff.mp hv
  have hpid := buscarProcesoPorPid_pid hp₀
  have hregion : c.pid = p₀.pid → r.base = p₀.base := by
    intro heq
    rw [heq, hpid, hp₀] at hp
    obtain rfl := Option.some.inj hp
    exact hronda.region.1.trans hbase
  obtain ⟨hbytes, p', hp', hhilos, hbase', hsize'⟩ := htras.entrada hp₀ hregion
  have hventana : ventana s'.memoria.memoriaUsuario p' = ventana bytes p₀ := by
    rw [hbytes, ventana, ventana, hbase', hsize']
  have hvista : vistaProceso s' q = some
      { threads := (if c.pid = p₀.pid then conRegistros c.tid r p₀.threads
          else p₀.threads).map hiloVisto
        bytes := ventana bytes p₀ } := by
    rw [vistaProceso, hp', Option.map_some, hhilos, hventana]
  have hantes : (procesoVisto s.cpu p₀).threads =
      if c.pid = p₀.pid then conRegistros c.tid c.registers p₀.threads else p₀.threads := by
    rw [hcpu]
    exact threads_tras_update p₀ c.pid
  rw [hvista, hantes, hechoDe]
  by_cases hq : c.pid = q
  · -- the thread is one of this process
    have hpropio : c.pid = p₀.pid := hq.trans hpid.symm
    rw [hq, hp₀] at hp
    obtain rfl := Option.some.inj hp
    rw [if_pos hpropio, if_pos hpropio, if_pos hq]
    exact congrArg some (step_run hhilo hcodigo hronda.efecto).symm
  · -- it is one of another process, and writes in the region of that one
    have hajeno : c.pid ≠ p₀.pid := fun heq => hq (heq.trans hpid)
    rw [if_neg hajeno, if_neg hajeno, if_neg hq]
    refine congrArg (fun b => some (ProcessMachine.State.mk (p₀.threads.map hiloVisto) b)) ?_
    rcases hronda.escribe with rfl | ⟨dir, valor, hdentro, hescribe⟩
    · rfl
    · exact hrecinto.ventana_ajeno (List.mem_of_find?_eq_some hp) (List.mem_of_find?_eq_some hp₀)
        (fun heq => hajeno ((buscarProcesoPorPid_pid hp).symm.trans heq)) hdentro hescribe

end Rounds

section Requests

variable {cfg : Config} {s s' : Maquina} {pid tid q : UInt32} {p : MemPcb}

/-- A dispatch hands the CPU what memoria has of the thread. -/
theorem dispatch_spec
    (hstep : pasoMaquina cfg s (.dispatch pid tid) = some s') :
    s.cpu = none ∧ ∃ p hilo, buscarProcesoPorPid s.memoria pid = some p ∧
      p.threads.find? (fun hilo => hilo.tid == tid) = some hilo ∧
      s' = { s with cpu := some (contextoDe pid tid (registrosDe p hilo)) } := by
  cases hcpu : s.cpu with
  | some c =>
      simp [pasoMaquina, hcpu] at hstep
  | none =>
      cases hr : obtenerRegistrosTcb s.memoria pid tid with
      | none =>
          simp [pasoMaquina, hcpu, pedirContexto, handleClient, hr] at hstep
      | some r =>
          simp only [pasoMaquina, hcpu, pedirContexto_handleClient hr, Option.bind_eq_bind,
            Option.bind_some, Option.some.injEq] at hstep
          simp only [obtenerRegistrosTcb, Option.bind_eq_bind, Option.bind_eq_some_iff,
            Option.some.injEq] at hr
          obtain ⟨p, hp, hilo, hhilo, rfl⟩ := hr
          exact ⟨rfl, p, hilo, hp, hhilo, hstep.symm⟩

/-- Storing what memoria has changes nothing. -/
theorem conRegistros_registrosDe
    {hilo : MemTcb}
    (hhilo : p.threads.find? (fun hilo => hilo.tid == tid) = some hilo) :
    conRegistros tid (registrosDe p hilo) p.threads = p.threads := by
  refine modifyFirst_eq_self (fun x hx => ?_)
  obtain rfl := Option.some.inj (hhilo.symm.trans hx)
  rfl

theorem Coherente.dispatch
    (h : Coherente cfg s)
    (hstep : pasoMaquina cfg s (.dispatch pid tid) = some s') :
    Coherente cfg s' ∧ vistaProceso s' q = vistaProceso s q := by
  obtain ⟨hcpu, p, hilo, hp, hhilo, rfl⟩ := dispatch_spec hstep
  refine ⟨⟨h.alcanza, fun c hc => ?_⟩, ?_⟩
  · obtain rfl := Option.some.inj hc
    exact ⟨p, hilo, hp, hhilo, rfl, rfl⟩
  · unfold vistaProceso
    cases hq : buscarProcesoPorPid s.memoria q with
    | none =>
        rfl
    | some p₀ =>
        have hhilos : (procesoVisto (some (contextoDe pid tid (registrosDe p hilo))) p₀).threads =
            p₀.threads := by
          refine (threads_tras_update p₀ pid).trans ?_
          split_ifs with hpid
          · rw [hpid, buscarProcesoPorPid_pid hq, hq] at hp
            obtain rfl := Option.some.inj hp
            exact conRegistros_registrosDe hhilo
          · rfl
        rw [Option.map_some, Option.map_some, hhilos, hcpu]
        rfl

/-- The requests of the kernel are regular. -/
theorem DelKernel.regular
    {peticion : Peticion}
    (h : DelKernel s peticion) :
    Regular s.memoria peticion := by
  cases peticion with
  | processCreate pid size => exact h
  | executionContextUpdate pid tid r => exact h.elim
  | _ => trivial

/-- They keep the region of a process, and the thread that the CPU runs. -/
theorem DelKernel.tras
    {peticion : Peticion}
    (h : DelKernel s peticion)
    (hp : buscarProcesoPorPid s.memoria q = some p) :
    (p.tras peticion).base = p.base ∧ (p.tras peticion).limite = p.limite ∧
      (p.tras peticion).size = p.size ∧
      ∀ c hilo, s.cpu = some c → c.pid = q →
        p.threads.find? (fun hilo => hilo.tid == c.tid) = some hilo →
        (p.tras peticion).threads.find? (fun hilo => hilo.tid == c.tid) = some hilo := by
  have hpid := buscarProcesoPorPid_pid hp
  cases peticion with
  | threadCreate pid tid filePath =>
      simp only [MemPcb.tras]
      split_ifs
      · refine ⟨rfl, rfl, rfl, fun c hilo _ _ hhilo => ?_⟩
        rw [List.find?_append, hhilo]
        rfl
      · exact ⟨rfl, rfl, rfl, fun _ _ _ _ hhilo => hhilo⟩
  | threadExit pid tid =>
      simp only [MemPcb.tras]
      split_ifs with hq
      · refine ⟨rfl, rfl, rfl, fun c hilo hcpu hc hhilo => find?_eraseP_of_ne ?_ hhilo⟩
        rintro rfl
        exact h c hcpu ⟨hc.trans (hpid.symm.trans hq.symm), rfl⟩
      · exact ⟨rfl, rfl, rfl, fun _ _ _ _ hhilo => hhilo⟩
  | executionContextUpdate pid tid r => exact h.elim
  | _ => exact ⟨rfl, rfl, rfl, fun _ _ _ _ hhilo => hhilo⟩

theorem Coherente.pedido
    {peticion : Peticion}
    (hperm : ∀ l, (cfg.listSort ordenarPorBase l).Perm l)
    (h : Coherente cfg s)
    (hrecinto : Recinto cfg s.memoria)
    (hok : DelKernel s peticion)
    (hstep : pasoMaquina cfg s (.pedido peticion) = some s') :
    Coherente cfg s' := by
  obtain ⟨g, hg, hs⟩ := Option.bind_eq_some_iff.mp hstep
  obtain rfl := Option.some.inj hs
  obtain ⟨peticiones, hrun⟩ := h.alcanza
  refine ⟨⟨_, Run.snoc hrun hok.regular hg⟩, fun c hc => ?_⟩
  obtain ⟨p, hilo, hp, hhilo, hbase, hlimite⟩ := h.cpu c hc
  have hvive : peticion ≠ .processExit c.pid := by
    rintro rfl
    exact hok c hc rfl
  obtain ⟨hbase', hlimite', -, hhilos⟩ := hok.tras hp
  exact ⟨_, hilo, buscar_of_atiende hperm hrecinto.regiones.pids hp hok.regular hvive hg,
    hhilos c hilo hc rfl hhilo, hbase.trans hbase'.symm, hlimite.trans hlimite'.symm⟩

/-- A thread starts where the private machine starts it. -/
theorem hiloVisto_nuevoHilo (filePath : List Char) :
    hiloVisto (nuevoHilo tid filePath) =
      { id := tid, program := filePath, state := RegisterMachine.start } := by
  refine congrArg (ProcessMachine.Thread.mk tid filePath) ?_
  refine RegisterMachine.State.ext rfl (funext fun a => ?_)
  cases a <;> rfl

/-- What changes the list of threads and leaves the running one in it can be done before
or after the context of the CPU is stored. -/
theorem Coherente.procesoVisto_threads
    {f : List MemTcb → List MemTcb}
    (h : Coherente cfg s)
    (hp : buscarProcesoPorPid s.memoria q = some p)
    (hf : ∀ c hilo, s.cpu = some c → c.pid = q →
      p.threads.find? (fun hilo => hilo.tid == c.tid) = some hilo →
      conRegistros c.tid c.registers (f p.threads) =
        f (conRegistros c.tid c.registers p.threads)) :
    (procesoVisto s.cpu { p with threads := f p.threads }).threads =
      f (procesoVisto s.cpu p).threads := by
  cases hcpu : s.cpu with
  | none =>
      rfl
  | some c =>
      simp only [procesoVisto, threads_tras_update]
      split_ifs with hpid
      · have hq : c.pid = q := hpid.trans (buscarProcesoPorPid_pid hp)
        obtain ⟨p', hilo, hp', hhilo, -, -⟩ := h.cpu c hcpu
        rw [hq, hp] at hp'
        obtain rfl := Option.some.inj hp'
        exact hf c hilo hcpu hq hhilo
      · rfl

/-- A request of the kernel moves the machine of the process that it names. -/
theorem Coherente.vistaProceso_pedido
    {peticion : Peticion} {v : ProcessMachine.State Registro UInt32 (List Char)}
    (hperm : ∀ l, (cfg.listSort ordenarPorBase l).Perm l)
    (h : Coherente cfg s)
    (hrecinto : Recinto cfg s.memoria)
    (hok : DelKernel s peticion)
    (hvive : peticion ≠ .processExit q)
    (hstep : pasoMaquina cfg s (.pedido peticion) = some s')
    (hv : vistaProceso s q = some v) :
    vistaProceso s' q =
      some ((hechoDe q (.pedido peticion)).elim v (v.step 32 4 (codigoDe cfg))) := by
  obtain ⟨g, hg, hs⟩ := Option.bind_eq_some_iff.mp hstep
  obtain rfl := Option.some.inj hs
  obtain ⟨p, hp, rfl⟩ := Option.map_eq_some_iff.mp hv
  obtain rfl := buscarProcesoPorPid_pid hp
  have hbuscar := buscar_of_atiende hperm hrecinto.regiones.pids hp hok.regular hvive hg
  obtain ⟨hbase, -, hsize, -⟩ := hok.tras hp
  -- the kernel writes no word
  have hbytes : g.memoriaUsuario = s.memoria.memoriaUsuario := by
    have htras := memoriaUsuario_tras hg
    cases peticion with
    | writeMemRequest dir valor => exact hok.elim
    | _ => exact (Option.some.inj htras).symm
  have hvista : vistaProceso { s with memoria := g } p.pid = some
      { threads := (procesoVisto s.cpu (p.tras peticion)).threads.map hiloVisto
        bytes := ventana s.memoria.memoriaUsuario p } := by
    rw [vistaProceso, hbuscar, Option.map_some]
    simp only [ventana, hbase, hsize, hbytes]
  rw [hvista]
  cases peticion with
  | threadCreate pid tid filePath =>
      rw [hechoDe, MemPcb.tras]
      split_ifs
      · have hhilos := h.procesoVisto_threads (f := (· ++ [nuevoHilo tid filePath])) hp
          (fun c hilo _ _ hhilo => modifyFirst_append hhilo)
        rw [hhilos, List.map_append, List.map_singleton, hiloVisto_nuevoHilo]
        rfl
      · rfl
  | threadExit pid tid =>
      rw [hechoDe, MemPcb.tras]
      split_ifs with hq
      · have hhilos := h.procesoVisto_threads
          (f := List.eraseP (fun hilo => hilo.tid == tid)) hp (fun c hilo hcpu hc hhilo => by
            refine modifyFirst_eraseP (fun _ => rfl) (fun x hx => ?_)
            have hne : c.tid ≠ tid := fun heq => hok c hcpu ⟨hc.trans hq.symm, heq⟩
            rw [beq_iff_eq] at hx
            simpa [hx] using hne)
        rw [hhilos]
        simp only [Option.elim_some, ProcessMachine.State.step]
        rw [List.eraseP_map]
        rfl
      · rfl
  | executionContextUpdate pid tid r => exact hok.elim
  | _ => rfl

end Requests

section Runs

variable {cfg : Config}

/-- The run of the machine that leads from `s` to `t`, each step meeting `ok`. -/
abbrev Corre (cfg : Config) (ok : Maquina → Hecho → Prop) (s : Maquina) (hechos : List Hecho)
    (t : Maquina) : Prop :=
  Run (fun a e b => pasoMaquina cfg a e = some b) ok s hechos t

theorem coherente_inicio (cfg : Config) : Coherente cfg (Maquina.inicio cfg) where
  alcanza := ⟨[], Run.nil⟩
  cpu := by simp [Maquina.inicio]

variable (hsort : StableFor ordenarPorBase (cfg.listSort ordenarPorBase)) (hcfg : cfg.Valida)

include hsort hcfg

theorem Coherente.recinto
    {s : Maquina}
    (h : Coherente cfg s) :
    Recinto cfg s.memoria := by
  obtain ⟨peticiones, hrun⟩ := h.alcanza
  exact recinto_of_alcanza hsort hcfg hrun

theorem Coherente.step
    {s s' : Maquina} {e : Hecho}
    (h : Coherente cfg s)
    (hok : Correcto cfg s e)
    (hstep : pasoMaquina cfg s e = some s') :
    Coherente cfg s' := by
  have hrecinto := h.recinto hsort hcfg
  cases e with
  | dispatch pid tid => exact (h.dispatch (q := pid) hstep).1
  | vuelta pid tid interrupcion => exact h.vuelta hrecinto hok hstep
  | pedido peticion => exact h.pedido hsort.perm hrecinto hok hstep

/-- A step moves the machine of a process by its own event, or not at all. -/
theorem Coherente.vistaProceso_step
    {s s' : Maquina} {e : Hecho} {pid : UInt32}
    {v : ProcessMachine.State Registro UInt32 (List Char)}
    (h : Coherente cfg s)
    (hok : Correcto cfg s e)
    (hvive : e ≠ .pedido (.processExit pid))
    (hstep : pasoMaquina cfg s e = some s')
    (hv : vistaProceso s pid = some v) :
    vistaProceso s' pid = some ((hechoDe pid e).elim v (v.step 32 4 (codigoDe cfg))) := by
  have hrecinto := h.recinto hsort hcfg
  cases e with
  | dispatch p tid =>
      rw [(h.dispatch (q := pid) hstep).2]
      exact hv
  | vuelta p tid interrupcion => exact h.vistaProceso_vuelta hrecinto hok hstep hv
  | pedido peticion =>
      exact h.vistaProceso_pedido hsort.perm hrecinto hok (fun heq => hvive (heq ▸ rfl)) hstep hv

theorem Representa.step
    {s s' : Maquina} {e : Hecho} {pid : UInt32}
    {v : ProcessMachine.State Registro UInt32 (List Char)}
    (h : Representa cfg pid s v)
    (hok : Correcto cfg s e)
    (hvive : e ≠ .pedido (.processExit pid))
    (hstep : pasoMaquina cfg s e = some s') :
    Representa cfg pid s' ((hechoDe pid e).elim v (v.step 32 4 (codigoDe cfg))) where
  coherente := h.coherente.step hsort hcfg hok hstep
  vista := h.coherente.vistaProceso_step hsort hcfg hok hvive hstep h.vista

end Runs

/-- Every process runs on a machine of its own. In every run of memoria, the CPU and the
kernel's requests in which the threads use addresses of their process or get SEG_FAULT,
what a process sees, from any state in which it is resident until it ends, is what a
private machine computes from the events of that process alone: whatever the other
processes execute, read, write, create or end in between does not show. -/
theorem process_is_private_machine
    (cfg : Config)
    (hsort : StableFor ordenarPorBase (cfg.listSort ordenarPorBase))
    (hcfg : cfg.Valida)
    {hechos₀ hechos : List Hecho} {s t : Maquina} {pid : UInt32}
    {v : ProcessMachine.State Registro UInt32 (List Char)}
    (hreach : Corre cfg (Correcto cfg) (Maquina.inicio cfg) hechos₀ s)
    (hv : vistaProceso s pid = some v)
    (hrun : Corre cfg (fun a e => Correcto cfg a e ∧ e ≠ .pedido (.processExit pid)) s hechos t) :
    vistaProceso t pid =
      some ((hechos.filterMap (hechoDe pid)).foldl
        (ProcessMachine.State.step 32 4 (codigoDe cfg)) v) := by
  have hcoherente : Coherente cfg s :=
    hreach.invariant (coherente_inicio cfg) (fun h hok hstep => h.step hsort hcfg hok hstep)
  have hstart : Representa cfg pid s v := ⟨hcoherente, hv⟩
  exact (Run.projects (Representa cfg pid) hrun (hechoDe pid)
    (ProcessMachine.State.step 32 4 (codigoDe cfg)) hstart
    (fun h hok hstep => h.step hsort hcfg hok.1 hok.2 hstep)).vista

/-- Two processes of eight bytes: the first writes a word and reads it back, the second
writes at the same address of its own and then reads beyond its end. -/
def cfgVecinos : Config where
  esquema := .dinamicas
  algoritmoBusqueda := .first
  tamMemoria := 32
  particiones := []
  scripts := fun path =>
    if path = ['a'] then
      some ["SET AX 4".toList, "WRITE_MEM AX AX".toList, "READ_MEM BX AX".toList]
    else
      some ["SET AX 4".toList, "WRITE_MEM AX BX".toList, "SET CX 16".toList,
        "READ_MEM DX CX".toList]
  listSort := fun _ => insertionSortBy claveBase

/-- The first process before its first dispatch. -/
def inicioVecinos : List Hecho :=
  [.pedido (.processCreate 0 8), .pedido (.processCreate 1 8), .pedido (.threadCreate 0 0 ['a'])]

/-- It is interrupted after its write and goes on when the second has faulted and ended. -/
def hechosVecinos : List Hecho :=
  [.pedido (.threadCreate 1 0 ['b']), .dispatch 0 0, .vuelta 0 0 false, .vuelta 0 0 true,
    .dispatch 1 0, .vuelta 1 0 false, .vuelta 1 0 false, .vuelta 1 0 false, .vuelta 1 0 false,
    .pedido (.processExit 1), .dispatch 0 0, .vuelta 0 0 false]

theorem process_is_private_machine_vecinos :
    ∃ (hinicio : (execute (pasoMaquina cfgVecinos) (Maquina.inicio cfgVecinos)
        inicioVecinos).isSome = true) (t : Maquina),
      execute (pasoMaquina cfgVecinos) ((execute (pasoMaquina cfgVecinos)
        (Maquina.inicio cfgVecinos) inicioVecinos).get hinicio) hechosVecinos = some t ∧
      vistaProceso t 0 = some ([.run 0, .run 0, .run 0].foldl
        (ProcessMachine.State.step 32 4 (codigoDe cfgVecinos))
        { threads := [hiloVisto (nuevoHilo 0 ['a'])], bytes := List.replicate 8 0 }) := by
  have hsort : StableFor ordenarPorBase (cfgVecinos.listSort ordenarPorBase) := by
    rw [ordenarPorBase_eq]
    exact stableFor_insertionSortBy
  refine ⟨by decide, _, (Option.some_get (by decide)).symm, ?_⟩
  exact process_is_private_machine cfgVecinos hsort ⟨by decide, by decide⟩
    (run_of_isSome (pasoMaquina cfgVecinos) id (by decide) (by decide)) rfl
    (run_of_isSome (pasoMaquina cfgVecinos) id (by decide) (by decide))

end SinIdeas
