import SinIdeas.Kernel.FreedMemory
import SinIdeas.Memoria.OwnBytes

/-!
# Admission of a process, all or nothing

`try_create_NEW_process` asks memoria for the process and then for its thread 0, and
takes the process out of the waiting lists whatever the second answer is. When the
thread is refused, or memoria cannot be reached for it, the process keeps its region
and its TCB waits in NEW for ever.
-/

namespace SinIdeas
namespace Kernel

open Lib

/-- Memoria as the kernel asks it, and the processes that have a region in it. -/
structure Servicio (μ : Type) where
  config : Config μ
  residente : μ → Nat → Prop
  aceptado : ∀ m pid size, (config.createProcessMemory m pid size).2 = true →
    residente (config.createProcessMemory m pid size).1 pid
  rechazado : ∀ m pid size, (config.createProcessMemory m pid size).2 = false →
    ∀ q, residente (config.createProcessMemory m pid size).1 q ↔ residente m q
  hilo : ∀ m t q, residente (config.createThreadMemory m t).1 q ↔ residente m q

/-- Memoria behind a network, with the outcomes of the next connections. -/
structure Red (μ : Type) where
  memoria : μ
  conectan : List Bool

section Network

variable {μ : Type}

/-- A request; without a connection it does not arrive and counts as an error. -/
def pedirPorRed (pide : μ → μ × Bool) (r : Red μ) : Red μ × Bool :=
  match r.conectan with
  | [] => (r, false)
  | false :: conectan => ({ r with conectan }, false)
  | true :: conectan => ({ memoria := (pide r.memoria).1, conectan }, (pide r.memoria).2)

/-- The requests of the kernel, behind a network. -/
def porRed (cfg : Config μ) : Config (Red μ) where
  schedulerAlgorithm := cfg.schedulerAlgorithm
  createProcessMemory r pid size := pedirPorRed (fun m => cfg.createProcessMemory m pid size) r
  createThreadMemory r t := pedirPorRed (fun m => cfg.createThreadMemory m t) r
  deleteProcessMemory r pid size := pedirPorRed (fun m => cfg.deleteProcessMemory m pid size) r
  deleteThreadMemory r t := pedirPorRed (fun m => cfg.deleteThreadMemory m t) r

/-- A request is answered by memoria, or is an error that leaves it as it was. -/
theorem pedirPorRed_cases
    (pide : μ → μ × Bool) (r : Red μ) :
    ((pedirPorRed pide r).1.memoria = (pide r.memoria).1 ∧
      (pedirPorRed pide r).2 = (pide r.memoria).2) ∨
    ((pedirPorRed pide r).1.memoria = r.memoria ∧ (pedirPorRed pide r).2 = false) := by
  unfold pedirPorRed
  split
  · exact Or.inr ⟨rfl, rfl⟩
  · exact Or.inr ⟨rfl, rfl⟩
  · exact Or.inl ⟨rfl, rfl⟩

/-- The same memoria, where each request may find it unreachable. -/
def Servicio.porRed (s : Servicio μ) : Servicio (Red μ) where
  config := Kernel.porRed s.config
  residente r pid := s.residente r.memoria pid
  aceptado := by
    intro r pid size hok
    rcases pedirPorRed_cases (fun m => s.config.createProcessMemory m pid size) r with
      ⟨hmem, hanswer⟩ | ⟨_, hanswer⟩
    · simp only [Kernel.porRed] at hok ⊢
      rw [hmem]
      exact s.aceptado r.memoria pid size (hanswer.symm.trans hok)
    · simp only [Kernel.porRed] at hok
      rw [hanswer] at hok
      cases hok
  rechazado := by
    intro r pid size hno q
    simp only [Kernel.porRed] at hno ⊢
    rcases pedirPorRed_cases (fun m => s.config.createProcessMemory m pid size) r with
      ⟨hmem, hanswer⟩ | ⟨hmem, _⟩
    · rw [hmem]
      exact s.rechazado r.memoria pid size (hanswer.symm.trans hno) q
    · rw [hmem]
  hilo := by
    intro r t q
    simp only [Kernel.porRed]
    rcases pedirPorRed_cases (fun m => s.config.createThreadMemory m t) r with
      ⟨hmem, _⟩ | ⟨hmem, _⟩
    · rw [hmem]
      exact s.hilo r.memoria t q
    · rw [hmem]

end Network

section Memoria

open Memoria

/-- The process has a region in memoria. -/
def tieneRegion (g : Memoria.Globals) (pid : UInt32) : Prop :=
  pid ∈ g.memoryProcessList.map MemPcb.pid

/-- A process that memoria accepts has a region. -/
theorem tieneRegion_of_aceptado
    {cfg : Memoria.Config}
    (hesq : cfg.esquema ≠ .otro)
    (hperm : ∀ l, (cfg.listSort ordenarPorBase l).Perm l)
    (g : Memoria.Globals) (pid size : UInt32)
    (hok : (verificarEspacioYCrearProceso cfg g pid size).2 = true) :
    tieneRegion (verificarEspacioYCrearProceso cfg g pid size).1 pid := by
  have hcreado : ∀ (g : Memoria.Globals) (base limite : UInt32),
      tieneRegion (crearProcesoMem g pid base limite size) pid := by
    intro g base limite
    simp [tieneRegion, crearProcesoMem, nuevoProceso]
  unfold verificarEspacioYCrearProceso at hok ⊢
  cases h : cfg.esquema with
  | otro =>
      exact absurd h hesq
  | fijas =>
      simp only [h] at hok ⊢
      split at hok
      · cases hok
      · exact hcreado _ _ _
  | dinamicas =>
      simp only [h] at hok ⊢
      split at hok
      · cases hok
      · exact (((memoryProcessList_update_perm hperm _).map MemPcb.pid).mem_iff).mpr
          (hcreado _ _ _)

/-- A new thread leaves the regions. -/
theorem tieneRegion_agregarHilo
    (g : Memoria.Globals) (pid tid : UInt32) (filePath : List Char) (q : UInt32) :
    tieneRegion (verificarYAgregarHilo g pid tid filePath).1 q ↔ tieneRegion g q := by
  unfold verificarYAgregarHilo
  split
  · exact Iff.rfl
  · rw [tieneRegion, pids_modificar, tieneRegion]
    exact fun _ _ => rfl

/-- The memoria module, with a known scheme. -/
def servicioDeMemoria (mcfg : Memoria.Config) (alg : SchedulerAlgorithm)
    (hesq : mcfg.esquema ≠ .otro)
    (hperm : ∀ l, (mcfg.listSort ordenarPorBase l).Perm l) :
    Servicio Vecina where
  config := enlazada mcfg alg
  residente v pid := tieneRegion v.memoria (.ofNat pid)
  aceptado v pid size hok := tieneRegion_of_aceptado hesq hperm v.memoria _ _ hok
  rechazado v pid size hno q := by
    simp only [enlazada] at hno ⊢
    rw [verificarEspacioYCrearProceso_refused hno]
  hilo v t q := tieneRegion_agregarHilo v.memoria _ _ _ _

end Memoria

/-- The process is in `list_PCB_active`, its thread 0 in `list_READY_TCB` with a post of
`sem_thread_count`, nothing of it in the lists of what waits, and a region is its own. -/
structure Admitido {μ : Type} (s : Servicio μ) (k k' : Globals μ) (pid : Nat) : Prop where
  activo : k'.listPcbActive = k.listPcbActive ++ [pid]
  listo : ∃ t : Tcb, t.parentPid = pid ∧ t.tid = 0 ∧ t.state = .ready ∧
    k'.listReadyTcb = k.listReadyTcb ++ [t]
  post : k'.semThreadCount = k.semThreadCount + 1
  pcbNew : k.listPcbNew = pid :: k'.listPcbNew
  parametros : ∃ peticion, k.listFirstThreadParams = peticion :: k'.listFirstThreadParams
  tcbNew : k'.listNewTcb = k.listNewTcb
  sinTcb : ∀ t ∈ k'.listNewTcb, ¬ (t.parentPid = pid ∧ t.tid = 0)
  residente : s.residente k'.memoria pid

/-- Nothing but memoria changes, and the process has no region. -/
def NadaCambia {μ : Type} (s : Servicio μ) (k k' : Globals μ) (pid : Nat) : Prop :=
  k' = { k with memoria := k'.memoria } ∧ ¬ s.residente k'.memoria pid

/-- The process is fully admitted, or nothing has changed. -/
def TodoONada {μ : Type} (s : Servicio μ) (k : Globals μ) (pid : Nat) : Prop :=
  Admitido s k (tryCreateNewProcess s.config k).1 pid ∨
  NadaCambia s k (tryCreateNewProcess s.config k).1 pid

/-- Memoria accepts the process. -/
def AceptaProceso {μ : Type} (s : Servicio μ) (k : Globals μ) (pid : Nat) : Prop :=
  (s.config.createProcessMemory k.memoria pid (k.pcbs pid).size).2 = true

instance decidableAceptaProceso {μ : Type} (s : Servicio μ) (k : Globals μ) (pid : Nat) :
    Decidable (AceptaProceso s k pid) :=
  inferInstanceAs (Decidable (_ = true))

/-- Memoria, asked for the process before, accepts its first thread. -/
def AceptaHilo {μ : Type} (s : Servicio μ) (k : Globals μ) (pid : Nat)
    (peticion : ProcessCreate) : Prop :=
  (s.config.createThreadMemory
    (s.config.createProcessMemory k.memoria pid (k.pcbs pid).size).1
    (nuevoTcb k pid peticion.nombreArchivo peticion.prioridad)).2 = true

instance decidableAceptaHilo {μ : Type} (s : Servicio μ) (k : Globals μ) (pid : Nat)
    (peticion : ProcessCreate) :
    Decidable (AceptaHilo s k pid peticion) :=
  inferInstanceAs (Decidable (_ = true))

/-- Both requests are accepted, and the thread is thread 0 and the only one of the process
in NEW. -/
def AceptaAmbos {μ : Type} (s : Servicio μ) (k : Globals μ) (pid : Nat) : Prop :=
  AceptaProceso s k pid ∧
  (∃ peticion ∈ k.listFirstThreadParams.head?, AceptaHilo s k pid peticion) ∧
  (k.pcbs pid).tidCount = 0 ∧ ∀ t ∈ k.listNewTcb, ¬ (t.parentPid = pid ∧ t.tid = 0)

section Attempt

variable {μ : Type} {cfg : Config μ} {k : Globals μ} {pid : Nat} {resto : List Nat}

/-- A process that is not accepted stays where it was. -/
theorem tryCreateNewProcess_rechazado
    (hnew : k.listPcbNew = pid :: resto)
    (hno : (cfg.createProcessMemory k.memoria pid (k.pcbs pid).size).2 = false) :
    (tryCreateNewProcess cfg k).1 =
      { k with memoria := (cfg.createProcessMemory k.memoria pid (k.pcbs pid).size).1 } := by
  unfold tryCreateNewProcess
  simp only [hnew]
  cases k.listFirstThreadParams with
  | nil =>
      rfl
  | cons peticion peticiones =>
      simp [hno]

/-- Without the parameters of its thread an accepted process stays where it was too. -/
theorem tryCreateNewProcess_sinPeticion
    (hnew : k.listPcbNew = pid :: resto)
    (hparams : k.listFirstThreadParams = []) :
    (tryCreateNewProcess cfg k).1 =
      { k with memoria := (cfg.createProcessMemory k.memoria pid (k.pcbs pid).size).1 } := by
  unfold tryCreateNewProcess
  simp only [hnew, hparams]

/-- An accepted process leaves the waiting lists. -/
theorem tryCreateNewProcess_aceptado
    {peticion : ProcessCreate} {peticiones : List ProcessCreate}
    (hnew : k.listPcbNew = pid :: resto)
    (hparams : k.listFirstThreadParams = peticion :: peticiones)
    (hok : (cfg.createProcessMemory k.memoria pid (k.pcbs pid).size).2 = true) :
    (tryCreateNewProcess cfg k).1 =
      procesoCreado cfg
        { k with memoria := (cfg.createProcessMemory k.memoria pid (k.pcbs pid).size).1 }
        pid resto peticion peticiones := by
  unfold tryCreateNewProcess procesoCreado
  simp only [hnew, hparams, hok, if_true]
  split_ifs
  · rfl
  · rfl

/-- The only element that matches is the one at the end. -/
theorem split_of_last
    {α : Type} {l a b : List α} {x y : α} {p : α → Prop}
    (hsplit : l ++ [y] = a ++ x :: b)
    (hx : p x)
    (hl : ∀ z ∈ l, ¬ p z) :
    a = l ∧ x = y ∧ b = [] := by
  rcases List.eq_nil_or_concat b with rfl | ⟨b', z, rfl⟩
  · obtain ⟨hla, hyx⟩ := List.append_inj' hsplit rfl
    exact ⟨hla.symm, (List.singleton_inj.mp hyx).symm, rfl⟩
  · have hcons : l ++ [y] = (a ++ x :: b') ++ [z] := by
      simpa using hsplit
    have hla := (List.append_inj' hcons rfl).1
    exact absurd hx (hl x (by rw [hla]; simp))

/-- Where the first thread of an accepted process goes. -/
theorem procesoCreado_cases
    (cfg : Config μ) (k : Globals μ) (pid : Nat) (resto : List Nat) (peticion : ProcessCreate)
    (peticiones : List ProcessCreate) :
    (∃ l t m, k.listNewTcb ++ [nuevoTcb k pid peticion.nombreArchivo peticion.prioridad] =
        l ++ t :: m ∧
      t.parentPid = pid ∧ t.tid = (k.pcbs pid).tidCount ∧
      (cfg.createThreadMemory k.memoria
        (nuevoTcb k pid peticion.nombreArchivo peticion.prioridad)).2 = true ∧
      procesoCreado cfg k pid resto peticion peticiones =
        { registrarTcb k (nuevoTcb k pid peticion.nombreArchivo peticion.prioridad) with
          listNewTcb := l ++ m
          listReadyTcb := k.listReadyTcb ++ [{ t with state := .ready }]
          semThreadCount := k.semThreadCount + 1
          memoria := (cfg.createThreadMemory k.memoria
            (nuevoTcb k pid peticion.nombreArchivo peticion.prioridad)).1
          listFirstThreadParams := peticiones
          listPcbNew := resto
          listPcbActive :=
            if t.dir = k.nextDir then k.listPcbActive ++ [pid] else k.listPcbActive }) ∨
    ((cfg.createThreadMemory k.memoria
        (nuevoTcb k pid peticion.nombreArchivo peticion.prioridad)).2 = false ∧
      procesoCreado cfg k pid resto peticion peticiones =
        { registrarTcb k (nuevoTcb k pid peticion.nombreArchivo peticion.prioridad) with
          memoria := (cfg.createThreadMemory k.memoria
            (nuevoTcb k pid peticion.nombreArchivo peticion.prioridad)).1
          listFirstThreadParams := peticiones
          listPcbNew := resto }) := by
  unfold procesoCreado
  rcases createThread_cases cfg k pid peticion.nombreArchivo peticion.prioridad with
    ⟨l, t, m, hsplit, hpid, htid, hok, heq⟩ | ⟨hno, heq⟩
  · refine Or.inl ⟨l, t, m, hsplit, hpid, htid, hok, ?_⟩
    rw [heq]
    by_cases hdir : t.dir = k.nextDir
    · simp only [if_pos hdir, if_true]
      rfl
    · simp only [if_neg hdir, reduceCtorEq, if_false]
      rfl
  · refine Or.inr ⟨hno, ?_⟩
    rw [heq]
    rfl

end Attempt

section AllOrNothing

variable {μ : Type} {s : Servicio μ} {k : Globals μ} {pid : Nat} {resto : List Nat}

/-- With both requests accepted the process is fully admitted. -/
theorem AceptaAmbos.admitido
    (hnew : k.listPcbNew = pid :: resto)
    (h : AceptaAmbos s k pid) :
    Admitido s k (tryCreateNewProcess s.config k).1 pid := by
  obtain ⟨hproceso, ⟨peticion, hhead, hhilo⟩, hcero, hsolo⟩ := h
  obtain ⟨peticiones, hparams⟩ := List.head?_eq_some_iff.mp hhead
  have hresidente := s.aceptado _ _ _ hproceso
  rw [tryCreateNewProcess_aceptado hnew hparams hproceso]
  rcases procesoCreado_cases s.config
      { k with memoria := (s.config.createProcessMemory k.memoria pid (k.pcbs pid).size).1 }
      pid resto peticion peticiones with
    ⟨l, t, m, hsplit, hpid, htid, _, heq⟩ | ⟨hno, _⟩
  · -- the thread that moves to READY is the new one
    obtain ⟨rfl, rfl, rfl⟩ := split_of_last (p := fun t => t.parentPid = pid ∧ t.tid = 0) hsplit
      ⟨hpid, htid.trans hcero⟩ hsolo
    rw [heq]
    constructor
    · exact if_pos rfl
    · exact ⟨_, rfl, hcero, rfl, rfl⟩
    · rfl
    · exact hnew
    · exact ⟨peticion, hparams⟩
    · exact List.append_nil _
    · simpa using hsolo
    · exact (s.hilo _ _ _).mpr hresidente
  · exact absurd hhilo (by rw [AceptaHilo]; exact Bool.eq_false_iff.mp hno)

/-- A process that is fully admitted had both requests accepted. -/
theorem Admitido.aceptaAmbos
    (hnew : k.listPcbNew = pid :: resto)
    (hproceso : AceptaProceso s k pid)
    (h : Admitido s k (tryCreateNewProcess s.config k).1 pid) :
    AceptaAmbos s k pid := by
  obtain ⟨peticion, hparams⟩ := h.parametros
  have hsolo : ∀ t ∈ k.listNewTcb, ¬ (t.parentPid = pid ∧ t.tid = 0) := by
    rw [← h.tcbNew]
    exact h.sinTcb
  obtain ⟨listo, _, hcero, _, hready⟩ := h.listo
  rw [tryCreateNewProcess_aceptado hnew hparams hproceso] at hready
  rcases procesoCreado_cases s.config
      { k with memoria := (s.config.createProcessMemory k.memoria pid (k.pcbs pid).size).1 }
      pid resto peticion (tryCreateNewProcess s.config k).1.listFirstThreadParams with
    ⟨l, t, m, _, _, htid, hhilo, heq⟩ | ⟨_, heq⟩
  · rw [heq] at hready
    have hlisto := List.singleton_inj.mp (List.append_cancel_left hready)
    have htid' : t.tid = 0 := by
      rw [← hcero, ← hlisto]
    refine ⟨hproceso, ⟨peticion, ?_, hhilo⟩, htid.symm.trans htid', hsolo⟩
    rw [hparams]
    rfl
  · rw [heq] at hready
    have hlen := congrArg List.length hready
    simp [registrarTcb, modificarPcb] at hlen

/-- A process that memoria accepts does not leave things as they were. -/
theorem not_nadaCambia
    (hnew : k.listPcbNew = pid :: resto)
    (hproceso : AceptaProceso s k pid) :
    ¬ NadaCambia s k (tryCreateNewProcess s.config k).1 pid := by
  rintro ⟨hsame, hsin⟩
  cases hparams : k.listFirstThreadParams with
  | nil =>
      rw [tryCreateNewProcess_sinPeticion hnew hparams] at hsin
      exact hsin (s.aceptado _ _ _ hproceso)
  | cons peticion peticiones =>
      have hlist := congrArg Globals.listPcbNew hsame
      rw [tryCreateNewProcess_aceptado hnew hparams hproceso, hnew] at hlist
      exact List.cons_ne_self pid resto hlist.symm

/-- What a call does as a whole, or not at all, is decided by the two answers. -/
theorem todoONada_iff_acepta
    (hnew : k.listPcbNew = pid :: resto) :
    TodoONada s k pid ↔
      (¬ AceptaProceso s k pid ∧ ¬ s.residente k.memoria pid) ∨ AceptaAmbos s k pid := by
  by_cases hproceso : AceptaProceso s k pid
  · constructor
    · rintro (h | h)
      · exact Or.inr (h.aceptaAmbos hnew hproceso)
      · exact absurd h (not_nadaCambia hnew hproceso)
    · rintro (h | h)
      · exact absurd hproceso h.1
      · exact Or.inl (h.admitido hnew)
  · have hno := Bool.eq_false_iff.mpr hproceso
    have hsame := tryCreateNewProcess_rechazado hnew hno
    have hregion := s.rechazado k.memoria pid (k.pcbs pid).size hno pid
    constructor
    · rintro (h | h)
      · have hlist := h.pcbNew
        rw [hsame] at hlist
        exact absurd hlist (List.cons_ne_self pid k.listPcbNew).symm
      · refine Or.inl ⟨hproceso, ?_⟩
        rw [← hregion]
        have hsin := h.2
        rw [hsame] at hsin
        exact hsin
    · rintro (h | h)
      · right
        rw [hsame]
        exact ⟨rfl, fun hres => h.2 (hregion.mp hres)⟩
      · exact absurd h.1 hproceso

/-- In the queue of the waiting processes, whose PCBs have no thread and whose requests are
there, only the answers matter. -/
theorem Fila.todoONada_iff
    {ps : List ProcessCreate} {a : List Tcb}
    (hf : Fila ps a k)
    (hnew : k.listPcbNew = pid :: resto)
    (hsolo : ∀ t ∈ k.listNewTcb, t.parentPid ≠ pid)
    (hsin : ¬ s.residente k.memoria pid) :
    TodoONada s k pid ↔
      (AceptaProceso s k pid → ∀ peticion ∈ k.listFirstThreadParams.head?,
        AceptaHilo s k pid peticion) := by
  obtain ⟨peticion, peticiones, hparams⟩ :
      ∃ peticion peticiones, k.listFirstThreadParams = peticion :: peticiones := by
    have hlen := hf.alineadas.longitud
    cases hparams : k.listFirstThreadParams with
    | nil =>
        rw [hnew, hparams] at hlen
        cases hlen
    | cons peticion peticiones =>
        exact ⟨peticion, peticiones, rfl⟩
  have hmem : pid ∈ k.listPcbNew := by
    rw [hnew]
    exact List.mem_cons_self
  have hcero : (k.pcbs pid).tidCount = 0 := by
    have hespera := hf.sinHilo hmem
    have hlt : pid < ps.length := by
      rw [hf.orden.esperan] at hmem
      exact List.mem_range.mp (List.mem_of_mem_drop hmem)
    exact (hf.enEspera pid _ hespera (List.getElem?_eq_getElem hlt)).2.1
  have hninguno : ∀ t ∈ k.listNewTcb, ¬ (t.parentPid = pid ∧ t.tid = 0) :=
    fun t ht hes => hsolo t ht hes.1
  rw [todoONada_iff_acepta hnew]
  constructor
  · rintro (h | ⟨_, ⟨q, hq, hhilo⟩, _⟩) hproceso p hp
    · exact absurd hproceso h.1
    · rw [Option.mem_unique hp hq]
      exact hhilo
  · intro h
    by_cases hproceso : AceptaProceso s k pid
    · have hhead : peticion ∈ k.listFirstThreadParams.head? := by
        rw [hparams]
        rfl
      exact Or.inr ⟨hproceso, ⟨peticion, hhead, h hproceso peticion hhead⟩, hcero, hninguno⟩
    · exact Or.inl ⟨hproceso, hsin⟩

end AllOrNothing

/-- Admission is all or nothing exactly when the process is not accepted, and had no
region, or it is accepted with its first thread. -/
theorem admission_all_or_nothing_iff
    {μ : Type} (s : Servicio μ) (k : Globals μ) (pid : Nat) (resto : List Nat)
    (hnew : k.listPcbNew = pid :: resto) :
    TodoONada s k pid ↔
      (¬ AceptaProceso s k pid ∧ ¬ s.residente k.memoria pid) ∨ AceptaAmbos s k pid :=
  todoONada_iff_acepta hnew

/-- Memoria with 64 bytes and dynamic partitions, behind a network. -/
def servicioDinamico : Servicio (Red Vecina) :=
  (servicioDeMemoria Memoria.configDinamicas .fifo (by decide)
    Memoria.estable_configDinamicas.perm).porRed

/-- A process of eight bytes waits, and the next connections are `conectan`. -/
def unoEnEspera (conectan : List Bool) : Globals (Red Vecina) :=
  pedirProceso ['p'] 8 0 (inicial
    { memoria := { memoria := Memoria.inicializar Memoria.configDinamicas, justa := true }
      conectan := conectan })

theorem admission_all_or_nothing_connected :
    TodoONada servicioDinamico (unoEnEspera [true, true]) 0 :=
  (admission_all_or_nothing_iff servicioDinamico (unoEnEspera [true, true]) 0 [] rfl).mpr
    (Or.inr ⟨by decide, ⟨_, rfl, by decide⟩, by decide, by decide⟩)

/-- When memoria cannot be reached for the thread, the process leaves the waiting lists and
is not active. -/
theorem unreachable_thread_loses_process :
    ¬ ∀ (μ : Type) (s : Servicio μ) (k : Globals μ) (pid : Nat) (resto : List Nat),
        k.listPcbNew = pid :: resto → TodoONada s k pid := by
  intro hclaim
  rcases hclaim _ servicioDinamico (unoEnEspera [true, false]) 0 [] rfl with h | h
  · exact absurd h.activo (by decide)
  · exact absurd (congrArg Globals.listPcbNew h.1) (by decide)

end Kernel
end SinIdeas
