import SinIdeas.Kernel.LongTerm

/-!
# Admission of processes

The waiting processes are in `list_PCB_new` and the parameters of their first
threads in `list_first_thread_params`. The two lists stay aligned, processes are
admitted in the order in which they were created, and the loop of the long-term
scheduler ends with an empty list or a refusal of its head.
-/

namespace SinIdeas
namespace Kernel

open Lib

variable {μ : Type}

/-- The process that an event asks for. -/
def peticion : Evento → Option ProcessCreate
  | .respuesta (.processCreate path size priority) =>
      some { nombreArchivo := path, tamanioProceso := size, prioridad := priority }
  | _ => none

/-- The states in which `try_create_NEW_process_loop` calls `try_create_NEW_process`. -/
def intentos (cfg : Config μ) (a : Globals μ) : List (Globals μ) :=
  loopCalls (tryCreateNewProcess cfg) (a.listPcbNew.length + 1) a

/-- The thread 0 that a call of `try_create_NEW_process` creates: the first TCB of the
process that it takes from `list_PCB_new`. -/
def hiloCero (cfg : Config μ) (v : Globals μ) : List Tcb :=
  match v.listPcbNew with
  | [] => []
  | pid :: _ =>
      let r := tryCreateNewProcess cfg v
      if r.2 then (r.1.pcbs pid).tcbs.head?.toList else []

/-- The requests for processes and the threads 0 created so far, in order. -/
structure Historia where
  pedidos : List ProcessCreate
  hilosCero : List Tcb

/-- What an event adds to the history. -/
def Historia.anotar (cfg : Config μ) (h : Historia) (k : Globals μ) (e : Evento) : Historia where
  pedidos := h.pedidos ++ (peticion e).toList
  hilosCero := h.hilosCero ++
    ((llamadaBucle cfg k e).toList.flatMap (intentos cfg)).flatMap (hiloCero cfg)

/-- The history of a run of the kernel. -/
def historia (cfg : Config μ) (memoria : μ) (path : List Char) (size : Nat)
    (es : List Evento) : Historia :=
  history (paso cfg) (Historia.anotar cfg)
    { pedidos := [{ nombreArchivo := path, tamanioProceso := size, prioridad := 0 }]
      hilosCero := (intentos cfg (pedirProceso path size 0 (inicial memoria))).flatMap
        (hiloCero cfg) }
    (arranque cfg memoria path size) es

/-- The waiting processes and the parameters of their first threads are those of the
same requests: the last ones of `pedidos`, whose positions are the PIDs. -/
structure Alineadas (pedidos : List ProcessCreate) (v : Globals μ) : Prop where
  longitud : v.listPcbNew.length = v.listFirstThreadParams.length
  mismas : ∃ n, v.listPcbNew = (List.range pedidos.length).drop n ∧
    v.listFirstThreadParams = pedidos.drop n
  tamanios : ∀ pid ∈ v.listPcbNew, ∀ p, pedidos[pid]? = some p →
    (v.pcbs pid).size = p.tamanioProceso

/-- The processes whose thread 0 was created are the first ones of those requested, and
the others wait; each thread 0 has the parameters of its own request. -/
structure Prefijo (h : Historia) (k : Globals μ) : Prop where
  prefijo : h.hilosCero.length ≤ h.pedidos.length
  esperan : k.listPcbNew = (List.range h.pedidos.length).drop h.hilosCero.length
  parametros : k.listFirstThreadParams = h.pedidos.drop h.hilosCero.length
  propios : ∀ (i : Nat) (t : Tcb), h.hilosCero[i]? = some t → t.parentPid = i ∧ t.tid = 0 ∧
    ∃ p : ProcessCreate, h.pedidos[i]? = some p ∧ t.filePath = p.nombreArchivo ∧
      t.priority = p.prioridad

/-- `try_create_NEW_process_loop` is called in `a`, after the requests `pedidos`. -/
inductive LlamaBucle
    (cfg : Config μ) (memoria : μ) (path : List Char) (size : Nat) :
    List ProcessCreate → Globals μ → Prop
  | arranque :
      LlamaBucle cfg memoria path size
        [{ nombreArchivo := path, tamanioProceso := size, prioridad := 0 }]
        (pedirProceso path size 0 (inicial memoria))
  | paso {es : List Evento} {k k' a : Globals μ} {e : Evento} :
      Run (fun a e b => paso cfg a e = some b) anyLabel (arranque cfg memoria path size) es k →
      paso cfg k e = some k' →
      llamadaBucle cfg k e = some a →
      LlamaBucle cfg memoria path size
        (((historia cfg memoria path size es).anotar cfg k e).pedidos) a

/-- Memoria refuses the head of `list_PCB_new` in `v`, and it is left there. -/
def Rechazada (cfg : Config μ) (v b : Globals μ) : Prop :=
  ∃ pid resto, v.listPcbNew = pid :: resto ∧ b.listPcbNew = pid :: resto ∧
    (cfg.createProcessMemory v.memoria pid (v.pcbs pid).size).2 = false

/-- What the argument needs of the kernel after the requests `ps`, with the threads 0 `a`. -/
structure Fila (ps : List ProcessCreate) (a : List Tcb) (k : Globals μ) : Prop where
  viejos : k.listaTcbsBlockeados = []
  emitidos : k.globalPid = ps.length
  orden : Prefijo { pedidos := ps, hilosCero := a } k
  enEspera : ∀ pid p, a.length ≤ pid → ps[pid]? = some p →
    (k.pcbs pid).tcbs = [] ∧ (k.pcbs pid).tidCount = 0 ∧ (k.pcbs pid).size = p.tamanioProceso
  activos : ∀ pid ∈ k.listPcbActive, pid < a.length
  actual : ∀ pid, k.currentPcbExecuting = some pid → pid < a.length

section Queue

variable {cfg : Config μ} {k k' : Globals μ} {ps : List ProcessCreate} {a : List Tcb}

theorem Fila.soloHilos
    (hf : Fila ps a k)
    (h : SoloHilos k k') :
    Fila ps a k' := by
  rw [h]
  exact ⟨hf.viejos, hf.emitidos, ⟨hf.orden.prefijo, hf.orden.esperan, hf.orden.parametros,
    hf.orden.propios⟩, hf.enEspera, hf.activos, hf.actual⟩

/-- A process whose thread 0 was not created keeps its PCB while threads are attended. -/
theorem Fila.ajena_pcbs
    {pid : Nat}
    (hf : Fila ps a k)
    (h : Ajena cfg k k')
    (hpid : a.length ≤ pid) :
    k'.pcbs pid = k.pcbs pid := by
  refine h.pcbs pid ?_ ?_
  · intro hcurrent
    have := hf.actual pid hcurrent
    omega
  · intro hactive
    have := hf.activos pid hactive
    omega

/-- And while another process ends. -/
theorem Fila.finDe_pcbs
    {pid q : Nat}
    (hf : Fila ps a k)
    (h : FinDe cfg pid k k')
    (hq : a.length ≤ q) :
    k'.pcbs q = k.pcbs q := by
  refine h.pcbs q ?_
  intro hcurrent
  have := hf.actual q hcurrent
  omega

theorem Fila.ajena
    (hf : Fila ps a k)
    (h : Ajena cfg k k') :
    Fila ps a k' := by
  refine ⟨h.viejos.trans hf.viejos, h.emitidos.trans hf.emitidos, ⟨hf.orden.prefijo,
    h.nuevos.trans hf.orden.esperan, h.peticiones.trans hf.orden.parametros,
    hf.orden.propios⟩, ?_, ?_, ?_⟩
  · intro pid p hpid hp
    rw [hf.ajena_pcbs h hpid]
    exact hf.enEspera pid p hpid hp
  · intro pid hpid
    rw [h.activos] at hpid
    exact hf.activos pid hpid
  · intro pid hpid
    rcases h.actual pid hpid with hpid | hpid
    · exact hf.actual pid hpid
    · exact hf.activos pid hpid

theorem Fila.finDe
    {pid : Nat}
    (hf : Fila ps a k)
    (h : FinDe cfg pid k k') :
    Fila ps a k' := by
  refine ⟨h.viejos.trans hf.viejos, h.emitidos.trans hf.emitidos, ⟨hf.orden.prefijo,
    h.nuevos.trans hf.orden.esperan, h.peticiones.trans hf.orden.parametros,
    hf.orden.propios⟩, ?_, ?_, ?_⟩
  · intro q p hq hp
    rw [hf.finDe_pcbs h hq]
    exact hf.enEspera q p hq hp
  · intro q hq
    rw [h.activos] at hq
    exact hf.activos q (List.mem_of_mem_eraseP hq)
  · intro q hq
    rw [h.actual] at hq
    exact hf.actual q hq

/-- A request waits at the end. -/
theorem Fila.pedir
    (hf : Fila ps a k)
    (path : List Char) (size priority : Nat) :
    Fila (ps ++ [{ nombreArchivo := path, tamanioProceso := size, prioridad := priority }]) a
      (pedirProceso path size priority k) := by
  have hle := hf.orden.prefijo
  refine ⟨hf.viejos, ?_, ⟨?_, ?_, ?_, ?_⟩, ?_, hf.activos, hf.actual⟩
  · simp [pedirProceso, createProcess, hf.emitidos]
  · simp only [List.length_append]
    exact Nat.le_add_right_of_le hle
  · simp only [pedirProceso, createProcess, hf.orden.esperan, hf.emitidos, List.length_append,
      List.length_singleton, List.range_succ]
    rw [List.drop_append_of_le_length]
    simpa using hle
  · simp only [pedirProceso, createProcess, hf.orden.parametros]
    rw [List.drop_append_of_le_length hle]
  · intro i t ht
    obtain ⟨hpid, htid, p, hp, hown⟩ := hf.orden.propios i t ht
    have hlt := (List.getElem?_eq_some_iff.mp hp).1
    exact ⟨hpid, htid, p, by rw [List.getElem?_append_left hlt]; exact hp, hown⟩
  · intro pid p hpid hp
    simp only [pedirProceso, createProcess, hf.emitidos]
    by_cases heq : pid = ps.length
    · subst heq
      simp only [List.getElem?_concat_length, Option.some.injEq] at hp
      simp [← hp]
    · rw [Function.update_of_ne heq]
      refine hf.enEspera pid p hpid ?_
      have hlt := (List.getElem?_eq_some_iff.mp hp).1
      simp only [List.length_append, List.length_singleton] at hlt
      rwa [List.getElem?_append_left (by omega)] at hp

theorem eq_of_drop_cons
    {α : Type} {l xs : List α} {n : Nat} {x : α}
    (h : x :: xs = l.drop n) :
    l[n]? = some x ∧ xs = l.drop (n + 1) := by
  constructor
  · have hhead := congrArg List.head? h
    simpa [List.head?_drop] using hhead.symm
  · have htail := congrArg List.tail h
    simpa using htail

/-- A new memoria changes nothing of the queue. -/
theorem Fila.conMemoria
    (hf : Fila ps a k)
    (m : μ) :
    Fila ps a { k with memoria := m } :=
  ⟨hf.viejos, hf.emitidos, ⟨hf.orden.prefijo, hf.orden.esperan, hf.orden.parametros,
    hf.orden.propios⟩, hf.enEspera, hf.activos, hf.actual⟩

/-- The head of the queue is admitted with its own parameters. -/
theorem Fila.admitir
    {pid : Nat} {resto : List Nat} {peticion : ProcessCreate}
    {peticiones : List ProcessCreate}
    (hf : Fila ps a k)
    (hnew : k.listPcbNew = pid :: resto)
    (hparams : k.listFirstThreadParams = peticion :: peticiones) :
    Fila ps (a ++ [nuevoTcb k pid peticion.nombreArchivo peticion.prioridad])
      (procesoCreado cfg k pid resto peticion peticiones) := by
  obtain ⟨hpid, hresto⟩ := eq_of_drop_cons (hnew.symm.trans hf.orden.esperan)
  obtain ⟨hpeticion, hpeticiones⟩ := eq_of_drop_cons (hparams.symm.trans hf.orden.parametros)
  have hlt : a.length < ps.length := (List.getElem?_eq_some_iff.mp hpeticion).1
  have hpid : pid = a.length := by
    rw [List.getElem?_range hlt] at hpid
    exact (Option.some.inj hpid).symm
  obtain ⟨_, hcero, _⟩ := hf.enEspera pid peticion (by omega) (by rw [hpid]; exact hpeticion)
  obtain ⟨nuevos, listos, n, activos, hactivos, heq⟩ :=
    procesoCreado_resto cfg k pid resto peticion peticiones
  rw [heq]
  have hlen : (a ++ [nuevoTcb k pid peticion.nombreArchivo peticion.prioridad]).length =
      a.length + 1 := by simp
  refine ⟨hf.viejos, hf.emitidos, ⟨?_, ?_, ?_, ?_⟩, ?_, ?_, ?_⟩
  · simp only [hlen]
    exact hlt
  · simp only [hlen]
    exact hresto
  · simp only [hlen]
    exact hpeticiones
  · intro i t ht
    rcases lt_or_ge i a.length with hi | hi
    · rw [List.getElem?_append_left hi] at ht
      exact hf.orden.propios i t ht
    · rw [List.getElem?_append_right hi, List.getElem?_singleton] at ht
      split_ifs at ht with hzero
      cases ht
      have hi : i = a.length := by omega
      refine ⟨hpid.trans hi.symm, hcero, peticion, by rw [hi]; exact hpeticion, rfl, rfl⟩
  · intro q p hq hp
    rw [hlen] at hq
    simp only
    rw [Function.update_of_ne (by omega)]
    exact hf.enEspera q p (by omega) hp
  · intro q hq
    rw [hlen]
    rcases hactivos q hq with hq | rfl
    · exact Nat.lt_succ_of_lt (hf.activos q hq)
    · omega
  · intro q hq
    rw [hlen]
    exact Nat.lt_succ_of_lt (hf.actual q hq)

/-- A call of `try_create_NEW_process` keeps the queue, with the thread 0 it creates. -/
theorem Fila.intento
    (hf : Fila ps a k) :
    Fila ps (a ++ hiloCero cfg k) (tryCreateNewProcess cfg k).1 := by
  rcases tryCreateNewProcess_cases cfg k with ⟨m, heq⟩ |
    ⟨pid, resto, peticion, peticiones, m, hnew, hparams, heq⟩
  · have hcero : hiloCero cfg k = [] := by
      unfold hiloCero
      split
      · rfl
      · simp [heq]
    rw [hcero, List.append_nil, heq]
    exact hf.conMemoria m
  · obtain ⟨hpid, _⟩ := eq_of_drop_cons (hnew.symm.trans hf.orden.esperan)
    obtain ⟨hpeticion, _⟩ := eq_of_drop_cons (hparams.symm.trans hf.orden.parametros)
    have hlt : a.length < ps.length := (List.getElem?_eq_some_iff.mp hpeticion).1
    rw [List.getElem?_range hlt] at hpid
    cases hpid
    obtain ⟨hvacio, _, _⟩ := hf.enEspera a.length peticion le_rfl hpeticion
    have hcero : hiloCero cfg k =
        [nuevoTcb k a.length peticion.nombreArchivo peticion.prioridad] := by
      obtain ⟨_, _, _, _, _, hcreado⟩ :=
        procesoCreado_resto cfg { k with memoria := m } a.length resto peticion peticiones
      have htcbs : ((tryCreateNewProcess cfg k).1.pcbs a.length).tcbs =
          [nuevoTcb k a.length peticion.nombreArchivo peticion.prioridad] := by
        rw [heq, hcreado]
        simp only [Function.update_self, addTcbToPcb, hvacio, List.nil_append]
        rfl
      have hflag : (tryCreateNewProcess cfg k).2 = true := by rw [heq]
      unfold hiloCero
      rw [hnew]
      simp only [htcbs, hflag, if_true, List.head?_cons, Option.toList_some]
    rw [hcero, heq]
    exact (hf.conMemoria m).admitir hnew hparams

/-- The thread 0 of a waiting process was not created. -/
theorem Fila.sinHilo
    {pid : Nat}
    (hf : Fila ps a k)
    (hpid : pid ∈ k.listPcbNew) :
    a.length ≤ pid := by
  rw [hf.orden.esperan] at hpid
  obtain ⟨i, hlt, hi⟩ := List.mem_iff_getElem.mp hpid
  simp only [List.getElem_drop, List.getElem_range] at hi
  omega

/-- In every state of the queue the two lists are aligned. -/
theorem Fila.alineadas
    (hf : Fila ps a k) :
    Alineadas ps k := by
  refine ⟨?_, ⟨a.length, hf.orden.esperan, hf.orden.parametros⟩, ?_⟩
  · rw [hf.orden.esperan, hf.orden.parametros]
    simp
  · intro pid hpid p hp
    exact (hf.enEspera pid p (hf.sinHilo hpid) hp).2.2

theorem tryCreateRounds_eq
    (n : Nat) :
    tryCreateRounds cfg n k = loopEnd (tryCreateNewProcess cfg) n k := by
  induction n generalizing k with
  | zero =>
      rfl
  | succ n ih =>
      unfold tryCreateRounds loopEnd
      dsimp only
      split_ifs
      · exact ih
      · rfl

/-- The loop of the long-term scheduler ends: every round takes a waiting process. -/
theorem tryCreateNewProcessLoop_run
    (cfg : Config μ) (k : Globals μ) :
    LoopRun (tryCreateNewProcess cfg) k (intentos cfg k) (tryCreateNewProcessLoop cfg k) := by
  unfold tryCreateNewProcessLoop intentos
  rw [tryCreateRounds_eq]
  refine loopRun_of_measure (m := fun v => v.listPcbNew.length) ?_ (Nat.lt_succ_self _)
  intro v hv
  have := tryCreateNewProcess_length hv
  omega

/-- The loop keeps the queue, in each of its rounds, with the threads 0 it creates. -/
theorem Fila.bucle
    (cfg : Config μ)
    (hf : Fila ps a k) :
    (∀ v ∈ intentos cfg k, ∃ a, Fila ps a v) ∧
      Fila ps (a ++ (intentos cfg k).flatMap (hiloCero cfg)) (tryCreateNewProcessLoop cfg k) :=
  (tryCreateNewProcessLoop_run cfg k).logged (I := Fila ps) hf (fun hf => hf.intento)

/-- A call on an aligned queue that creates nothing found it empty or was refused. -/
theorem Alineadas.rechazo
    (h : Alineadas ps k)
    (hno : (tryCreateNewProcess cfg k).2 = false) :
    (tryCreateNewProcess cfg k).1.listPcbNew = [] ∨
      Rechazada cfg k (tryCreateNewProcess cfg k).1 := by
  cases hnew : k.listPcbNew with
  | nil =>
      simp [tryCreateNewProcess, hnew]
  | cons pid resto =>
      cases hparams : k.listFirstThreadParams with
      | nil =>
          have hlen := h.longitud
          rw [hnew, hparams] at hlen
          cases hlen
      | cons peticion peticiones =>
          right
          cases hmem : (cfg.createProcessMemory k.memoria pid (k.pcbs pid).size).2 with
          | false =>
              refine ⟨pid, resto, hnew, ?_, hmem⟩
              simp [tryCreateNewProcess, hnew, hparams, hmem]
          | true =>
              simp only [tryCreateNewProcess, hnew, hparams, hmem, if_true] at hno
              split_ifs at hno

/-- A step keeps the queue, with what it adds to the history. -/
theorem Fila.paso
    {h : Historia} {e : Evento}
    (hf : Fila h.pedidos h.hilosCero k)
    (hstep : paso cfg k e = some k') :
    Fila (h.anotar cfg k e).pedidos (h.anotar cfg k e).hilosCero k' ∧
      ∀ v ∈ llamadaBucle cfg k e, Fila (h.anotar cfg k e).pedidos h.hilosCero v := by
  have hsin : (∀ path size priority, e ≠ .respuesta (.processCreate path size priority)) →
      (h.anotar cfg k e).pedidos = h.pedidos := by
    intro hno
    unfold Historia.anotar peticion
    split
    · exact absurd rfl (hno _ _ _)
    · simp
  cases paso_largoPlazo hf.viejos hstep with
  | ajena hllama _ hajena =>
      have hpedidos := hsin (by rintro path size priority rfl; cases hllama)
      rw [hpedidos]
      refine ⟨?_, by simp [hllama]⟩
      simp only [Historia.anotar, hllama, Option.toList_none, List.flatMap_nil, List.append_nil]
      exact hf.ajena hajena
  | @creado path size priority fase he hk' =>
      subst he hk'
      have hquantum : Fila h.pedidos h.hilosCero (interruptQuantum k) := hf.soloHilos rfl
      have hwait := hquantum.pedir path size priority
      constructor
      · obtain ⟨_, hend⟩ := Fila.bucle cfg hwait
        simp only [Historia.anotar, llamadaBucle, peticion, Option.toList_some,
          List.flatMap_singleton]
        exact hend.soloHilos rfl
      · intro v hv
        cases hv
        exact hwait
  | @salida pid fase k₁ k₂ he hpid hllama _ hajena htermina hk' =>
      subst he hk'
      rw [hsin (by rintro path size priority hno; cases hno)]
      have hwait := (hf.ajena hajena).finDe htermina
      constructor
      · obtain ⟨_, hend⟩ := Fila.bucle cfg hwait
        simp only [Historia.anotar, hllama, Option.toList_some, List.flatMap_singleton]
        exact hend.soloHilos rfl
      · intro v hv
        rw [hllama] at hv
        cases hv
        exact hwait
  | sinBucle hllama _ htermina =>
      have hpedidos := hsin (by rintro path size priority rfl; cases hllama)
      rw [hpedidos]
      refine ⟨?_, by simp [hllama]⟩
      simp only [Historia.anotar, hllama, Option.toList_none, List.flatMap_nil, List.append_nil]
      exact hf.finDe htermina

/-- The queue of the kernel before its first process. -/
theorem fila_inicial (memoria : μ) : Fila [] [] (inicial memoria) := by
  refine ⟨rfl, rfl, ⟨le_rfl, rfl, rfl, ?_⟩, ?_, ?_, ?_⟩
  · intro i t ht
    cases ht
  · intro pid p _ hp
    cases hp
  · intro pid hpid
    cases hpid
  · intro pid hpid
    cases hpid

/-- Every run keeps the queue. -/
theorem fila_run
    {ok : Globals μ → Evento → Prop} {memoria : μ} {path : List Char} {size : Nat}
    {es : List Evento}
    (hrun : Run (fun a e b => paso cfg a e = some b) ok (arranque cfg memoria path size) es k) :
    Fila (historia cfg memoria path size es).pedidos
      (historia cfg memoria path size es).hilosCero k := by
  refine hrun.history (I := fun (h : Historia) k => Fila h.pedidos h.hilosCero k) ?_ ?_
  · exact (Fila.bucle cfg ((fila_inicial memoria).pedir path size 0)).2
  · intro h a b e hf _ hstep
    exact (hf.paso hstep).1

end Queue

/-- In every run, whatever memoria answers: the processes whose thread 0 was created are
the first ones requested, each with its own parameters, and the others wait in order; in
every call of `try_create_NEW_process` the two lists are aligned; and every loop ends,
with NEW empty or its head refused. -/
theorem processes_admitted_in_order
    (cfg : Config μ) (memoria : μ) (path : List Char) (size : Nat) :
    (∀ es k, Run (fun a e b => paso cfg a e = some b) anyLabel
        (arranque cfg memoria path size) es k →
      Prefijo (historia cfg memoria path size es) k) ∧
    (∀ pedidos a, LlamaBucle cfg memoria path size pedidos a →
      ∃ vs b, LoopRun (tryCreateNewProcess cfg) a vs b ∧ tryCreateNewProcessLoop cfg a = b ∧
        (∀ v ∈ vs, Alineadas pedidos v) ∧
        (b.listPcbNew = [] ∨ ∃ v ∈ vs, Rechazada cfg v b)) := by
  constructor
  · intro es k hrun
    exact (fila_run hrun).orden
  · intro pedidos a hllama
    have hwait : ∃ hilos, Fila pedidos hilos a := by
      cases hllama with
      | arranque =>
          exact ⟨[], (fila_inicial memoria).pedir path size 0⟩
      | paso hrun hstep hllama =>
          exact ⟨_, ((fila_run hrun).paso hstep).2 a hllama⟩
    obtain ⟨hilos, hf⟩ := hwait
    have hloop := tryCreateNewProcessLoop_run cfg a
    have haligned : ∀ v ∈ intentos cfg a, Alineadas pedidos v := by
      intro v hv
      obtain ⟨_, hv⟩ := (Fila.bucle cfg hf).1 v hv
      exact hv.alineadas
    refine ⟨intentos cfg a, tryCreateNewProcessLoop cfg a, hloop, rfl, haligned, ?_⟩
    obtain ⟨v, hv, hno, hend⟩ := hloop.last
    rw [hend]
    rcases (haligned v hv).rechazo hno with hnew | hrefused
    · exact Or.inl hnew
    · exact Or.inr ⟨v, hv, hrefused⟩

/-- A memoria that counts the bytes that are free. -/
def bytesLibres : Config Nat where
  schedulerAlgorithm := .fifo
  createProcessMemory libres _ size :=
    if size ≤ libres then (libres - size, true) else (libres, false)
  createThreadMemory libres _ := (libres, true)
  deleteProcessMemory libres _ size := (libres + size, true)
  deleteThreadMemory libres _ := (libres, true)

/-- The first process creates one that has to wait, and ends. -/
def esperaYEntra : List Evento :=
  [.despachar, .respuesta (.processCreate ['b'] 20 0), .despachar, .respuesta (.processExit 0),
    .seguirFin, .seguirFin]

theorem processes_admitted_in_order_espera :
    ∃ a k, execute (paso bytesLibres) (arranque bytesLibres 24 ['a'] 16)
        (esperaYEntra.take 2) = some a ∧ a.listPcbNew = [1] ∧
      execute (paso bytesLibres) (arranque bytesLibres 24 ['a'] 16) esperaYEntra = some k ∧
      k.listPcbNew = [] ∧ k.listPcbActive = [1] ∧
      Prefijo (historia bytesLibres 24 ['a'] 16 esperaYEntra) k := by
  have hrun : Run (fun a e b => paso bytesLibres a e = some b) anyLabel
      (arranque bytesLibres 24 ['a'] 16) esperaYEntra _ :=
    run_of_isSome (paso bytesLibres) id (by decide) (by decide)
  exact ⟨_, _, (Option.some_get (by decide)).symm, by decide, execute_of_run hrun, by decide,
    by decide, (processes_admitted_in_order bytesLibres 24 ['a'] 16).1 _ _ hrun⟩

end Kernel
end SinIdeas
