import Mathlib.Data.Multiset.Filter
import SinIdeas.Kernel.Admission
import SinIdeas.Kernel.ProcessEnd
import SinIdeas.Kernel.ThreadPlaces

/-!
# What memoria has of the kernel

Memoria keeps a table of its own with the processes and threads that the kernel asked
for. `Residencia` is that table up to order, and `Reside` says how each request changes
it. The kernel and the table agree in every run: the resident processes are the active
ones. As long as processes end without a trace, every live thread has its context, and
memoria has no other ones if no thread is lost.
-/

namespace SinIdeas
namespace Kernel

open Lib

variable {μ : Type}

/-- The processes that are resident and the contexts of their threads, with the numbers
that are sent to memoria. -/
@[ext]
structure Residencia where
  procesos : Multiset UInt32
  hilos : Multiset (UInt32 × UInt32)

/-- PID and TID of a thread as they are sent. -/
def Hilo.clave (h : Hilo) : UInt32 × UInt32 := (.ofNat h.pid, .ofNat h.tid)

/-- How many PIDs there are: `-1` stands for no process. -/
def pidsDisponibles : Nat := 4294967295

/-- A process more. -/
def Residencia.conProceso (r : Residencia) (pid : UInt32) : Residencia :=
  { r with procesos := pid ::ₘ r.procesos }

/-- A context more. -/
def Residencia.conHilo (r : Residencia) (i : UInt32 × UInt32) : Residencia :=
  { r with hilos := i ::ₘ r.hilos }

/-- A context less. -/
def Residencia.sinHilo (r : Residencia) (i : UInt32 × UInt32) : Residencia :=
  { r with hilos := r.hilos.erase i }

/-- A process less, with its contexts. -/
def Residencia.sinProceso (r : Residencia) (pid : UInt32) : Residencia where
  procesos := r.procesos.filter (fun p => p ≠ pid)
  hilos := r.hilos.filter (fun i => i.1 ≠ pid)

/-- How memoria answers the kernel, as long as it keeps `I`: a process with a PID of its
own may be admitted, and a thread is as long as its process is resident. -/
structure Reside (cfg : Config μ) (res : μ → Residencia) (I : μ → Prop) : Prop where
  crear : ∀ {m : μ} {pid : Nat} (size : Nat), I m → pid < pidsDisponibles →
    UInt32.ofNat pid ∉ (res m).procesos →
    I (cfg.createProcessMemory m pid size).1 ∧
      res (cfg.createProcessMemory m pid size).1 =
        if (cfg.createProcessMemory m pid size).2 then (res m).conProceso (.ofNat pid)
        else res m
  agregar : ∀ {m : μ} (t : Tcb), I m →
    I (cfg.createThreadMemory m t).1 ∧
      ((cfg.createThreadMemory m t).2 = true ↔ UInt32.ofNat t.parentPid ∈ (res m).procesos) ∧
      res (cfg.createThreadMemory m t).1 =
        if (cfg.createThreadMemory m t).2 then (res m).conHilo t.hilo.clave else res m
  borrar : ∀ {m : μ} (pid size : Nat), I m →
    I (cfg.deleteProcessMemory m pid size).1 ∧
      res (cfg.deleteProcessMemory m pid size).1 = (res m).sinProceso (.ofNat pid)
  quitar : ∀ {m : μ} (t : Tcb), I m →
    I (cfg.deleteThreadMemory m t).1 ∧
      res (cfg.deleteThreadMemory m t).1 = (res m).sinHilo t.hilo.clave

/-- The process that a `dump_memory_thread` is ending. -/
def DumpFase.pid? : DumpFase → Option Nat
  | .enVuelo => none
  | .finalizando pid _ => some pid
  | .esperando pid _ => some pid

/-- The resident processes are the active ones; and what the argument needs of the
kernel. -/
structure Residentes (res : μ → Residencia) (I : μ → Prop) (k : Globals μ) : Prop where
  coherente : Coherente k
  fila : ∃ ps a, Fila ps a k
  dumps : ∀ d ∈ k.dumps, ∀ pid ∈ d.fase.pid?, pid < k.globalPid
  memoria : I k.memoria
  procesos : (res k.memoria).procesos = ↑(k.listPcbActive.map UInt32.ofNat)
  activos : k.listPcbActive.Nodup

section Processes

variable {cfg : Config μ} {res : μ → Residencia} {I : μ → Prop} {k k' : Globals μ} {pid : Nat}

theorem ofNat_inj_of_lt
    {p q : Nat}
    (hp : p < pidsDisponibles)
    (hq : q < pidsDisponibles)
    (h : UInt32.ofNat p = UInt32.ofNat q) :
    p = q := by
  have h' := congrArg UInt32.toNat h
  have hsize : pidsDisponibles < UInt32.size := by decide
  rwa [UInt32.toNat_ofNat_of_lt' (hp.trans hsize), UInt32.toNat_ofNat_of_lt' (hq.trans hsize)]
    at h'

theorem mem_map_ofNat
    {l : List Nat}
    (hl : ∀ q ∈ l, q < pidsDisponibles)
    (hpid : pid < pidsDisponibles) :
    UInt32.ofNat pid ∈ l.map UInt32.ofNat ↔ pid ∈ l := by
  constructor
  · intro h
    obtain ⟨q, hq, heq⟩ := List.mem_map.mp h
    rwa [← ofNat_inj_of_lt (hl q hq) hpid heq]
  · exact List.mem_map_of_mem

/-- Taking out a PID, and its number. -/
theorem map_ofNat_eraseP
    {l : List Nat}
    (hnodup : l.Nodup)
    (hl : ∀ q ∈ l, q < pidsDisponibles)
    (hpid : pid < pidsDisponibles) :
    (l.eraseP (fun p => p == pid)).map UInt32.ofNat =
      (l.map UInt32.ofNat).filter (fun p => p ≠ .ofNat pid) := by
  rw [← List.erase_eq_eraseP', hnodup.erase_eq_filter, List.filter_map]
  refine congrArg (List.map UInt32.ofNat) (List.filter_congr (fun q hq => ?_))
  rw [Function.comp_apply, bne, beq_eq_decide, ← decide_not, decide_eq_decide]
  exact not_congr ⟨fun h => h ▸ rfl, ofNat_inj_of_lt (hl q hq) hpid⟩

theorem Fila.acotados
    {ps : List ProcessCreate} {a : List Tcb}
    (hf : Fila ps a k) :
    a.length ≤ k.globalPid := by
  rw [hf.emitidos]
  exact hf.orden.prefijo

theorem Residentes.activo_lt
    (h : Residentes res I k)
    (hpids : k.globalPid ≤ pidsDisponibles) :
    ∀ q ∈ k.listPcbActive, q < pidsDisponibles := by
  obtain ⟨ps, a, hf⟩ := h.fila
  intro q hq
  have := hf.activos q hq
  have := hf.acotados
  omega

theorem Residentes.mem_procesos
    (h : Residentes res I k)
    (hpids : k.globalPid ≤ pidsDisponibles)
    (hpid : pid < pidsDisponibles) :
    UInt32.ofNat pid ∈ (res k.memoria).procesos ↔ pid ∈ k.listPcbActive := by
  rw [h.procesos, Multiset.mem_coe]
  exact mem_map_ofNat (h.activo_lt hpids) hpid

/-- Where nothing changes that the agreement speaks of. -/
theorem Residentes.of_ajena
    (hspec : Reside cfg res I)
    (h : Residentes res I k)
    (hajena : Ajena cfg k k')
    (hcoherente : Coherente k')
    (hdumps : ∀ d ∈ k'.dumps, ∀ pid ∈ d.fase.pid?, pid < k'.globalPid) :
    Residentes res I k' := by
  obtain ⟨ps, a, hf⟩ := h.fila
  have hmem : I k'.memoria ∧ (res k'.memoria).procesos = (res k.memoria).procesos := by
    refine Relation.ReflTransGen.head_induction_on
      (motive := fun m _ => I m → I k'.memoria ∧ (res k'.memoria).procesos = (res m).procesos)
      hajena.memoria (fun hm => ⟨hm, rfl⟩) ?_ h.memoria
    rintro m m' ⟨t, rfl | rfl⟩ _ ih hm
    · obtain ⟨hm', -, hres⟩ := hspec.agregar t hm
      obtain ⟨hend, hprocs⟩ := ih hm'
      refine ⟨hend, hprocs.trans ?_⟩
      rw [hres]
      split_ifs <;> rfl
    · obtain ⟨hm', hres⟩ := hspec.quitar t hm
      obtain ⟨hend, hprocs⟩ := ih hm'
      refine ⟨hend, hprocs.trans ?_⟩
      rw [hres]
      rfl
  exact ⟨hcoherente, ⟨ps, a, hf.ajena hajena⟩, hdumps, hmem.1,
    by rw [hmem.2, h.procesos, hajena.activos], by rw [hajena.activos]; exact h.activos⟩

/-- A process ends in the kernel and in memoria. -/
theorem Residentes.finDe
    (hspec : Reside cfg res I)
    (h : Residentes res I k)
    (hpids : k.globalPid ≤ pidsDisponibles)
    (hpid : pid < k.globalPid)
    (hfin : FinDe cfg pid k k')
    (hcoherente : Coherente k')
    (hdumps : ∀ d ∈ k'.dumps, ∀ pid ∈ d.fase.pid?, pid < k'.globalPid) :
    Residentes res I k' := by
  obtain ⟨ps, a, hf⟩ := h.fila
  obtain ⟨hm, hres⟩ := hspec.borrar pid (k.pcbs pid).size h.memoria
  refine ⟨hcoherente, ⟨ps, a, hf.finDe hfin⟩, hdumps, hfin.memoria ▸ hm, ?_, ?_⟩
  · rw [hfin.memoria, hres, hfin.activos, map_ofNat_eraseP h.activos (h.activo_lt hpids)
      (lt_of_lt_of_le hpid hpids), Residencia.sinProceso, h.procesos]
    rfl
  · rw [hfin.activos]
    exact h.activos.sublist (List.eraseP_sublist)

/-- Everything a round of the long-term scheduler can do, with what it asks memoria. -/
theorem tryCreateNewProcess_pedidos
    (cfg : Config μ) (k : Globals μ) :
    (tryCreateNewProcess cfg k = (k, false) ∧ k.listPcbNew = []) ∨
    (∃ pid resto, k.listPcbNew = pid :: resto ∧
      (k.listFirstThreadParams = [] ∨
        (cfg.createProcessMemory k.memoria pid (k.pcbs pid).size).2 = false) ∧
      tryCreateNewProcess cfg k =
        ({ k with memoria := (cfg.createProcessMemory k.memoria pid (k.pcbs pid).size).1 },
          false)) ∨
    (∃ pid resto peticion peticiones, k.listPcbNew = pid :: resto ∧
      k.listFirstThreadParams = peticion :: peticiones ∧
      (cfg.createProcessMemory k.memoria pid (k.pcbs pid).size).2 = true ∧
      tryCreateNewProcess cfg k =
        (procesoCreado cfg
          { k with memoria := (cfg.createProcessMemory k.memoria pid (k.pcbs pid).size).1 }
          pid resto peticion peticiones, true)) := by
  cases hnew : k.listPcbNew with
  | nil =>
      exact Or.inl ⟨by simp [tryCreateNewProcess, hnew], rfl⟩
  | cons pid resto =>
      cases hparams : k.listFirstThreadParams with
      | nil =>
          exact Or.inr (Or.inl ⟨pid, resto, rfl, Or.inl rfl,
            by simp [tryCreateNewProcess, hnew, hparams]⟩)
      | cons peticion peticiones =>
          cases hmem : (cfg.createProcessMemory k.memoria pid (k.pcbs pid).size).2 with
          | false =>
              exact Or.inr (Or.inl ⟨pid, resto, rfl, Or.inr hmem,
                by simp [tryCreateNewProcess, hnew, hparams, hmem]⟩)
          | true =>
              refine Or.inr (Or.inr ⟨pid, resto, peticion, peticiones, rfl, rfl, hmem, ?_⟩)
              simp only [tryCreateNewProcess, hnew, hparams, hmem, if_true, procesoCreado]
              split_ifs <;> rfl

/-- What `create_thread` asks memoria, and the thread that it makes ready. -/
theorem createThread_residencia
    (hspec : Reside cfg res I)
    (pid : Nat) (path : List Char) (priority : Nat)
    (hm : I k.memoria) :
    I (createThread cfg k pid path priority).1.memoria ∧
      ((UInt32.ofNat pid ∈ (res k.memoria).procesos ∧
        ∃ h : Hilo, h.clave = (nuevoTcb k pid path priority).hilo.clave ∧
          (vista (createThread cfg k pid path priority).1).threads.Perm
            (h :: (vista k).threads) ∧
          res (createThread cfg k pid path priority).1.memoria =
            (res k.memoria).conHilo h.clave) ∨
      (UInt32.ofNat pid ∉ (res k.memoria).procesos ∧
        (vista (createThread cfg k pid path priority).1).threads = (vista k).threads ∧
        res (createThread cfg k pid path priority).1.memoria = res k.memoria)) := by
  obtain ⟨hm', hok, hres⟩ := hspec.agregar (nuevoTcb k pid path priority) hm
  rcases createThread_cases cfg k pid path priority with
    ⟨l, t, m, _, hpid, htid, hyes, heq⟩ | ⟨hno, heq⟩
  · rw [hyes, if_pos rfl] at hres
    have hclave : t.hilo.clave = (nuevoTcb k pid path priority).hilo.clave := by
      simp [Hilo.clave, Tcb.hilo, nuevoTcb, hpid, htid]
    rw [heq]
    refine ⟨hm', Or.inl ⟨hok.mp hyes, t.hilo, hclave, ?_, hclave ▸ hres⟩⟩
    simp only [vista, Pool.threads, registrarTcb, modificarPcb, List.map_append, List.map_cons,
      List.map_nil, Tcb.hilo_with_state, List.append_assoc, List.singleton_append]
    rw [← List.append_assoc, ← List.append_assoc]
    exact List.perm_middle
  · rw [hno] at hres
    rw [heq]
    refine ⟨hm', Or.inr ⟨fun hyes => ?_, rfl, hres⟩⟩
    rw [hno] at hok
    exact Bool.false_ne_true (hok.mpr hyes)

/-- The first thread of a waiting process is made ready: no older TCB in NEW has its PID. -/
theorem createThread_ready
    {path : List Char} {priority : Nat}
    (hc : Coherente k)
    (hpid : pid ∈ k.listPcbNew)
    (hmem : (cfg.createThreadMemory k.memoria (nuevoTcb k pid path priority)).2 = true) :
    (createThread cfg k pid path priority).2 = .ready := by
  rcases createThread_cases cfg k pid path priority with
    ⟨l, t, m, hsplit, hparent, _, _, heq⟩ | ⟨hno, _⟩
  · have ht : t ∈ k.listNewTcb ++ [nuevoTcb k pid path priority] := by
      rw [hsplit]
      exact List.mem_append_right _ List.mem_cons_self
    rcases List.mem_append.mp ht with hold | hnew
    · have hfresh : t.hilo ∈ (vista k).threads ++ (vista k).fresh :=
        List.mem_append_right _ (List.mem_map_of_mem hold)
      have hwaits : t.parentPid ∉ k.listPcbNew := (hc.hilos t.hilo hfresh).2
      rw [hparent] at hwaits
      exact absurd hpid hwaits
    · rw [heq, List.mem_singleton.mp hnew]
      exact if_pos rfl
  · rw [hmem] at hno
    cases hno

/-- The PID of the first waiting process is that of no active one. -/
theorem Residentes.noActivo
    {resto : List Nat}
    (h : Residentes res I k)
    (hpids : k.globalPid ≤ pidsDisponibles)
    (hnew : k.listPcbNew = pid :: resto) :
    pid < pidsDisponibles ∧ pid ∉ k.listPcbActive ∧
      UInt32.ofNat pid ∉ (res k.memoria).procesos := by
  obtain ⟨ps, a, hf⟩ := h.fila
  have hpid : pid ∈ k.listPcbNew := by simp [hnew]
  have hlt := lt_of_lt_of_le (h.coherente.emitidos pid hpid) hpids
  have hwaits : pid ∉ k.listPcbActive := by
    intro hactive
    have := hf.activos pid hactive
    have := hf.sinHilo hpid
    omega
  exact ⟨hlt, hwaits, fun hmem => hwaits ((h.mem_procesos hpids hlt).mp hmem)⟩

theorem Coherente.conMemoria
    (h : Coherente k) (m : μ) :
    Coherente { k with memoria := m } :=
  ⟨h.viejos, h.nuevos, h.emitidos, h.hilos, h.tcbActual, h.pcbActual⟩

/-- The process that memoria has admitted becomes active with its first thread. -/
theorem Residentes.procesoCreado
    {resto : List Nat} {peticion : ProcessCreate} {peticiones : List ProcessCreate} {m : μ}
    (hspec : Reside cfg res I)
    (h : Residentes res I k)
    (hpids : k.globalPid ≤ pidsDisponibles)
    (hnew : k.listPcbNew = pid :: resto)
    (hparams : k.listFirstThreadParams = peticion :: peticiones)
    (hm : I m)
    (hres : res m = (res k.memoria).conProceso (.ofNat pid)) :
    Residentes res I
      (Kernel.procesoCreado cfg { k with memoria := m } pid resto peticion peticiones) := by
  obtain ⟨ps, a, hf⟩ := h.fila
  obtain ⟨-, hwaits, -⟩ := h.noActivo hpids hnew
  obtain ⟨k₁, hk₁⟩ : ∃ k₁ : Globals μ, k₁ = { k with memoria := m } := ⟨_, rfl⟩
  have hc₁ : Coherente k₁ := hk₁ ▸ h.coherente.conMemoria m
  have hnew₁ : k₁.listPcbNew = pid :: resto := by rw [hk₁]; exact hnew
  have hparams₁ : k₁.listFirstThreadParams = peticion :: peticiones := by
    rw [hk₁]
    exact hparams
  have hres₁ : res k₁.memoria = (res k.memoria).conProceso (.ofNat pid) := by rw [hk₁]; exact hres
  have hm₁ : I k₁.memoria := by rw [hk₁]; exact hm
  have hresident : UInt32.ofNat pid ∈ (res k₁.memoria).procesos := by
    rw [hres₁]
    exact Multiset.mem_cons_self _ _
  have hready : (createThread cfg k₁ pid peticion.nombreArchivo peticion.prioridad).2 = .ready :=
    createThread_ready hc₁ (by simp [hnew₁]) ((hspec.agregar _ hm₁).2.1.mpr hresident)
  have hresto := createThread_resto cfg k₁ pid peticion.nombreArchivo peticion.prioridad
  have hactivos : (Kernel.procesoCreado cfg k₁ pid resto peticion peticiones).listPcbActive =
      k.listPcbActive ++ [pid] := by
    simp only [Kernel.procesoCreado]
    rw [if_pos hready, hresto, hk₁]
  have hdumps : (Kernel.procesoCreado cfg k₁ pid resto peticion peticiones).dumps = k.dumps ∧
      (Kernel.procesoCreado cfg k₁ pid resto peticion peticiones).globalPid = k.globalPid := by
    simp only [Kernel.procesoCreado]
    rw [hresto, hk₁]
    exact ⟨rfl, rfl⟩
  obtain ⟨hm₂, hthread⟩ := createThread_residencia hspec pid peticion.nombreArchivo
    peticion.prioridad hm₁
  have hprocs : (res (createThread cfg k₁ pid peticion.nombreArchivo
      peticion.prioridad).1.memoria).procesos = (res k₁.memoria).procesos := by
    rcases hthread with ⟨_, _, _, _, heq⟩ | ⟨_, _, heq⟩
    · rw [heq]
      rfl
    · rw [heq]
  rw [← hk₁]
  refine ⟨?_, ⟨ps, _, (hk₁ ▸ hf.conMemoria m : Fila ps a k₁).admitir hnew₁ hparams₁⟩, ?_, hm₂, ?_,
    ?_⟩
  · exact (mueve_procesoCreado (fun _ _ => True) hc₁ hnew₁ (fun _ => trivial)
      (fun _ _ => trivial)).2.1
  · rw [hdumps.1, hdumps.2]
    exact h.dumps
  · rw [hactivos]
    refine hprocs.trans ?_
    rw [hres₁, Residencia.conProceso, h.procesos, List.map_append, List.map_singleton,
      Multiset.cons_coe, Multiset.coe_eq_coe]
    exact (List.perm_append_singleton _ _).symm
  · rw [hactivos]
    exact List.nodup_append.mpr ⟨h.activos, List.nodup_singleton _,
      fun x hx y hy hxy => hwaits (List.mem_singleton.mp hy ▸ hxy ▸ hx)⟩

/-- A round of the long-term scheduler keeps the agreement. -/
theorem Residentes.intento
    (hspec : Reside cfg res I)
    (h : Residentes res I k)
    (hpids : k.globalPid ≤ pidsDisponibles) :
    Residentes res I (tryCreateNewProcess cfg k).1 := by
  obtain ⟨ps, a, hf⟩ := h.fila
  rcases tryCreateNewProcess_pedidos cfg k with ⟨heq, _⟩ | ⟨pid, resto, hnew, hno, heq⟩ |
    ⟨pid, resto, peticion, peticiones, hnew, hparams, hyes, heq⟩
  · rw [heq]
    exact h
  · obtain ⟨hpid, -, hout⟩ := h.noActivo hpids hnew
    obtain ⟨hm, hres⟩ := hspec.crear (k.pcbs pid).size h.memoria hpid hout
    have hrefused : (cfg.createProcessMemory k.memoria pid (k.pcbs pid).size).2 = false := by
      rcases hno with hnil | hno
      · -- the two lists are aligned
        have hlen := hf.alineadas.longitud
        rw [hnew, hnil] at hlen
        cases hlen
      · exact hno
    rw [hrefused] at hres
    rw [heq]
    exact ⟨h.coherente.conMemoria _, ⟨ps, a, hf.conMemoria _⟩, h.dumps, hm, hres ▸ h.procesos,
      h.activos⟩
  · obtain ⟨hpid, -, hout⟩ := h.noActivo hpids hnew
    obtain ⟨hm, hres⟩ := hspec.crear (k.pcbs pid).size h.memoria hpid hout
    rw [hyes, if_pos rfl] at hres
    rw [heq]
    exact h.procesoCreado hspec hpids hnew hparams hm hres

theorem tryCreateNewProcess_globalPid
    (cfg : Config μ) (k : Globals μ) :
    (tryCreateNewProcess cfg k).1.globalPid = k.globalPid := by
  rcases tryCreateNewProcess_cases cfg k with ⟨m, heq⟩ | ⟨pid, resto, _, _, m, _, _, heq⟩
  · rw [heq]
  · rw [heq]
    simp only [procesoCreado]
    rw [createThread_resto]

/-- The loop of the long-term scheduler keeps the agreement. -/
theorem Residentes.bucle
    (hspec : Reside cfg res I)
    (h : Residentes res I k)
    (hpids : k.globalPid ≤ pidsDisponibles) :
    Residentes res I (tryCreateNewProcessLoop cfg k) := by
  refine ((tryCreateNewProcessLoop_run cfg k).invariant
    (I := fun v => Residentes res I v ∧ v.globalPid = k.globalPid) ⟨h, rfl⟩ ?_).2.1
  rintro v ⟨hv, hglobal⟩
  exact ⟨hv.intento hspec (hglobal ▸ hpids), (tryCreateNewProcess_globalPid cfg v).trans hglobal⟩

/-- A dump that is ending its process was doing so, or has just failed and found its process
active. -/
theorem dumps_paso
    {e : Evento}
    (hviejos : k.listaTcbsBlockeados = [])
    (h : paso cfg k e = some k') :
    ∀ d ∈ k'.dumps, ∀ pid ∈ d.fase.pid?,
      (∃ d' ∈ k.dumps, pid ∈ d'.fase.pid?) ∨
        ((∃ j, e = .dumpRespuesta j .error) ∧ pid ∈ k.listPcbActive) := by
  have hmismos : k'.dumps = k.dumps → ∀ d ∈ k'.dumps, ∀ pid ∈ d.fase.pid?,
      (∃ d' ∈ k.dumps, pid ∈ d'.fase.pid?) ∨
        ((∃ j, e = .dumpRespuesta j .error) ∧ pid ∈ k.listPcbActive) := by
    intro heq d hd pid hpid
    exact Or.inl ⟨d, heq ▸ hd, hpid⟩
  cases e with
  | despachar =>
      obtain ⟨seguir, previo, proximo, k₁, _, _, rfl, hcases⟩ := despachar_cases h
      rcases hcases with ⟨rfl, rfl, rfl⟩ | ⟨rfl, l, m, n, q, _, _, rfl⟩
      · exact hmismos rfl
      · exact hmismos rfl
  | respuesta m =>
      obtain ⟨proximo, pcb, hrun, _, hsyscall⟩ := atenderMensaje_cases h
      obtain ⟨_, hdumps | hdumps⟩ := atenderSyscall_fase hsyscall
      · exact hmismos hdumps
      · intro d hd pid hpid
        rw [hdumps] at hd
        rcases List.mem_append.mp hd with hd | hd
        · exact Or.inl ⟨d, hd, hpid⟩
        · rw [List.mem_singleton.mp hd] at hpid
          cases hpid
  | seguirFin =>
      rcases seguirFin_cases h with
        ⟨causa, proximo, i, pid, k₁, avance, _, _, hround, hcases⟩ |
        ⟨causa, proximo, i, pid, k₁, hfase, _, hround, rfl⟩
      · obtain ⟨_, _, salida, m, hresto⟩ := mueve_finalizarHilo .seguirFin hviejos hround
        have hdumps : k₁.dumps = k.dumps := by rw [hresto]
        rcases hcases with ⟨_, rfl⟩ | ⟨_, rfl⟩ | ⟨_, rfl⟩
        · exact hmismos hdumps
        · exact hmismos hdumps
        · exact hmismos (terminarProceso_dumps.trans hdumps)
      · obtain ⟨n, tcb, _, _, hrelease⟩ := reanudarHilo_cases hviejos hround
        have hdumps : k₁.dumps = k.dumps := by rw [releaseAllMutexes_despierta hrelease]
        exact hmismos hdumps
  | ioFin =>
      obtain ⟨request, resto, _, ⟨l, t, m, _, _, _, rfl⟩ | ⟨_, rfl⟩⟩ := ioFin_cases h
      · exact hmismos rfl
      · exact hmismos rfl
  | dumpRespuesta j r =>
      obtain ⟨d, hd, hfase, ⟨_, rfl⟩ | ⟨rfl, hactive, rfl⟩ | ⟨_, rfl⟩⟩ := dumpRespuesta_cases h
      · exact fun d hd pid hpid => Or.inl ⟨d, List.mem_of_mem_eraseIdx hd, hpid⟩
      · intro d' hd' pid hpid
        rcases List.mem_or_eq_of_mem_set hd' with hd' | rfl
        · exact Or.inl ⟨d', hd', hpid⟩
        · cases hpid
          exact Or.inr ⟨⟨j, rfl⟩, hactive⟩
      · exact fun d hd pid hpid => Or.inl ⟨d, List.mem_of_mem_eraseIdx hd, hpid⟩
  | dumpSeguir j =>
      obtain ⟨d, hd, hcases⟩ := dumpSeguir_cases h
      have hmem := List.mem_of_getElem? hd
      rcases hcases with ⟨q, i, k₁, avance, hfase, hround, hcases⟩ |
        ⟨q, i, k₁, hfase, hround, rfl⟩
      · obtain ⟨_, _, salida, m, hresto⟩ := mueve_finalizarHilo (.dumpSeguir j) hviejos hround
        have hdumps : k₁.dumps = k.dumps := by rw [hresto]
        have hset : ∀ fase : DumpFase, fase.pid? = some q →
            ∀ d' ∈ k₁.dumps.set j { d with fase := fase }, ∀ pid ∈ d'.fase.pid?,
              (∃ d' ∈ k.dumps, pid ∈ d'.fase.pid?) ∨
                ((∃ j', Evento.dumpSeguir j = .dumpRespuesta j' .error) ∧
                  pid ∈ k.listPcbActive) := by
          intro fase hq d' hd' pid hpid
          rw [hdumps] at hd'
          rcases List.mem_or_eq_of_mem_set hd' with hd' | rfl
          · exact Or.inl ⟨d', hd', hpid⟩
          · refine Or.inl ⟨d, hmem, ?_⟩
            rw [hfase]
            exact hq.symm.trans hpid
        rcases hcases with ⟨_, rfl⟩ | ⟨_, rfl⟩ | ⟨_, rfl⟩
        · exact hset _ rfl
        · exact hset _ rfl
        · intro d' hd' pid hpid
          have hd' : d' ∈ k₁.dumps.eraseIdx j := hd'
          rw [hdumps] at hd'
          exact Or.inl ⟨d', List.mem_of_mem_eraseIdx hd', hpid⟩
      · obtain ⟨n, tcb, _, _, hrelease⟩ := reanudarHilo_cases hviejos hround
        have hdumps : k₁.dumps = k.dumps := by rw [releaseAllMutexes_despierta hrelease]
        intro d' hd' pid hpid
        simp only [hdumps] at hd'
        rcases List.mem_or_eq_of_mem_set hd' with hd' | rfl
        · exact Or.inl ⟨d', hd', hpid⟩
        · refine Or.inl ⟨d, hmem, ?_⟩
          rw [hfase]
          exact hpid

/-- No step takes a PID back. -/
theorem globalPid_le_paso
    {e : Evento}
    (hf : ∃ ps a, Fila ps a k)
    (h : paso cfg k e = some k') :
    k.globalPid ≤ k'.globalPid := by
  obtain ⟨ps, a, hf⟩ := hf
  have hnext := (Fila.paso (h := { pedidos := ps, hilosCero := a }) hf h).1.emitidos
  rw [hf.emitidos, hnext, Historia.anotar, List.length_append]
  exact Nat.le_add_right _ _

/-- The dispatcher goes on with another phase. -/
theorem Residentes.conFase
    {fase : Fase}
    (h : Residentes res I k)
    (hcoherente : Coherente { k with fase := fase }) :
    Residentes res I { k with fase := fase } := by
  obtain ⟨ps, a, hf⟩ := h.fila
  exact ⟨hcoherente, ⟨ps, a, hf.soloHilos rfl⟩, h.dumps, h.memoria, h.procesos, h.activos⟩

/-- A PROCESS_CREATE before it runs the long-term scheduler. -/
theorem Residentes.pedir
    (h : Residentes res I k)
    (path : List Char) (size priority : Nat) :
    Residentes res I (pedirProceso path size priority k) := by
  obtain ⟨ps, a, hf⟩ := h.fila
  exact ⟨coherente_createProcess h.coherente, ⟨_, _, hf.pedir path size priority⟩,
    fun d hd pid hpid => Nat.lt_succ_of_lt (h.dumps d hd pid hpid), h.memoria, h.procesos,
    h.activos⟩

theorem Residentes.interruptQuantum
    (h : Residentes res I k) :
    Residentes res I (interruptQuantum k) := by
  obtain ⟨ps, a, hf⟩ := h.fila
  exact ⟨h.coherente.interruptQuantum, ⟨ps, a, hf.soloHilos rfl⟩, h.dumps, h.memoria, h.procesos,
    h.activos⟩

/-- The executing process ends, with or without the long-term scheduler. -/
theorem Residentes.terminarProceso
    (hspec : Reside cfg res I)
    (h : Residentes res I k)
    (hpids : k.globalPid ≤ pidsDisponibles)
    (hpid : k.currentPcbExecuting = some pid)
    (causa : Causa) :
    Residentes res I (terminarProceso cfg causa pid k) := by
  obtain ⟨ps, a, hf⟩ := h.fila
  have hfin : FinDe cfg pid k (Kernel.terminarProceso cfg .segmentationFault pid k) :=
    terminarProceso_finDe hpid
  have hlt : pid < k.globalPid := lt_of_lt_of_le (hf.actual pid hpid) hf.acotados
  have hcoherente : Coherente (Kernel.terminarProceso cfg .segmentationFault pid k) := by
    obtain ⟨pcbs, salida, k₁, rfl, _, heq⟩ := terminarProceso_cases cfg .segmentationFault pid k
    have hc := h.coherente
    rw [heq]
    exact ⟨hc.viejos, hc.nuevos, hc.emitidos, hc.hilos, hc.tcbActual, hc.pcbActual⟩
  have hglobal : (Kernel.terminarProceso cfg .segmentationFault pid k).globalPid = k.globalPid :=
    hfin.emitidos
  have hend : Residentes res I (Kernel.terminarProceso cfg .segmentationFault pid k) := by
    refine h.finDe hspec hpids hlt hfin hcoherente ?_
    rw [terminarProceso_dumps, hglobal]
    exact h.dumps
  cases causa with
  | segmentationFault =>
      exact hend
  | processExit =>
      exact hend.bucle hspec (hglobal.symm ▸ hpids)

/-- A process that ends without the loop was created. -/
theorem Residentes.finSinBucle_lt
    {e : Evento}
    (h : Residentes res I k)
    (hfin : finSinBucle k e = some pid) :
    pid < k.globalPid := by
  obtain ⟨ps, a, hf⟩ := h.fila
  unfold finSinBucle at hfin
  split at hfin
  · split at hfin
    · rename_i p _ hpid
      split_ifs at hfin
      obtain rfl := Option.some.inj hfin
      exact lt_of_lt_of_le (hf.actual p hpid) hf.acotados
    · cases hfin
  · split at hfin
    · rename_i tcb p i hd
      split_ifs at hfin
      obtain rfl := Option.some.inj hfin
      exact h.dumps _ (List.mem_of_getElem? hd) p rfl
    · cases hfin
  · cases hfin

/-- The resident processes are the active ones after every step, whatever it ends. -/
theorem Residentes.paso
    {e : Evento}
    (hspec : Reside cfg res I)
    (h : Residentes res I k)
    (hpids : k'.globalPid ≤ pidsDisponibles)
    (hstep : paso cfg k e = some k') :
    Residentes res I k' := by
  obtain ⟨ps, a, hf⟩ := h.fila
  have hviejos := hf.viejos
  have hle := globalPid_le_paso h.fila hstep
  have hpids₀ : k.globalPid ≤ pidsDisponibles := hle.trans hpids
  have hcoherente := (paso_mueve h.coherente hstep).2
  have hdumps : ∀ d ∈ k'.dumps, ∀ pid ∈ d.fase.pid?, pid < k'.globalPid := by
    intro d hd pid hpid
    refine lt_of_lt_of_le ?_ hle
    rcases dumps_paso hviejos hstep d hd pid hpid with ⟨d', hd', hpid'⟩ | ⟨-, hactive⟩
    · exact h.dumps d' hd' pid hpid'
    · exact lt_of_lt_of_le (hf.activos pid hactive) hf.acotados
  cases paso_largoPlazo hviejos hstep with
  | ajena _ _ hajena =>
      exact h.of_ajena hspec hajena hcoherente hdumps
  | @creado path size priority fase he hk' =>
      subst hk'
      have hwait := h.interruptQuantum.pedir path size priority
      refine (hwait.bucle hspec ?_).conFase hcoherente
      -- the loop takes no PID
      have hloop : (tryCreateNewProcessLoop cfg
          (pedirProceso path size priority (Kernel.interruptQuantum k))).globalPid =
            (pedirProceso path size priority (Kernel.interruptQuantum k)).globalPid := by
        obtain ⟨_, _, hfila⟩ := hwait.fila
        rw [hfila.emitidos, (Fila.bucle cfg hfila).2.emitidos]
      exact hloop ▸ hpids
  | salida he hpid hllama _ _ _ _ =>
      subst he
      rcases seguirFin_cases hstep with
        ⟨causa, proximo, i, q, k₁, avance, hfase, hq, hround, hcases⟩ |
        ⟨causa, proximo, i, q, k₁, hfase, _, _, _⟩
      · rcases hcases with ⟨rfl, rfl⟩ | ⟨rfl, rfl⟩ | ⟨rfl, rfl⟩
        · cases causa <;> simp [llamadaBucle, hfase, hq, hround] at hllama
        · cases causa <;> simp [llamadaBucle, hfase, hq, hround] at hllama
        · rcases finalizarHilo_cases hviejos hround with ⟨_, _, rfl⟩ |
            ⟨_, _, _, ⟨hno, _⟩ | ⟨hno, _⟩⟩
          · exact (h.terminarProceso hspec hpids₀ hq causa).conFase hcoherente
          · cases hno
          · cases hno
      · simp [llamadaBucle, hfase] at hllama
  | sinBucle _ hfin htermina =>
      exact h.finDe hspec hpids₀ (h.finSinBucle_lt hfin) htermina hcoherente hdumps

/-- Another side may use memoria, as long as the table stays. -/
theorem Residentes.conMemoria
    {m : μ}
    (h : Residentes res I k)
    (hm : I m)
    (hres : (res m).procesos = (res k.memoria).procesos) :
    Residentes res I { k with memoria := m } := by
  obtain ⟨ps, a, hf⟩ := h.fila
  exact ⟨h.coherente.conMemoria m, ⟨ps, a, hf.conMemoria m⟩, h.dumps, hm,
    hres.trans h.procesos, h.activos⟩

/-- The start: an empty table, and the first process. -/
theorem residentes_arranque
    {m : μ}
    (hspec : Reside cfg res I)
    (hm : I m)
    (hempty : (res m).procesos = 0)
    (path : List Char) (size : Nat) :
    Residentes res I (arranque cfg m path size) := by
  have hstart : Residentes res I (inicial m) :=
    ⟨coherente_inicial m, ⟨[], [], fila_inicial m⟩, by simp [inicial], hm, hempty,
      List.nodup_nil⟩
  exact (hstart.pedir path size 0).bucle hspec (by decide : 1 ≤ pidsDisponibles)

end Processes

end Kernel
end SinIdeas
