import SinIdeas.Kernel.Admission
import SinIdeas.Memoria.Rebuild

/-!
# Freed memory and waiting processes

The kernel runs next to memoria, which also serves the CPU. A PROCESS_CREATE and a
PROCESS_EXIT run `try_create_NEW_process_loop` after memoria changed its partitions, so
the head of `list_PCB_new` fits in no free partition. A SEGMENTATION_FAULT and a dump
that failed give a region back too, and do not run the loop.
-/

namespace SinIdeas
namespace Kernel

open Lib

/-- The memoria of the kernel, and whether it has admitted every process so far exactly
when some free partition fitted it. -/
structure Vecina where
  memoria : Memoria.Globals
  justa : Bool

/-- The requests of the kernel, answered by memoria. -/
def enlazada (mcfg : Memoria.Config) (schedulerAlgorithm : SchedulerAlgorithm) :
    Config Vecina where
  schedulerAlgorithm := schedulerAlgorithm
  createProcessMemory v pid size :=
    let r := Memoria.verificarEspacioYCrearProceso mcfg v.memoria (.ofNat pid) (.ofNat size)
    ({ memoria := r.1
       justa := v.justa && r.2 == Memoria.cabe v.memoria (.ofNat size) }, r.2)
  createThreadMemory v t :=
    let r := Memoria.verificarYAgregarHilo v.memoria (.ofNat t.parentPid) (.ofNat t.tid)
      t.filePath
    ({ v with memoria := r.1 }, r.2)
  deleteProcessMemory v pid _ :=
    let m := Memoria.eliminarProcesoMem mcfg v.memoria (.ofNat pid)
    ({ v with memoria := m }, true)
  deleteThreadMemory v t :=
    let m := Memoria.eliminarHiloMem mcfg v.memoria (.ofNat t.parentPid) (.ofNat t.tid)
    ({ v with memoria := m }, true)

/-- A step of the kernel, or a request of the CPU to memoria. -/
inductive Suceso where
  | kernel (e : Evento)
  | cpu (p : Memoria.Peticion)

/-- A step of the two. The CPU sends a context back with the region that it got. -/
def pasoConjunto (mcfg : Memoria.Config) (alg : SchedulerAlgorithm) (k : Globals Vecina) :
    Suceso → Option (Globals Vecina)
  | .kernel e => paso (enlazada mcfg alg) k e
  | .cpu p =>
      if p.deCpu = true ∧ Memoria.Regular k.memoria.memoria p then
        (Memoria.atiende mcfg k.memoria.memoria p).map
          (fun g => { k with memoria := { k.memoria with memoria := g } })
      else
        none

/-- A step after which memoria has still admitted exactly what fitted. -/
def pasoJusto (mcfg : Memoria.Config) (alg : SchedulerAlgorithm) (k : Globals Vecina)
    (e : Suceso) :
    Option (Globals Vecina) :=
  (pasoConjunto mcfg alg k e).filter (fun k' => k'.memoria.justa)

/-- The first process is created in an empty memoria. -/
def arranqueConjunto (mcfg : Memoria.Config) (alg : SchedulerAlgorithm) (path : List Char)
    (size : Nat) :
    Globals Vecina :=
  arranque (enlazada mcfg alg) { memoria := Memoria.inicializar mcfg, justa := true } path size

/-- `k` is reached from the boot by `es`, with a memoria that admits exactly what fits. -/
def AlcanzaConjunto (mcfg : Memoria.Config) (alg : SchedulerAlgorithm) (path : List Char)
    (size : Nat) (es : List Suceso) (k : Globals Vecina) : Prop :=
  (arranqueConjunto mcfg alg path size).memoria.justa = true ∧
    Run (fun a e b => pasoJusto mcfg alg a e = some b) anyLabel
      (arranqueConjunto mcfg alg path size) es k

/-- The head of `list_PCB_new`, if there is one, fits in no free partition. -/
def Ofrecida (k : Globals Vecina) : Prop :=
  ∀ pid ∈ k.listPcbNew.head?,
    Memoria.cabe k.memoria.memoria (.ofNat (k.pcbs pid).size) = false

/-- Between two iterations of the dispatcher, with no dump in flight. -/
def EntreVueltas (k : Globals Vecina) : Prop :=
  (∃ seguir previo, k.fase = .planificar seguir previo) ∧ k.dumps = []

/-- The step ends a process without the loop, and the place that the process leaves is
large enough for the head of `list_PCB_new`. -/
def dejaLugar (mcfg : Memoria.Config) (k : Globals Vecina) : Suceso → Bool
  | .kernel e => (finSinBucle k e).any (fun pid =>
      (Memoria.hueco mcfg k.memoria.memoria (.ofNat pid)).any (fun libre =>
        k.listPcbNew.head?.any (fun primero => .ofNat (k.pcbs primero).size ≤ libre)))
  | .cpu _ => false

/-- The step runs `try_create_NEW_process_loop`. -/
def reintenta (mcfg : Memoria.Config) (alg : SchedulerAlgorithm) (k : Globals Vecina) :
    Suceso → Bool
  | .kernel e => (llamadaBucle (enlazada mcfg alg) k e).isSome
  | .cpu _ => false

/-- After `es`: since `try_create_NEW_process_loop` ran last, a process that ended left a
place for the head of `list_PCB_new`. -/
def lugarPendiente (mcfg : Memoria.Config) (alg : SchedulerAlgorithm) (path : List Char)
    (size : Nat) (es : List Suceso) : Bool :=
  history (pasoJusto mcfg alg)
    (fun pendiente k e => !reintenta mcfg alg k e && (pendiente || dejaLugar mcfg k e))
    false (arranqueConjunto mcfg alg path size) es

section Loop

variable {μ : Type} {cfg : Config μ} {k k' : Globals μ}

/-- What memoria keeps when it is asked for a process or a thread, a call of
`try_create_NEW_process` keeps. -/
theorem tryCreateNewProcess_memoria
    {I : μ → Prop}
    (hproceso : ∀ m pid size, I m → I (cfg.createProcessMemory m pid size).1)
    (hhilo : ∀ m t, I m → I (cfg.createThreadMemory m t).1)
    (h : I k.memoria) :
    I (tryCreateNewProcess cfg k).1.memoria := by
  have hthread : ∀ (a : Globals μ) (pid : Nat) (path : List Char) (priority : Nat),
      I a.memoria → I (createThread cfg a pid path priority).1.memoria := by
    intro a pid path priority ha
    unfold createThread
    dsimp only
    split
    · exact hhilo _ _ ha
    · exact hhilo _ _ ha
  unfold tryCreateNewProcess
  split
  · exact h
  · rename_i pid resto _
    have hpedido := hproceso k.memoria pid (k.pcbs pid).size h
    dsimp only
    split
    · exact hpedido
    · split_ifs
      · exact hthread _ _ _ _ hpedido
      · exact hthread _ _ _ _ hpedido
      · exact hpedido

/-- The last call of the loop found no waiting process or was refused its head. -/
theorem tryCreateNewProcess_ultima
    {ps : List ProcessCreate}
    (h : Alineadas ps k)
    (hno : (tryCreateNewProcess cfg k).2 = false) :
    (tryCreateNewProcess cfg k).1.listPcbNew = [] ∨
      ∃ pid resto, k.listPcbNew = pid :: resto ∧
        (cfg.createProcessMemory k.memoria pid (k.pcbs pid).size).2 = false ∧
        (tryCreateNewProcess cfg k).1 =
          { k with memoria := (cfg.createProcessMemory k.memoria pid (k.pcbs pid).size).1 } := by
  rcases h.rechazo hno with hvacia | ⟨pid, resto, hnew, _, hmem⟩
  · exact Or.inl hvacia
  · refine Or.inr ⟨pid, resto, hnew, hmem, ?_⟩
    cases hparams : k.listFirstThreadParams with
    | nil =>
        simp [tryCreateNewProcess, hnew, hparams]
    | cons peticion peticiones =>
        simp [tryCreateNewProcess, hnew, hparams, hmem]

end Loop

/-- What the argument needs of the two: the head of `list_PCB_new` fits in no free
partition unless a place for it is pending. -/
structure Atendida (mcfg : Memoria.Config) (pendiente : Bool) (k : Globals Vecina) : Prop where
  fila : ∃ ps a, Fila ps a k
  alDia : Memoria.AlDia mcfg k.memoria.memoria
  ofrecida : pendiente = false → Ofrecida k

section Offer

variable {mcfg : Memoria.Config} {alg : SchedulerAlgorithm} {k k' : Globals Vecina}
variable {ps : List ProcessCreate} {a : List Tcb} {pendiente : Bool}

/-- After the loop the head of `list_PCB_new` fits in no free partition. -/
theorem Fila.ofrecida_bucle
    (hf : Fila ps a k)
    (hjusta : (tryCreateNewProcessLoop (enlazada mcfg alg) k).memoria.justa = true) :
    Ofrecida (tryCreateNewProcessLoop (enlazada mcfg alg) k) := by
  obtain ⟨v, hv, hno, hend⟩ := (tryCreateNewProcessLoop_run (enlazada mcfg alg) k).last
  obtain ⟨_, hfila⟩ := (Fila.bucle (enlazada mcfg alg) hf).1 v hv
  rw [hend] at hjusta ⊢
  rcases tryCreateNewProcess_ultima hfila.alineadas hno with hvacia |
    ⟨pid, resto, hnew, hmem, heq⟩
  · intro pid hpid
    rw [hvacia] at hpid
    cases hpid
  · rw [heq] at hjusta ⊢
    have hrefused : (Memoria.verificarEspacioYCrearProceso mcfg v.memoria.memoria (.ofNat pid)
        (.ofNat (v.pcbs pid).size)).2 = false := hmem
    have hsame := Memoria.verificarEspacioYCrearProceso_refused hrefused
    intro primero hprimero
    rw [hnew] at hprimero
    cases hprimero
    simp only [enlazada, hrefused, Bool.and_eq_true, beq_iff_eq] at hjusta
    simp only [enlazada, hsame]
    exact hjusta.2.symm

/-- The offer holds if nothing that it speaks of changes. -/
theorem Ofrecida.congr
    (h : Ofrecida k)
    (hnuevos : k'.listPcbNew = k.listPcbNew)
    (htamanio : ∀ pid ∈ k.listPcbNew, k'.pcbs pid = k.pcbs pid)
    (hmem : ∀ size, Memoria.cabe k'.memoria.memoria size =
      Memoria.cabe k.memoria.memoria size) :
    Ofrecida k' := by
  intro pid hpid
  rw [hnuevos] at hpid
  rw [htamanio pid (List.mem_of_head? hpid), hmem]
  exact h pid hpid

variable (hsort : StableFor Memoria.ordenarPorBase (mcfg.listSort Memoria.ordenarPorBase))
include hsort

/-- The loop leaves the partition list built from the table. -/
theorem alDia_bucle
    (hdia : Memoria.AlDia mcfg k.memoria.memoria) :
    Memoria.AlDia mcfg
      (tryCreateNewProcessLoop (enlazada mcfg alg) k).memoria.memoria := by
  refine ((tryCreateNewProcessLoop_run (enlazada mcfg alg) k).invariant
    (I := fun v : Globals Vecina => Memoria.AlDia mcfg v.memoria.memoria) hdia ?_).2
  intro v hv
  refine tryCreateNewProcess_memoria (I := fun m : Vecina => Memoria.AlDia mcfg m.memoria) ?_ ?_ hv
  · intro m pid size hm
    exact Memoria.verificarEspacioYCrearProceso_alDia hsort hm _ _
  · intro m t hm
    exact (Memoria.verificarYAgregarHilo_particiones hsort hm _ _ _).alDia

/-- Requests about threads leave the partitions alone. -/
theorem pideHilos_particiones
    {v v' : Vecina}
    (hdia : Memoria.AlDia mcfg v.memoria)
    (h : Relation.ReflTransGen (PideHilo (enlazada mcfg alg)) v v') :
    Memoria.MismasParticiones mcfg v.memoria v'.memoria := by
  induction h with
  | refl =>
      exact ⟨hdia, rfl⟩
  | tail _ hpide ih =>
      obtain ⟨t, rfl | rfl⟩ := hpide
      · exact ih.trans (Memoria.verificarYAgregarHilo_particiones hsort ih.alDia _ _ _)
      · exact ih.trans (Memoria.eliminarHiloMem_particiones hsort ih.alDia _ _)

/-- A step that leaves a place for the head of `list_PCB_new` offers it to nobody. -/
theorem Atendida.no_ofrecida
    {e : Evento}
    (h : Atendida mcfg pendiente k)
    (hstep : paso (enlazada mcfg alg) k e = some k')
    (hlugar : dejaLugar mcfg k (.kernel e) = true) :
    ¬ Ofrecida k' := by
  obtain ⟨⟨ps, a, hf⟩, hdia, _⟩ := h
  simp only [dejaLugar, Option.any_eq_true] at hlugar
  obtain ⟨pid, hpid, libre, hlibre, primero, hprimero, hle⟩ := hlugar
  intro hofrecida
  cases paso_largoPlazo hf.viejos hstep with
  | @sinBucle q _ hfin htermina =>
      obtain rfl := Option.some.inj (hfin.symm.trans hpid)
      have hno := hofrecida primero (by rw [htermina.nuevos]; exact hprimero)
      rw [hf.finDe_pcbs htermina (hf.sinHilo (List.mem_of_head? hprimero)),
        htermina.memoria] at hno
      have hcabe := Memoria.cabe_of_hueco hsort hdia hlibre (of_decide_eq_true hle)
      exact Bool.false_ne_true (hno.symm.trans hcabe)
  | ajena _ hfin _ =>
      rw [hfin] at hpid
      cases hpid
  | creado he _ =>
      subst he
      cases hpid
  | salida _ _ _ hfin _ _ _ =>
      rw [hfin] at hpid
      cases hpid

theorem Atendida.kernel
    {e : Evento}
    (h : Atendida mcfg pendiente k)
    (hstep : paso (enlazada mcfg alg) k e = some k')
    (hjusta : k'.memoria.justa = true) :
    Atendida mcfg (!reintenta mcfg alg k (.kernel e) &&
      (pendiente || dejaLugar mcfg k (.kernel e))) k' := by
  obtain ⟨⟨ps, a, hf⟩, hdia, hofrecida⟩ := h
  have hfila : ∃ ps a, Fila ps a k' :=
    ⟨_, _, (Fila.paso (h := { pedidos := ps, hilosCero := a }) hf hstep).1⟩
  cases paso_largoPlazo hf.viejos hstep with
  | ajena hllama _ hajena =>
      have hmem := pideHilos_particiones hsort hdia hajena.memoria
      refine ⟨hfila, hmem.alDia, ?_⟩
      intro hno
      simp only [reintenta, hllama, Option.isSome_none, Bool.not_false, Bool.true_and,
        Bool.or_eq_false_iff] at hno
      refine (hofrecida hno.1).congr hajena.nuevos ?_ hmem.cabe_eq
      intro pid hpid
      exact hf.ajena_pcbs hajena (hf.sinHilo hpid)
  | @creado path size priority fase _ hk' =>
      subst hk'
      have hquantum : Fila ps a (interruptQuantum k) := hf.soloHilos rfl
      have hofrece := (hquantum.pedir path size priority).ofrecida_bucle hjusta
      have hbuilt : Memoria.AlDia mcfg
          (pedirProceso path size priority (interruptQuantum k)).memoria.memoria := hdia
      exact ⟨hfila, alDia_bucle hsort hbuilt, fun _ => hofrece⟩
  | @salida pid fase k₁ k₂ _ _ _ _ hajena htermina hk' =>
      subst hk'
      have hofrece := ((hf.ajena hajena).finDe htermina).ofrecida_bucle hjusta
      have hmem := pideHilos_particiones hsort hdia hajena.memoria
      have hbuilt : Memoria.AlDia mcfg k₂.memoria.memoria := by
        rw [htermina.memoria]
        exact Memoria.eliminarProcesoMem_alDia hsort hmem.alDia _
      exact ⟨hfila, alDia_bucle hsort hbuilt, fun _ => hofrece⟩
  | @sinBucle pid hllama hfin htermina =>
      refine ⟨hfila, ?_, ?_⟩
      · rw [htermina.memoria]
        exact Memoria.eliminarProcesoMem_alDia hsort hdia _
      · intro hno primero hprimero
        simp only [reintenta, hllama, Option.isSome_none, Bool.not_false, Bool.true_and,
          Bool.or_eq_false_iff] at hno
        rw [htermina.nuevos] at hprimero
        rw [hf.finDe_pcbs htermina (hf.sinHilo (List.mem_of_head? hprimero)), htermina.memoria]
        by_contra hfits
        -- what fits now fitted before, or fits in the place that the process left
        rcases Memoria.cabe_eliminarProcesoMem hsort hdia
          (Bool.eq_true_of_not_eq_false hfits) with hbefore | ⟨libre, hlibre, hle⟩
        · exact Bool.false_ne_true ((hofrecida hno.1 primero hprimero).symm.trans hbefore)
        · have hlugar : dejaLugar mcfg k (.kernel e) = true := by
            simp only [dejaLugar, Option.any_eq_true]
            exact ⟨pid, hfin, libre, hlibre, primero, hprimero, decide_eq_true hle⟩
          exact Bool.false_ne_true (hno.2.symm.trans hlugar)

/-- The requests of the CPU change nothing that the argument speaks of. -/
theorem Atendida.cpu
    {p : Memoria.Peticion}
    (h : Atendida mcfg pendiente k)
    (hstep : pasoConjunto mcfg alg k (.cpu p) = some k') :
    Atendida mcfg pendiente k' := by
  obtain ⟨⟨ps, a, hf⟩, hdia, hofrecida⟩ := h
  unfold pasoConjunto at hstep
  dsimp only at hstep
  split_ifs at hstep with hp
  obtain ⟨hcpu, hreg⟩ := hp
  obtain ⟨g, hg, hk'⟩ := Option.map_eq_some_iff.mp hstep
  subst hk'
  have hmem := Memoria.deCpu_particiones hsort hdia hcpu hreg hg
  refine ⟨⟨ps, a, hf.conMemoria _⟩, hmem.alDia, ?_⟩
  intro hno
  exact (hofrecida hno).congr rfl (fun _ _ => rfl) hmem.cabe_eq

/-- The first process is offered the empty memoria. -/
theorem atendida_arranque
    {path : List Char} {size : Nat}
    (hjusta : (arranqueConjunto mcfg alg path size).memoria.justa = true) :
    Atendida mcfg false (arranqueConjunto mcfg alg path size) := by
  have hfila := (fila_inicial
    ({ memoria := Memoria.inicializar mcfg, justa := true } : Vecina)).pedir path size 0
  have hbuilt : Memoria.AlDia mcfg (pedirProceso path size 0 (inicial
      ({ memoria := Memoria.inicializar mcfg, justa := true } : Vecina))).memoria.memoria :=
    Memoria.alDia_inicializar mcfg
  exact ⟨⟨_, _, (Fila.bucle (enlazada mcfg alg) hfila).2⟩,
    alDia_bucle hsort hbuilt, fun _ => hfila.ofrecida_bucle hjusta⟩

/-- Every run keeps it. -/
theorem atendida_of_alcanza
    {path : List Char} {size : Nat} {es : List Suceso}
    (h : AlcanzaConjunto mcfg alg path size es k) :
    Atendida mcfg (lugarPendiente mcfg alg path size es) k := by
  obtain ⟨hjusta, hrun⟩ := h
  refine hrun.history (I := Atendida mcfg) (atendida_arranque hsort hjusta) ?_
  intro pendiente a b e h _ hpaso
  obtain ⟨hpaso, hjusta⟩ := Option.filter_eq_some_iff.mp hpaso
  cases e with
  | kernel e =>
      exact h.kernel hsort hpaso hjusta
  | cpu p =>
      simpa [reintenta, dejaLugar] using h.cpu hsort hpaso

end Offer

/-- Between two iterations of the dispatcher, with no dump in flight, the head of
`list_PCB_new` fits in no free partition, if no SEGMENTATION_FAULT and no dump that
failed left a place for it since the loop ran last. -/
theorem freed_memory_is_offered
    {mcfg : Memoria.Config} {alg : SchedulerAlgorithm} {path : List Char} {size : Nat}
    {es : List Suceso} {k : Globals Vecina}
    (hsort : StableFor Memoria.ordenarPorBase (mcfg.listSort Memoria.ordenarPorBase))
    (hrun : AlcanzaConjunto mcfg alg path size es k)
    (hlugar : lugarPendiente mcfg alg path size es = false) :
    EntreVueltas k → Ofrecida k := by
  intro _
  exact (atendida_of_alcanza hsort hrun).ofrecida hlugar

/-- A memory of 64 bytes, searched for the first partition. -/
def memoriaChica : Memoria.Config where
  esquema := .dinamicas
  algoritmoBusqueda := .first
  tamMemoria := 64
  particiones := []
  scripts := fun _ => none
  listSort := fun _ => insertionSortBy Memoria.claveBase

theorem estable_memoriaChica :
    StableFor Memoria.ordenarPorBase (memoriaChica.listSort Memoria.ordenarPorBase) := by
  rw [Memoria.ordenarPorBase_eq]
  exact stableFor_insertionSortBy

/-- The first process, of 32 bytes, creates another one of 16 bytes and one that has to
wait, and ends with a SEGMENTATION_FAULT. -/
def sucesosFalla (size : Nat) : List Suceso :=
  [.kernel .despachar, .kernel (.respuesta (.processCreate ['b'] 16 0)),
   .cpu (.executionContext 0 0), .kernel .despachar,
   .kernel (.respuesta (.processCreate ['c'] size 0)), .kernel .despachar,
   .kernel (.respuesta (.segmentationFault 0 0)), .kernel .seguirFin, .kernel .seguirFin]

/-- Its region is too small for the one that waits. -/
theorem freed_memory_is_offered_noCabe :
    ∃ k, AlcanzaConjunto memoriaChica .fifo ['a'] 32 (sucesosFalla 60) k ∧
      EntreVueltas k ∧ k.listPcbNew = [2] ∧ Ofrecida k := by
  have hrun : AlcanzaConjunto memoriaChica .fifo ['a'] 32 (sucesosFalla 60) _ :=
    ⟨by decide, run_of_isSome (pasoJusto memoriaChica .fifo) id (by decide) (by decide)⟩
  refine ⟨_, hrun, ⟨⟨_, _, rfl⟩, rfl⟩, by decide, ?_⟩
  exact freed_memory_is_offered estable_memoriaChica hrun (by decide) ⟨⟨_, _, rfl⟩, rfl⟩

/-- Its region has room for the one that waits, which is not offered it. -/
theorem freed_memory_not_offered :
    ¬ ∀ (mcfg : Memoria.Config) (alg : SchedulerAlgorithm) (path : List Char) (size : Nat)
        (es : List Suceso) (k : Globals Vecina),
      StableFor Memoria.ordenarPorBase (mcfg.listSort Memoria.ordenarPorBase) →
      AlcanzaConjunto mcfg alg path size es k → EntreVueltas k → Ofrecida k := by
  intro h
  have hrun : AlcanzaConjunto memoriaChica .fifo ['a'] 32 (sucesosFalla 24) _ :=
    ⟨by decide, run_of_isSome (pasoJusto memoriaChica .fifo) id (by decide) (by decide)⟩
  have hofrecida := h _ _ _ _ _ _ estable_memoriaChica hrun ⟨⟨_, _, rfl⟩, rfl⟩ 2 (by decide)
  revert hofrecida
  decide

end Kernel
end SinIdeas
