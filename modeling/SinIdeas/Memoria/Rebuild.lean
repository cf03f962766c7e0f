import SinIdeas.Memoria.Tiling

/-!
# Which requests change the partition list

Under ESQUEMA=DINAMICAS a request about a thread rebuilds the partition list. The
table is sorted and the list is the one that is built from it, so the rebuilt list is
the same. Only creating and ending a process change the partitions.
-/

namespace SinIdeas
namespace Memoria

open Lib

/-- Under DINAMICAS the table is sorted and the partition list is built from it. -/
def AlDia (cfg : Config) (g : Globals) : Prop :=
  cfg.esquema = .dinamicas → Sorted claveBase g.memoryProcessList ∧
    g.partitionList = (buildDynamicPartitionList cfg g.memoryProcessList).2

/-- The partitions are the same, and still built from the table. -/
structure MismasParticiones (cfg : Config) (g g' : Globals) : Prop where
  alDia : AlDia cfg g'
  particiones : g'.partitionList = g.partitionList

/-- The requests of the CPU. -/
def Peticion.deCpu : Peticion → Bool
  | .instructionRequest .. => true
  | .executionContext .. => true
  | .executionContextUpdate .. => true
  | .readMemRequest .. => true
  | .writeMemRequest .. => true
  | _ => false

/-- The size of the free partition that is left where a resident process is when it is
ended: its fixed partition, or what lies between the end of the process before it and the
base of the one after it, in the order of the table. -/
def hueco (cfg : Config) (g : Globals) (pid : UInt32) : Option UInt32 :=
  if (buscarProcesoPorPid g pid).isSome then
    match cfg.esquema with
    | .otro => none
    | .fijas => (g.partitionList.find? (fun p => p.pid == pid)).map MemPartition.size
    | .dinamicas =>
        let antes := g.memoryProcessList.takeWhile (fun p => p.pid != pid)
        let despues := (g.memoryProcessList.dropWhile (fun p => p.pid != pid)).tail
        let desde := (antes.getLast?.map MemPcb.limite).getD 0
        let hasta := (despues.head?.map MemPcb.base).getD cfg.tamMemoria
        if desde < hasta ∨ antes = [] ∧ despues = [] then some (hasta - desde) else none
  else
    none

/-- Some free partition fits a process of that size. -/
def cabe (g : Globals) (size : UInt32) : Bool := g.partitionList.any (MemPartition.admite size)

section Rebuild

variable {cfg : Config} {g g' : Globals}

theorem alDia_inicializar (cfg : Config) : AlDia cfg (inicializar cfg) := by
  intro hesq
  constructor
  · exact List.Pairwise.nil
  · simp [inicializar, hesq]

/-- Being sorted depends on the regions only. -/
theorem sorted_of_ocupadas
    {procs procs' : List MemPcb}
    (hocc : ocupadas procs' = ocupadas procs)
    (h : Sorted claveBase procs) :
    Sorted claveBase procs' := by
  have hregions : ∀ l : List MemPcb, Sorted claveBase l ↔
      (ocupadas l).Pairwise (fun p q => p.lo ≤ q.lo) := by
    intro l
    rw [ocupadas, List.pairwise_map]
    rfl
  rw [hregions, hocc, ← hregions]
  exact h

/-- Changing a process in place keeps the partitions if its region stays. -/
theorem AlDia.modificar
    {pid : UInt32} {f : MemPcb → MemPcb}
    (hsort : StableFor ordenarPorBase (cfg.listSort ordenarPorBase))
    (h : AlDia cfg g)
    (hf : ∀ p, buscarProcesoPorPid g pid = some p →
      occupiedPartition (f p) = occupiedPartition p) :
    MismasParticiones cfg g (modificarProceso g pid f) := by
  refine ⟨?_, rfl⟩
  intro hesq
  obtain ⟨hsorted, hlist⟩ := h hesq
  have hocc : ocupadas (modificarProceso g pid f).memoryProcessList =
      ocupadas g.memoryProcessList := map_modifyFirst hf
  have hsorted' := sorted_of_ocupadas hocc hsorted
  refine ⟨hsorted', hlist.trans ?_⟩
  have hempty : (modificarProceso g pid f).memoryProcessList.isEmpty =
      g.memoryProcessList.isEmpty := by
    have hlength := congrArg List.length hocc
    rw [ocupadas, ocupadas, List.length_map, List.length_map] at hlength
    rw [Bool.eq_iff_iff, List.isEmpty_iff_length_eq_zero, List.isEmpty_iff_length_eq_zero,
      hlength]
  rw [ordenarPorBase_eq] at hsort
  unfold buildDynamicPartitionList
  rw [hempty, ordenarPorBase_eq, hsort.sort_of_sorted hsorted, hsort.sort_of_sorted hsorted']
  split
  · rfl
  · exact (dynamicPartitions_congr hocc).symm

/-- A rebuilt list is built from a sorted table. -/
theorem alDia_update
    (hsort : StableFor ordenarPorBase (cfg.listSort ordenarPorBase))
    (g : Globals) :
    AlDia cfg (updateDynamicPartitionList cfg g) := by
  intro _
  rw [ordenarPorBase_eq] at hsort
  unfold updateDynamicPartitionList
  cases hg : g.memoryProcessList with
  | nil =>
      exact ⟨List.Pairwise.nil, rfl⟩
  | cons p procs =>
      have hsorted := hsort.sorted_byKey (p :: procs)
      have hne : (cfg.listSort (byKey claveBase) (p :: procs)).isEmpty = false := by
        have hlength := (hsort.perm (p :: procs)).length_eq
        cases hl : cfg.listSort (byKey claveBase) (p :: procs) with
        | nil =>
            simp [hl] at hlength
        | cons q l =>
            rfl
      simp only [buildDynamicPartitionList, List.isEmpty_cons, Bool.false_eq_true, if_false,
        ordenarPorBase_eq]
      refine ⟨hsorted, ?_⟩
      simp [hne, hsort.sort_of_sorted hsorted]

/-- A rebuilt list is the same if nothing was added or taken away. -/
theorem AlDia.update
    (hsort : StableFor ordenarPorBase (cfg.listSort ordenarPorBase))
    (h : AlDia cfg g)
    (hesq : cfg.esquema = .dinamicas) :
    MismasParticiones cfg g (updateDynamicPartitionList cfg g) :=
  ⟨alDia_update hsort g, (h hesq).2.symm⟩

theorem MismasParticiones.trans
    {g'' : Globals}
    (h₁ : MismasParticiones cfg g g')
    (h₂ : MismasParticiones cfg g' g'') :
    MismasParticiones cfg g g'' :=
  ⟨h₂.alDia, h₂.particiones.trans h₁.particiones⟩

theorem MismasParticiones.cabe_eq
    (h : MismasParticiones cfg g g')
    (size : UInt32) :
    cabe g' size = cabe g size := by
  rw [cabe, cabe, h.particiones]

theorem verificarYAgregarHilo_particiones
    (hsort : StableFor ordenarPorBase (cfg.listSort ordenarPorBase))
    (h : AlDia cfg g)
    (pid tid : UInt32) (filePath : List Char) :
    MismasParticiones cfg g (verificarYAgregarHilo g pid tid filePath).1 := by
  unfold verificarYAgregarHilo
  split
  · exact ⟨h, rfl⟩
  · exact h.modificar hsort (fun _ _ => rfl)

theorem eliminarHiloMem_particiones
    (hsort : StableFor ordenarPorBase (cfg.listSort ordenarPorBase))
    (h : AlDia cfg g)
    (pid tid : UInt32) :
    MismasParticiones cfg g (eliminarHiloMem cfg g pid tid) := by
  unfold eliminarHiloMem
  split
  · exact ⟨h, rfl⟩
  · split_ifs with hhilo hesq
    · have hmod : MismasParticiones cfg g (modificarProceso g pid (fun proceso =>
          { proceso with threads := proceso.threads.eraseP (fun hilo => hilo.tid == tid) })) :=
        h.modificar hsort (fun _ _ => rfl)
      exact hmod.trans (hmod.alDia.update hsort hesq)
    · exact h.modificar hsort (fun _ _ => rfl)
    · exact ⟨h, rfl⟩

/-- A process that is refused changes nothing. -/
theorem verificarEspacioYCrearProceso_refused
    {pid size : UInt32}
    (hno : (verificarEspacioYCrearProceso cfg g pid size).2 = false) :
    (verificarEspacioYCrearProceso cfg g pid size).1 = g := by
  unfold verificarEspacioYCrearProceso at hno ⊢
  cases hesq : cfg.esquema with
  | otro =>
      rfl
  | fijas =>
      simp only [hesq] at hno ⊢
      split at hno
      · simp only
      · cases hno
  | dinamicas =>
      simp only [hesq] at hno ⊢
      split at hno
      · simp only
      · cases hno

/-- With FIRST a process is admitted exactly when some free partition fits it. -/
theorem verificarEspacioYCrearProceso_first
    (hesq : cfg.esquema ≠ .otro)
    (hfirst : cfg.algoritmoBusqueda = .first)
    (g : Globals) (pid size : UInt32) :
    (verificarEspacioYCrearProceso cfg g pid size).2 = cabe g size := by
  have hselect : (allocateProcessInPartition g.partitionList size .first pid).isSome =
      cabe g size := by
    unfold allocateProcessInPartition cabe
    rw [← List.findIdx?_isSome]
    cases hi : g.partitionList.findIdx? (MemPartition.admite size) with
    | none =>
        simp [selectPartition, firstFit, hi]
    | some i =>
        obtain ⟨hlt, _⟩ := List.findIdx?_eq_some_iff_getElem.mp hi
        simp [selectPartition, firstFit, hi, hlt]
  unfold verificarEspacioYCrearProceso
  cases hcfg : cfg.esquema with
  | otro =>
      exact absurd hcfg hesq
  | fijas =>
      simp only [hfirst]
      rw [← hselect]
      cases allocateProcessInPartition g.partitionList size .first pid with
      | none =>
          rfl
      | some r =>
          rfl
  | dinamicas =>
      simp only [hfirst]
      rw [← hselect]
      cases allocateProcessInPartition g.partitionList size .first pid with
      | none =>
          rfl
      | some r =>
          rfl

theorem verificarEspacioYCrearProceso_alDia
    (hsort : StableFor ordenarPorBase (cfg.listSort ordenarPorBase))
    (h : AlDia cfg g)
    (pid size : UInt32) :
    AlDia cfg (verificarEspacioYCrearProceso cfg g pid size).1 := by
  intro hesq
  have hdinamicas : AlDia cfg (verificarEspacioYCrearProceso cfg g pid size).1 := by
    unfold verificarEspacioYCrearProceso
    simp only [hesq]
    split
    · exact h
    · exact alDia_update hsort _
  exact hdinamicas hesq

theorem eliminarProcesoMem_alDia
    (hsort : StableFor ordenarPorBase (cfg.listSort ordenarPorBase))
    (h : AlDia cfg g)
    (pid : UInt32) :
    AlDia cfg (eliminarProcesoMem cfg g pid) := by
  intro hesq
  have hdinamicas : AlDia cfg (eliminarProcesoMem cfg g pid) := by
    unfold eliminarProcesoMem
    simp only [hesq]
    split_ifs
    · exact alDia_update hsort _
    · exact h
  exact hdinamicas hesq

/-- The requests of the CPU leave the partitions alone. -/
theorem deCpu_particiones
    {p : Peticion}
    (hsort : StableFor ordenarPorBase (cfg.listSort ordenarPorBase))
    (h : AlDia cfg g)
    (hcpu : p.deCpu = true)
    (hreg : Regular g p)
    (hstep : atiende cfg g p = some g') :
    MismasParticiones cfg g g' := by
  cases efecto_of_atiende hstep with
  | executionContextUpdate pid tid r =>
      refine h.modificar hsort ?_
      intro q hq
      obtain ⟨hbase, hlimite⟩ := hreg q hq
      simp [occupiedPartition, hbase, hlimite]
  | consulta p g' hprocs hlist =>
      refine ⟨?_, hlist⟩
      intro hesq
      rw [hprocs, hlist]
      exact h hesq
  | _ =>
      cases hcpu

end Rebuild

section Ended

variable {cfg : Config} {g : Globals} {pid size : UInt32}

/-- The partitions up to the end of some processes do not depend on those after them. -/
theorem dynamicPartitions_append
    (tam base : UInt32) (antes : List MemPcb) :
    ∃ pre, ∀ despues, dynamicPartitions tam base (antes ++ despues) =
      pre ++ dynamicPartitions tam ((antes.getLast?.map MemPcb.limite).getD base) despues := by
  induction antes generalizing base with
  | nil =>
      exact ⟨[], fun _ => rfl⟩
  | cons p antes ih =>
      obtain ⟨pre, hpre⟩ := ih p.limite
      refine ⟨(if base < p.base then [freePartition base p.base] else []) ++
        occupiedPartition p :: pre, fun despues => ?_⟩
      have hlast : ((p :: antes).getLast?.map MemPcb.limite).getD base =
          (antes.getLast?.map MemPcb.limite).getD p.limite := by
        cases antes with
        | nil => rfl
        | cons q antes => simp [List.getLast?_cons_cons, List.getLast?_cons]
      rw [List.cons_append, dynamicPartitions, hpre, hlast, List.append_assoc, List.cons_append]

/-- Of the place where the list begins only its first free partition depends. -/
theorem dynamicPartitions_gap
    (tam : UInt32) (despues : List MemPcb) :
    ∃ post, ∀ base, dynamicPartitions tam base despues =
      (if base < (despues.head?.map MemPcb.base).getD tam then
        [freePartition base ((despues.head?.map MemPcb.base).getD tam)] else []) ++ post := by
  cases despues with
  | nil =>
      exact ⟨[], fun _ => (List.append_nil _).symm⟩
  | cons p despues =>
      exact ⟨occupiedPartition p :: dynamicPartitions tam p.limite despues, fun _ => rfl⟩

/-- The table around a resident process. -/
theorem tabla_de_residente
    {p : MemPcb}
    (hp : buscarProcesoPorPid g pid = some p) :
    ∃ antes despues, g.memoryProcessList = antes ++ p :: despues ∧
      g.memoryProcessList.takeWhile (fun p => p.pid != pid) = antes ∧
      (g.memoryProcessList.dropWhile (fun p => p.pid != pid)).tail = despues ∧
      g.memoryProcessList.eraseP (fun p => p.pid == pid) = antes ++ despues := by
  obtain ⟨hpid, antes, despues, hsplit, hantes⟩ := List.find?_eq_some_iff_append.mp hp
  have hneg : ∀ q ∈ antes, (q.pid != pid) = true := by
    intro q hq
    have hno := hantes q hq
    simpa [bne] using hno
  have hstop : (p.pid != pid) = false := by
    simpa [bne] using hpid
  refine ⟨antes, despues, hsplit, ?_, ?_, ?_⟩
  · rw [hsplit, List.takeWhile_append_of_pos hneg, List.takeWhile_cons_of_neg (by simp [hstop]),
      List.append_nil]
  · rw [hsplit, List.dropWhile_append_of_pos hneg, List.dropWhile_cons_of_neg (by simp [hstop])]
    rfl
  · rw [hsplit, List.eraseP_append_right _ (fun q hq => by simpa [bne] using hneg q hq)]
    simp [hpid]

/-- The partitions of what is left of a sorted table. -/
theorem particiones_de_resto
    {procs : List MemPcb}
    (hsort : StableFor (byKey claveBase) (cfg.listSort (byKey claveBase)))
    (hsorted : Sorted claveBase procs)
    (hne : procs ≠ []) :
    (updateDynamicPartitionList cfg { g with memoryProcessList := procs }).partitionList =
      dynamicPartitions cfg.tamMemoria 0 procs := by
  have hempty : procs.isEmpty = false := by
    simpa using hne
  rw [updateDynamicPartitionList, buildDynamicPartitionList]
  simp only [hempty, Bool.false_eq_true, if_false, ordenarPorBase_eq,
    hsort.sort_of_sorted hsorted]

/-- What fits when a process was ended fitted before or fits in the place that it left. -/
theorem cabe_eliminarProcesoMem
    (hsort : StableFor ordenarPorBase (cfg.listSort ordenarPorBase))
    (h : AlDia cfg g)
    (hcabe : cabe (eliminarProcesoMem cfg g pid) size = true) :
    cabe g size = true ∨ ∃ libre ∈ hueco cfg g pid, size ≤ libre := by
  unfold eliminarProcesoMem at hcabe
  cases hp : buscarProcesoPorPid g pid with
  | none =>
      simp only [hp, Option.isSome_none, Bool.false_eq_true, if_false] at hcabe
      exact Or.inl hcabe
  | some p =>
      simp only [hp, Option.isSome_some, if_true] at hcabe
      cases hesq : cfg.esquema with
      | otro =>
          simp only [hesq] at hcabe
          exact Or.inl hcabe
      | fijas =>
          simp only [hesq, cabe, List.any_eq_true] at hcabe
          obtain ⟨q, hq, hadm⟩ := hcabe
          rcases mem_modifyFirst hq with hq | ⟨r, hr, rfl⟩
          · exact Or.inl (List.any_eq_true.mpr ⟨q, hq, hadm⟩)
          · simp only [MemPartition.admite, liberarParticion, Bool.true_and] at hadm
            have hle : size ≤ r.size := of_decide_eq_true hadm
            exact Or.inr ⟨r.size, by simp [hueco, hp, hesq, hr], hle⟩
      | dinamicas =>
          obtain ⟨antes, despues, hsplit, hantes, hdespues, herase⟩ := tabla_de_residente hp
          obtain ⟨hsorted, hlist⟩ := h hesq
          obtain ⟨pre, hpre⟩ := dynamicPartitions_append cfg.tamMemoria 0 antes
          obtain ⟨post, hpost⟩ := dynamicPartitions_gap cfg.tamMemoria despues
          have hhueco : hueco cfg g pid =
              if (antes.getLast?.map MemPcb.limite).getD 0 <
                  (despues.head?.map MemPcb.base).getD cfg.tamMemoria ∨
                antes = [] ∧ despues = [] then
                some ((despues.head?.map MemPcb.base).getD cfg.tamMemoria -
                  (antes.getLast?.map MemPcb.limite).getD 0)
              else none := by
            simp only [hueco, hp, Option.isSome_some, if_true, hesq, hantes, hdespues]
          simp only [hesq] at hcabe
          rw [ordenarPorBase_eq] at hsort
          have hbefore : g.partitionList = pre ++ (dynamicPartitions cfg.tamMemoria
              ((antes.getLast?.map MemPcb.limite).getD 0) (p :: despues)) := by
            rw [hlist, buildDynamicPartitionList, hsplit]
            rw [if_neg (by simp), ordenarPorBase_eq, hsort.sort_of_sorted (hsplit ▸ hsorted)]
            exact hpre (p :: despues)
          by_cases hempty : antes ++ despues = []
          · -- the whole memory is free
            obtain ⟨rfl, rfl⟩ := List.append_eq_nil_iff.mp hempty
            refine Or.inr ⟨cfg.tamMemoria - 0, by rw [hhueco]; simp, ?_⟩
            simpa [cabe, updateDynamicPartitionList, buildDynamicPartitionList, herase,
              MemPartition.admite] using hcabe
          · have hsorted' : Sorted claveBase (antes ++ despues) := by
              rw [← herase]
              exact hsorted.sublist List.eraseP_sublist
            have hafter : (updateDynamicPartitionList cfg
                { g with memoryProcessList := antes ++ despues }).partitionList =
                pre ++ dynamicPartitions cfg.tamMemoria
                  ((antes.getLast?.map MemPcb.limite).getD 0) despues :=
              (particiones_de_resto hsort hsorted' hempty).trans (hpre despues)
            simp only [herase, cabe, hafter, hpost, List.any_append, Bool.or_eq_true] at hcabe
            simp only [cabe, hbefore, dynamicPartitions, hpost, List.any_append, List.any_cons,
              Bool.or_eq_true]
            rcases hcabe with hin | hin | hin
            · exact Or.inl (Or.inl hin)
            · split_ifs at hin with hlt
              · refine Or.inr ⟨_, by rw [hhueco, if_pos (Or.inl hlt)]; rfl, ?_⟩
                simpa [MemPartition.admite, freePartition] using hin
              · cases hin
            · exact Or.inl (Or.inr (Or.inr (Or.inr (Or.inr hin))))

/-- What fits in the place that a process leaves fits when it was ended. -/
theorem cabe_of_hueco
    {libre : UInt32}
    (hsort : StableFor ordenarPorBase (cfg.listSort ordenarPorBase))
    (h : AlDia cfg g)
    (hlibre : libre ∈ hueco cfg g pid)
    (hsize : size ≤ libre) :
    cabe (eliminarProcesoMem cfg g pid) size = true := by
  unfold hueco at hlibre
  split_ifs at hlibre with hsome
  · obtain ⟨p, hp⟩ := Option.isSome_iff_exists.mp hsome
    unfold eliminarProcesoMem
    rw [if_pos hsome]
    cases hesq : cfg.esquema with
    | otro =>
        simp [hesq] at hlibre
    | fijas =>
        simp only [hesq] at hlibre
        obtain ⟨r, hr, rfl⟩ := Option.map_eq_some_iff.mp hlibre
        obtain ⟨before, after, -, hset⟩ := modifyFirst_split (f := liberarParticion) hr
        simp only [cabe]
        rw [hset, List.any_append, List.any_cons]
        simp [MemPartition.admite, liberarParticion, hsize]
    | dinamicas =>
        obtain ⟨antes, despues, hsplit, hantes, hdespues, herase⟩ := tabla_de_residente hp
        obtain ⟨hsorted, -⟩ := h hesq
        simp only [hesq, hantes, hdespues] at hlibre
        split_ifs at hlibre with hplace
        · obtain rfl := Option.some.inj hlibre
          rw [ordenarPorBase_eq] at hsort
          by_cases hempty : antes ++ despues = []
          · obtain ⟨rfl, rfl⟩ := List.append_eq_nil_iff.mp hempty
            simpa [cabe, updateDynamicPartitionList, buildDynamicPartitionList, herase,
              MemPartition.admite] using hsize
          · have hlt := hplace.resolve_right
              (fun hnil => hempty (List.append_eq_nil_iff.mpr hnil))
            simp only [herase]
            rw [cabe, particiones_de_resto hsort (herase ▸ hsorted.sublist List.eraseP_sublist)
              hempty]
            obtain ⟨pre, hpre⟩ := dynamicPartitions_append cfg.tamMemoria 0 antes
            obtain ⟨post, hpost⟩ := dynamicPartitions_gap cfg.tamMemoria despues
            rw [hpre, hpost, if_pos hlt]
            simp [MemPartition.admite, freePartition, hsize]
        · cases hlibre
  · cases hlibre

end Ended

end Memoria
end SinIdeas
