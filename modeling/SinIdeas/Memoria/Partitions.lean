import SinIdeas.Memoria.Structs

/-!
# Partitions

`allocate_process_in_partition` chooses a free partition that is large enough
by one of three criteria. The static list is built once from the configured
sizes; the dynamic list is rebuilt from the process table, sorted by base.
-/

namespace SinIdeas
namespace Memoria

/-- A free partition in which a process of the given size fits. -/
def MemPartition.admite (processSize : UInt32) (p : MemPartition) : Bool :=
  p.isFree && decide (processSize ≤ p.size)

/-- The loop of BEST and WORST: the last partition that improves on the bound
reached so far. -/
def fitLoop
    (mejora : UInt32 → UInt32 → Bool)
    (processSize : UInt32) :
    List MemPartition → Nat → UInt32 → Option Nat → Option Nat
  | [], _, _, index => index
  | p :: ps, i, cota, index =>
      if p.admite processSize && mejora p.size cota then
        fitLoop mejora processSize ps (i + 1) p.size (some i)
      else
        fitLoop mejora processSize ps (i + 1) cota index

/-- FIRST: `list_find`. -/
def firstFit (partitions : List MemPartition) (processSize : UInt32) : Option Nat :=
  partitions.findIdx? (MemPartition.admite processSize)

/-- BEST, from `min_size = INT_MAX`; the `int` bound is compared as unsigned. -/
def bestFit (partitions : List MemPartition) (processSize : UInt32) : Option Nat :=
  fitLoop (fun size minSize => decide (size < minSize)) processSize partitions 0
    2147483647 none

/-- WORST, from `max_size = 0`. -/
def worstFit (partitions : List MemPartition) (processSize : UInt32) : Option Nat :=
  fitLoop (fun size maxSize => decide (maxSize < size)) processSize partitions 0 0 none

/-- The index of the partition that the criterion selects. -/
def selectPartition
    (partitions : List MemPartition)
    (processSize : UInt32) :
    Criteria → Option Nat
  | .first => firstFit partitions processSize
  | .best => bestFit partitions processSize
  | .worst => worstFit partitions processSize
  | .otro => none

/-- `allocate_process_in_partition`: the selected partition, marked as the
process's, and the list in which it was marked. -/
def allocateProcessInPartition
    (partitions : List MemPartition)
    (processSize : UInt32)
    (criteria : Criteria)
    (pid : UInt32) :
    Option (MemPartition × List MemPartition) := do
  let i ← selectPartition partitions processSize criteria
  let p ← partitions[i]?
  let selected := { p with isFree := false, pid := pid }
  some (selected, partitions.set i selected)

/-- The loop of `build_static_partition_list`, from the end of the last one. -/
def staticPartitions (base : UInt32) : List UInt32 → List MemPartition
  | [] => []
  | size :: sizes =>
      { pid := pidLibre, base, limite := base + size, size, isFree := true } ::
        staticPartitions (base + size) sizes

/-- `build_static_partition_list`. -/
def buildStaticPartitionList (sizes : List UInt32) : List MemPartition :=
  staticPartitions 0 sizes

/-- `ordenar_por_base`. -/
def ordenarPorBase (a b : MemPcb) : Bool := decide (a.base < b.base)

/-- A free partition from `base` to `limite`. -/
def freePartition (base limite : UInt32) : MemPartition where
  pid := pidLibre
  base := base
  limite := limite
  size := limite - base
  isFree := true

/-- The partition of a resident process. -/
def occupiedPartition (pcb : MemPcb) : MemPartition where
  pid := pcb.pid
  base := pcb.base
  limite := pcb.limite
  size := pcb.limite - pcb.base
  isFree := false

/-- The loop of `build_dynamic_partition_list` over the sorted process table,
from `current_base`, and the free partition after it. -/
def dynamicPartitions (tamMemoria currentBase : UInt32) : List MemPcb → List MemPartition
  | [] =>
      if currentBase < tamMemoria then [freePartition currentBase tamMemoria] else []
  | pcb :: procs =>
      (if currentBase < pcb.base then [freePartition currentBase pcb.base] else []) ++
        occupiedPartition pcb :: dynamicPartitions tamMemoria pcb.limite procs

/-- `build_dynamic_partition_list`: it also leaves the process table sorted. -/
def buildDynamicPartitionList
    (cfg : Config)
    (procs : List MemPcb) :
    List MemPcb × List MemPartition :=
  if procs.isEmpty then
    (procs, [{ pid := pidLibre, base := 0, limite := cfg.tamMemoria,
               size := cfg.tamMemoria, isFree := true }])
  else
    let sorted := cfg.listSort ordenarPorBase procs
    (sorted, dynamicPartitions cfg.tamMemoria 0 sorted)

/-- `update_dynamic_partition_list`. -/
def updateDynamicPartitionList (cfg : Config) (g : Globals) : Globals :=
  let built := buildDynamicPartitionList cfg g.memoryProcessList
  { g with memoryProcessList := built.1, partitionList := built.2 }

section Selection

variable {mejora : UInt32 → UInt32 → Bool} {processSize : UInt32}

/-- The loop ends with the index it had or with a partition that admits. -/
theorem fitLoop_spec
    {partitions : List MemPartition} {i k : Nat} {cota : UInt32} {index : Option Nat}
    (h : fitLoop mejora processSize partitions i cota index = some k) :
    index = some k ∨
      ∃ j p, k = i + j ∧ partitions[j]? = some p ∧ p.admite processSize = true := by
  induction partitions generalizing i cota index with
  | nil =>
      exact Or.inl h
  | cons p ps ih =>
      unfold fitLoop at h
      split_ifs at h with hp
      · obtain ⟨hadm, _⟩ := Bool.and_eq_true_iff.mp hp
        rcases ih h with heq | ⟨j, q, rfl, hq, hqa⟩
        · obtain rfl := Option.some.inj heq
          exact Or.inr ⟨0, p, rfl, rfl, hadm⟩
        · exact Or.inr ⟨j + 1, q, by omega, by simpa using hq, hqa⟩
      · rcases ih h with heq | ⟨j, q, rfl, hq, hqa⟩
        · exact Or.inl heq
        · exact Or.inr ⟨j + 1, q, by omega, by simpa using hq, hqa⟩

/-- Every criterion selects a free partition in which the process fits. -/
theorem selectPartition_spec
    {partitions : List MemPartition} {criteria : Criteria} {i : Nat}
    (h : selectPartition partitions processSize criteria = some i) :
    ∃ p, partitions[i]? = some p ∧ p.admite processSize = true := by
  have hloop : ∀ {mejora cota},
      fitLoop mejora processSize partitions 0 cota none = some i →
      ∃ p, partitions[i]? = some p ∧ p.admite processSize = true := by
    intro mejora cota hfit
    rcases fitLoop_spec hfit with hnone | ⟨j, p, hij, hp, hadm⟩
    · cases hnone
    · obtain rfl : i = j := by omega
      exact ⟨p, hp, hadm⟩
  cases criteria with
  | first =>
      obtain ⟨hi, hadm, _⟩ := List.findIdx?_eq_some_iff_getElem.mp h
      exact ⟨partitions[i], List.getElem?_eq_getElem hi, hadm⟩
  | best =>
      exact hloop h
  | worst =>
      exact hloop h
  | otro =>
      cases h

/-- The allocated partition is a free one that was large enough, and only its
owner changes. -/
theorem allocateProcessInPartition_spec
    {partitions partitions' : List MemPartition} {criteria : Criteria} {pid : UInt32}
    {selected : MemPartition}
    (h : allocateProcessInPartition partitions processSize criteria pid =
      some (selected, partitions')) :
    ∃ before p after,
      partitions = before ++ p :: after ∧
      p.isFree = true ∧
      processSize ≤ p.size ∧
      selected = { p with isFree := false, pid := pid } ∧
      partitions' = before ++ selected :: after := by
  simp only [allocateProcessInPartition, Option.bind_eq_bind, Option.bind_eq_some_iff,
    Option.some.injEq, Prod.mk.injEq] at h
  obtain ⟨i, hi, p, hp, hsel, hlist⟩ := h
  obtain ⟨q, hq, hadm⟩ := selectPartition_spec hi
  obtain rfl : p = q := Option.some.inj (hp.symm.trans hq)
  obtain ⟨hlt, hget⟩ := List.getElem?_eq_some_iff.mp hp
  simp only [MemPartition.admite, Bool.and_eq_true, decide_eq_true_eq] at hadm
  refine ⟨partitions.take i, p, partitions.drop (i + 1), ?_, hadm.1, hadm.2, hsel.symm, ?_⟩
  · rw [← hget, List.getElem_cons_drop, List.take_append_drop]
  · rw [← hlist, hsel, List.set_eq_take_append_cons_drop, if_pos hlt]

end Selection

end Memoria
end SinIdeas
