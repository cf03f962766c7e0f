import Mathlib.Order.OrderDual
import SinIdeas.Lib.RunningOptimum
import SinIdeas.Memoria.Rebuild

/-!
# Where a process is placed

FIRST takes the first partition in which the process fits. BEST and WORST keep the
best one so far, from a bound that stands for none: a partition is found only if its
size is below `INT_MAX` or above 0. What is found is the optimum of the criterion;
whether something is found depends on the criterion at these two sizes.
-/

namespace SinIdeas
namespace Memoria

open Lib

/-- The partition `p`, at index `i`, is the choice of the criterion among those in which
the process fits: the first one for FIRST, the first of the smallest for BEST and the
first of the largest for WORST. -/
def Optima (processSize : UInt32) (partitions : List MemPartition) (i : Nat)
    (p : MemPartition) :
    Criteria → Prop
  | .first => ∀ (j : Nat) (q : MemPartition), partitions[j]? = some q →
      q.admite processSize = true → i ≤ j
  | .best => ∀ (j : Nat) (q : MemPartition), partitions[j]? = some q →
      q.admite processSize = true → p.size ≤ q.size ∧ (q.size = p.size → i ≤ j)
  | .worst => ∀ (j : Nat) (q : MemPartition), partitions[j]? = some q →
      q.admite processSize = true → q.size ≤ p.size ∧ (q.size = p.size → i ≤ j)
  | .otro => False

/-- The process fits under every criterion or under none, and it fits when a free
partition is large enough. -/
structure MismaAdmision (partitions : List MemPartition) (processSize pid : UInt32) : Prop where
  best : allocateProcessInPartition partitions processSize .first pid = none ↔
    allocateProcessInPartition partitions processSize .best pid = none
  worst : allocateProcessInPartition partitions processSize .best pid = none ↔
    allocateProcessInPartition partitions processSize .worst pid = none
  libre : allocateProcessInPartition partitions processSize .first pid = none ↔
    ¬ ∃ p ∈ partitions, p.isFree = true ∧ processSize ≤ p.size

/-- The partitions in which the process fits, if there are any, are not all of `INT_MAX`
bytes or more, and not all empty. -/
def NoExtremas (partitions : List MemPartition) (processSize : UInt32) : Prop :=
  (∃ p ∈ partitions, p.isFree = true ∧ processSize ≤ p.size) →
    (∃ p ∈ partitions, (p.isFree = true ∧ processSize ≤ p.size) ∧ p.size < 2147483647) ∧
    ∃ p ∈ partitions, (p.isFree = true ∧ processSize ≤ p.size) ∧ 0 < p.size

section Loops

variable {processSize : UInt32} {partitions : List MemPartition} {p : MemPartition} {i : Nat}

theorem admite_iff : p.admite processSize = true ↔ p.isFree = true ∧ processSize ≤ p.size := by
  rw [MemPartition.admite, Bool.and_eq_true, decide_eq_true_eq]

/-- The loop of BEST and WORST keeps the optimum for the order in which it compares. -/
theorem fitLoop_eq_optimumLoop
    {κ : Type} [LinearOrder κ] {mejora : UInt32 → UInt32 → Bool}
    (clave : UInt32 → κ)
    (h : ∀ a b, mejora a b = decide (clave a < clave b))
    (partitions : List MemPartition) (i : Nat) (cota : UInt32) (index : Option Nat) :
    fitLoop mejora processSize partitions i cota index =
      optimumLoop (fun p => clave p.size) (MemPartition.admite processSize) partitions i
        (clave cota) index := by
  induction partitions generalizing i cota index with
  | nil =>
      rfl
  | cons p ps ih =>
      unfold fitLoop optimumLoop
      rw [h p.size cota, ih, ih]

theorem bestFit_eq :
    bestFit partitions processSize =
      optimumLoop (fun p => p.size.toNat) (MemPartition.admite processSize) partitions 0
        (UInt32.toNat 2147483647) none := by
  refine fitLoop_eq_optimumLoop UInt32.toNat ?_ partitions 0 2147483647 none
  intro a b
  exact decide_eq_decide.mpr UInt32.lt_iff_toNat_lt

/-- WORST looks for the least size in the reversed order. -/
theorem worstFit_eq :
    worstFit partitions processSize =
      optimumLoop (fun p => OrderDual.toDual p.size.toNat) (MemPartition.admite processSize)
        partitions 0 (OrderDual.toDual 0) none := by
  refine fitLoop_eq_optimumLoop (fun a => OrderDual.toDual a.toNat) ?_ partitions 0 0 none
  intro a b
  rw [decide_eq_decide, OrderDual.toDual_lt_toDual]
  exact UInt32.lt_iff_toNat_lt

/-- The first optimum is the first element with its key. -/
theorem index_le_of_firstOptimum
    {κ : Type} [LinearOrder κ] {j : Nat} {q : MemPartition}
    (clave : UInt32 → κ)
    (h : FirstOptimum (fun p => clave p.size) (MemPartition.admite processSize) partitions i p)
    (hq : partitions[j]? = some q)
    (hadm : q.admite processSize = true)
    (hsize : q.size = p.size) :
    i ≤ j := by
  by_contra hlt
  have hkey := h.first j q (not_le.mp hlt) hq hadm
  rw [hsize] at hkey
  exact lt_irrefl _ hkey

/-- Every criterion selects its optimum. -/
theorem selectPartition_optima
    {criteria : Criteria}
    (h : selectPartition partitions processSize criteria = some i)
    (hp : partitions[i]? = some p) :
    Optima processSize partitions i p criteria := by
  cases criteria with
  | first =>
      intro j q hq hadm
      obtain ⟨_, _, hfirst⟩ := List.findIdx?_eq_some_iff_getElem.mp h
      by_contra hlt
      obtain ⟨hj, rfl⟩ := List.getElem?_eq_some_iff.mp hq
      exact absurd hadm (hfirst j (not_le.mp hlt))
  | best =>
      rw [selectPartition, bestFit_eq] at h
      obtain ⟨r, hopt⟩ := firstOptimum_of_optimumLoop h
      obtain rfl : r = p := Option.some.inj (hopt.get.symm.trans hp)
      intro j q hq hadm
      refine ⟨?_, index_le_of_firstOptimum UInt32.toNat hopt hq hadm⟩
      exact UInt32.le_iff_toNat_le.mpr (hopt.least q (List.mem_of_getElem? hq) hadm)
  | worst =>
      rw [selectPartition, worstFit_eq] at h
      obtain ⟨r, hopt⟩ := firstOptimum_of_optimumLoop h
      obtain rfl : r = p := Option.some.inj (hopt.get.symm.trans hp)
      intro j q hq hadm
      refine ⟨?_, index_le_of_firstOptimum (fun a => OrderDual.toDual a.toNat)
        hopt hq hadm⟩
      exact UInt32.le_iff_toNat_le.mpr
        (OrderDual.toDual_le_toDual.mp (hopt.least q (List.mem_of_getElem? hq) hadm))
  | otro =>
      cases h

/-- A partition is returned whenever one is selected. -/
theorem allocateProcessInPartition_eq_none_iff
    {criteria : Criteria} {pid : UInt32} :
    allocateProcessInPartition partitions processSize criteria pid = none ↔
      selectPartition partitions processSize criteria = none := by
  unfold allocateProcessInPartition
  cases hsel : selectPartition partitions processSize criteria with
  | none =>
      simp
  | some i =>
      obtain ⟨p, hp, _⟩ := selectPartition_spec hsel
      simp [hp]

theorem firstFit_eq_none_iff (partitions : List MemPartition) (processSize : UInt32) :
    firstFit partitions processSize = none ↔
      ¬ ∃ p ∈ partitions, p.isFree = true ∧ processSize ≤ p.size := by
  rw [firstFit, List.findIdx?_eq_none_iff]
  simp only [← admite_iff, not_exists, not_and, Bool.not_eq_true]

/-- BEST finds nothing when every partition that fits has `INT_MAX` bytes or more. -/
theorem bestFit_eq_none_iff (partitions : List MemPartition) (processSize : UInt32) :
    bestFit partitions processSize = none ↔
      ¬ ∃ p ∈ partitions, (p.isFree = true ∧ processSize ≤ p.size) ∧ p.size < 2147483647 := by
  rw [bestFit_eq, optimumLoop_eq_none_iff]
  simp only [← admite_iff, not_exists, not_and, UInt32.lt_iff_toNat_lt, not_lt]

/-- WORST finds nothing when every partition that fits is empty. -/
theorem worstFit_eq_none_iff (partitions : List MemPartition) (processSize : UInt32) :
    worstFit partitions processSize = none ↔
      ¬ ∃ p ∈ partitions, (p.isFree = true ∧ processSize ≤ p.size) ∧ 0 < p.size := by
  rw [worstFit_eq, optimumLoop_eq_none_iff]
  simp only [← admite_iff, not_exists, not_and, UInt32.lt_iff_toNat_lt, UInt32.toNat_zero,
    OrderDual.toDual_le_toDual, not_lt]

end Loops

/-- A partition that is returned was free, large enough and the optimum of the criterion,
and only its flag and its PID change; without one the partitions stay. -/
theorem placement_is_optimal
    (partitions : List MemPartition) (processSize pid : UInt32) (criteria : Criteria) :
    (∀ selected partitions',
      allocateProcessInPartition partitions processSize criteria pid =
        some (selected, partitions') →
      ∃ i p, partitions[i]? = some p ∧ p.isFree = true ∧ processSize ≤ p.size ∧
        Optima processSize partitions i p criteria ∧
        selected = { p with isFree := false, pid := pid } ∧
        partitions' = partitions.set i selected) ∧
    ∀ (cfg : Config) (g : Globals),
      allocateProcessInPartition g.partitionList processSize cfg.algoritmoBusqueda pid = none →
      (verificarEspacioYCrearProceso cfg g pid processSize).1.partitionList =
        g.partitionList := by
  constructor
  · intro selected partitions' h
    simp only [allocateProcessInPartition, Option.bind_eq_bind, Option.bind_eq_some_iff,
      Option.some.injEq, Prod.mk.injEq] at h
    obtain ⟨i, hi, p, hp, rfl, rfl⟩ := h
    obtain ⟨q, hq, hadm⟩ := selectPartition_spec hi
    obtain rfl : p = q := Option.some.inj (hp.symm.trans hq)
    obtain ⟨hfree, hsize⟩ := admite_iff.mp hadm
    exact ⟨i, p, hp, hfree, hsize, selectPartition_optima hi hp, rfl, rfl⟩
  · intro cfg g h
    cases hesq : cfg.esquema with
    | otro =>
        simp only [verificarEspacioYCrearProceso, hesq]
    | fijas =>
        simp only [verificarEspacioYCrearProceso, hesq, h]
    | dinamicas =>
        simp only [verificarEspacioYCrearProceso, hesq, h]

/-- Whether a process fits is the same for every criterion exactly when the partitions in
which it fits are not all at the bound from which BEST or WORST starts. -/
theorem admission_independent_of_criterion_iff
    (partitions : List MemPartition) (processSize pid : UInt32) :
    MismaAdmision partitions processSize pid ↔ NoExtremas partitions processSize := by
  have hfirst := firstFit_eq_none_iff partitions processSize
  have hbest := bestFit_eq_none_iff partitions processSize
  have hworst := worstFit_eq_none_iff partitions processSize
  constructor
  · intro h hfits
    have hnotFirst : ¬ firstFit partitions processSize = none :=
      fun hnone => hfirst.mp hnone hfits
    have hnotBest : ¬ bestFit partitions processSize = none := by
      have hequiv := h.best
      rw [allocateProcessInPartition_eq_none_iff, allocateProcessInPartition_eq_none_iff] at hequiv
      exact fun hnone => hnotFirst (hequiv.mpr hnone)
    have hnotWorst : ¬ worstFit partitions processSize = none := by
      have hequiv := h.worst
      rw [allocateProcessInPartition_eq_none_iff, allocateProcessInPartition_eq_none_iff] at hequiv
      exact fun hnone => hnotBest (hequiv.mpr hnone)
    rw [hbest, not_not] at hnotBest
    rw [hworst, not_not] at hnotWorst
    exact ⟨hnotBest, hnotWorst⟩
  · intro h
    have hfirst_best : firstFit partitions processSize = none ↔
        bestFit partitions processSize = none := by
      rw [hfirst, hbest]
      exact not_congr ⟨fun hfits => (h hfits).1, fun ⟨p, hp, hfits, _⟩ => ⟨p, hp, hfits⟩⟩
    have hfirst_worst : firstFit partitions processSize = none ↔
        worstFit partitions processSize = none := by
      rw [hfirst, hworst]
      exact not_congr ⟨fun hfits => (h hfits).2, fun ⟨p, hp, hfits, _⟩ => ⟨p, hp, hfits⟩⟩
    constructor
    · rw [allocateProcessInPartition_eq_none_iff, allocateProcessInPartition_eq_none_iff]
      exact hfirst_best
    · rw [allocateProcessInPartition_eq_none_iff, allocateProcessInPartition_eq_none_iff]
      exact hfirst_best.symm.trans hfirst_worst
    · rw [allocateProcessInPartition_eq_none_iff]
      exact hfirst

/-- BEST does not find the only partition, of `INT_MAX` bytes, that FIRST finds. -/
theorem best_misses_largest_partition :
    ¬ ∀ (partitions : List MemPartition) (processSize pid : UInt32),
        (∀ p ∈ partitions, p.size ≤ 2147483647) →
        MismaAdmision partitions processSize pid := by
  intro hclaim
  have hmisma := hclaim [freePartition 0 2147483647] 16 0 (by decide)
  have hbest : allocateProcessInPartition [freePartition 0 2147483647] 16 .best 0 = none := by
    decide
  exact absurd (hmisma.best.mpr hbest) (by decide)

end Memoria
end SinIdeas
