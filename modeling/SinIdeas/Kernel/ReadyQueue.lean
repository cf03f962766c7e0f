import SinIdeas.Lib.PriorityQueue
import SinIdeas.Kernel.Dispatch

/-!
# READY as a stable priority queue

`add_tcb_to_list` puts a TCB at the end of READY, and `schedule_next_tcb` takes one out:
the first one with the smallest priority number, or under FIFO the first one. Every entry
is numbered when it arrives, next to the list, and nothing reads the numbers.
-/

namespace SinIdeas
namespace Kernel

open Lib

variable {μ : Type}

/-- What the scheduler orders by. -/
def clave (alg : SchedulerAlgorithm) (t : Tcb) : Nat :=
  match alg with
  | .fifo => 0
  | _ => t.priority

/-- The index at which `schedule_next_tcb` removes. -/
def indiceElegido (alg : SchedulerAlgorithm) : List Tcb → Nat
  | [] => 0
  | tcb :: resto =>
      match alg with
      | .fifo => 0
      | _ => indicePrioritario tcb 0 1 resto

/-- The kernel with the numbered entries of READY and those that were taken out of it. -/
structure Llegadas (μ : Type) where
  kernel : Globals μ
  proxima : Nat
  esperan : List (Nat × Tcb)
  servidos : List (Nat × Tcb)

/-- The entries that are there at the start arrived in the order of the list. -/
def Llegadas.inicio (k : Globals μ) : Llegadas μ where
  kernel := k
  proxima := k.listReadyTcb.length
  esperan := (List.range k.listReadyTcb.length).zip k.listReadyTcb
  servidos := []

inductive EventoReady where
  | insertar (tcb : Tcb)
  | sacar
  deriving DecidableEq

/-- An insertion, or a removal; `schedule_next_tcb` returns `NULL` if READY is empty. -/
def pasoReady (cfg : Config μ) (x : Llegadas μ) : EventoReady → Option (Llegadas μ)
  | .insertar tcb =>
      some { x with
        kernel := { x.kernel with listReadyTcb := addTcbToList x.kernel.listReadyTcb tcb }
        proxima := x.proxima + 1
        esperan := x.esperan ++ [(x.proxima, tcb)] }
  | .sacar =>
      match scheduleNextTcb cfg x.kernel with
      | some (tcb, k) =>
          let i := indiceElegido cfg.schedulerAlgorithm x.kernel.listReadyTcb
          some { x with
            kernel := k
            esperan := x.esperan.eraseIdx i
            servidos := x.servidos ++ (x.esperan[i]?).toList.map (fun e => (e.1, tcb)) }
      | none => some x

/-- READY is the list of the entries that wait, in the order of their arrival, and of two
entries with the same key the earlier one was taken out first. -/
structure ColaEstable (alg : SchedulerAlgorithm) (x : Llegadas μ) : Prop where
  lista : x.kernel.listReadyTcb = x.esperan.map Prod.snd
  orden : InOrder (clave alg) x.proxima x.esperan x.servidos

/-- `schedule_next_tcb` takes out the first TCB with the smallest key and changes nothing
else but the semaphore of the quantum. -/
structure SacaPrimero (cfg : Config μ) (k : Globals μ) : Prop where
  vacia : k.listReadyTcb = [] → scheduleNextTcb cfg k = none
  primero : k.listReadyTcb ≠ [] → ∃ before tcb after q,
    k.listReadyTcb = before ++ tcb :: after ∧
    FirstMin (clave cfg.schedulerAlgorithm) before tcb after ∧
    scheduleNextTcb cfg k =
      some (tcb, { k with listReadyTcb := before ++ after, semQuantum := q })

/-- The TCBs that `n` calls of `schedule_next_tcb` return. -/
def vaciar (cfg : Config μ) : Nat → Globals μ → List Tcb
  | 0, _ => []
  | n + 1, k =>
      match scheduleNextTcb cfg k with
      | some (tcb, k') => tcb :: vaciar cfg n k'
      | none => []

section Scan

/-- The scan, from `resto` on, ends at the first TCB with the smallest priority number. -/
theorem indicePrioritario_spec
    (before after resto : List Tcb) {selected : Tcb} {i : Nat}
    (hi : (before ++ selected :: after).length = i)
    (h : FirstMin Tcb.priority before selected after) :
    ∃ a tcb b, before ++ selected :: after ++ resto = a ++ tcb :: b ∧
      a.length = indicePrioritario selected before.length i resto ∧
      FirstMin Tcb.priority a tcb b := by
  induction resto generalizing before selected after i with
  | nil =>
      exact ⟨before, selected, after, List.append_nil _, rfl, h⟩
  | cons current resto ih =>
      unfold indicePrioritario
      split_ifs with hlt
      · obtain ⟨a, tcb, b, hsplit, hlen, hmin⟩ :=
          ih (before ++ selected :: after) []
            (i := i + 1) (by simp [← hi]; omega) (h.next hlt)
        refine ⟨a, tcb, b, ?_, by rw [hlen, hi], hmin⟩
        rw [← hsplit]
        simp
      · obtain ⟨a, tcb, b, hsplit, hlen, hmin⟩ :=
          ih before (after ++ [current])
            (i := i + 1) (by simp [← hi]; omega) (h.stay (Nat.le_of_not_lt hlt))
        refine ⟨a, tcb, b, ?_, hlen, hmin⟩
        rw [← hsplit]
        simp

/-- The index of the removal is that of the first TCB with the smallest key. -/
theorem indiceElegido_spec
    (alg : SchedulerAlgorithm)
    {l : List Tcb}
    (hl : l ≠ []) :
    ∃ before tcb after, l = before ++ tcb :: after ∧
      before.length = indiceElegido alg l ∧ FirstMin (clave alg) before tcb after := by
  cases l with
  | nil =>
      exact absurd rfl hl
  | cons tcb resto =>
      have hprio : ∃ before t after, tcb :: resto = before ++ t :: after ∧
          before.length = indicePrioritario tcb 0 1 resto ∧
          FirstMin Tcb.priority before t after :=
        indicePrioritario_spec [] [] resto rfl
          ⟨by simp, by simp⟩
      cases alg with
      | fifo =>
          exact ⟨[], tcb, resto, rfl, rfl, by simp, fun _ _ => le_rfl⟩
      | prioridades =>
          exact hprio
      | cmn =>
          exact hprio
      | otro =>
          exact hprio

end Scan

section Removals

variable {cfg : Config μ} {k : Globals μ}

/-- `schedule_next_tcb` removes at that index. -/
theorem scheduleNextTcb_elige
    (halg : cfg.schedulerAlgorithm ≠ .otro)
    {before after : List Tcb} {tcb : Tcb}
    (hsplit : k.listReadyTcb = before ++ tcb :: after)
    (hindice : before.length = indiceElegido cfg.schedulerAlgorithm k.listReadyTcb) :
    ∃ q, scheduleNextTcb cfg k =
      some (tcb, { k with listReadyTcb := before ++ after, semQuantum := q }) := by
  have hget : (before ++ tcb :: after)[before.length]? = some tcb := by
    simp
  have herase : (before ++ tcb :: after).eraseIdx before.length = before ++ after := by
    simp [List.eraseIdx_append_of_length_le]
  have hprio : ∀ a : Globals μ, a.listReadyTcb = k.listReadyTcb →
      (∀ t l, k.listReadyTcb = t :: l → before.length = indicePrioritario t 0 1 l) →
      scheduleNextPriorities a = some (tcb, { a with listReadyTcb := before ++ after }) := by
    intro a ha hi
    unfold scheduleNextPriorities
    cases hl : k.listReadyTcb with
    | nil =>
        rw [hsplit] at hl
        simp at hl
    | cons t l =>
        rw [ha, hl]
        dsimp only
        rw [← hi t l hl, ← hl, hsplit, hget, herase]
        rfl
  unfold scheduleNextTcb
  cases halg' : cfg.schedulerAlgorithm with
  | fifo =>
      refine ⟨k.semQuantum, ?_⟩
      have hvacia : before = [] := by
        rw [← List.length_eq_zero_iff, hindice, halg', hsplit]
        cases before with
        | nil =>
            rfl
        | cons t l =>
            rfl
      subst hvacia
      simp only [scheduleNextFifo, hsplit, List.nil_append]
  | prioridades =>
      refine ⟨k.semQuantum, hprio k rfl ?_⟩
      intro t l hl
      rw [hindice, halg', hl]
      rfl
  | cmn =>
      refine ⟨k.semQuantum + 1, hprio { k with semQuantum := k.semQuantum + 1 } rfl ?_⟩
      intro t l hl
      rw [hindice, halg', hl]
      rfl
  | otro =>
      exact absurd halg' halg

theorem sacaPrimero
    (halg : cfg.schedulerAlgorithm ≠ .otro)
    (k : Globals μ) :
    SacaPrimero cfg k := by
  constructor
  · intro hvacia
    unfold scheduleNextTcb scheduleNextFifo scheduleNextPriorities
    simp only [hvacia]
    split
    · rfl
    · rfl
    · rfl
    · rfl
  · intro hready
    obtain ⟨before, tcb, after, hsplit, hindice, hmin⟩ :=
      indiceElegido_spec cfg.schedulerAlgorithm hready
    obtain ⟨q, hsaca⟩ := scheduleNextTcb_elige halg hsplit hindice
    exact ⟨before, tcb, after, q, hsplit, hmin, hsaca⟩

/-- Calls until READY is empty. -/
theorem vaciar_drains
    (halg : cfg.schedulerAlgorithm ≠ .otro)
    {n : Nat}
    (hn : k.listReadyTcb.length ≤ n) :
    Drains (clave cfg.schedulerAlgorithm) k.listReadyTcb (vaciar cfg n k) := by
  induction n generalizing k with
  | zero =>
      rw [List.length_eq_zero_iff.mp (Nat.le_zero.mp hn)]
      exact Drains.nil
  | succ n ih =>
      by_cases hready : k.listReadyTcb = []
      · unfold vaciar
        rw [(sacaPrimero halg k).vacia hready, hready]
        exact Drains.nil
      · obtain ⟨before, tcb, after, q, hsplit, hmin, hsaca⟩ := (sacaPrimero halg k).primero hready
        have hlen : (before ++ after).length ≤ n := by
          rw [hsplit] at hn
          simp only [List.length_append, List.length_cons] at hn ⊢
          omega
        unfold vaciar
        rw [hsaca, hsplit]
        exact Drains.pop hmin (ih (k := { k with listReadyTcb := before ++ after, semQuantum := q }) hlen)

end Removals

section History

variable {cfg : Config μ} {x y : Llegadas μ} {e : EventoReady}

theorem colaEstable_inicio
    (alg : SchedulerAlgorithm) (k : Globals μ) :
    ColaEstable alg (Llegadas.inicio k) := by
  have hfst : (Llegadas.inicio k).esperan.map Prod.fst = List.range k.listReadyTcb.length :=
    List.map_fst_zip (by simp)
  have hsnd : (Llegadas.inicio k).esperan.map Prod.snd = k.listReadyTcb :=
    List.map_snd_zip (by simp)
  refine ⟨hsnd.symm, ?_, ?_, ?_, ?_, List.Pairwise.nil⟩
  · have hsorted := List.pairwise_lt_range (n := k.listReadyTcb.length)
    rw [← hfst, List.pairwise_map] at hsorted
    exact hsorted
  · intro e he
    have hmem : e.1 ∈ (Llegadas.inicio k).esperan.map Prod.fst := List.mem_map_of_mem he
    rw [hfst] at hmem
    exact List.mem_range.mp hmem
  · intro e he
    cases he
  · intro e he
    cases he

/-- An insertion or a removal keeps the queue. -/
theorem ColaEstable.paso
    (halg : cfg.schedulerAlgorithm ≠ .otro)
    (h : ColaEstable cfg.schedulerAlgorithm x)
    (hstep : pasoReady cfg x e = some y) :
    ColaEstable cfg.schedulerAlgorithm y := by
  cases e with
  | insertar tcb =>
      cases hstep
      refine ⟨?_, h.orden.enqueue tcb⟩
      simp [addTcbToList, h.lista]
  | sacar =>
      by_cases hready : x.kernel.listReadyTcb = []
      · simp only [pasoReady, (sacaPrimero halg x.kernel).vacia hready] at hstep
        cases hstep
        exact h
      · obtain ⟨before, tcb, after, hsplit, hindice, hmin⟩ :=
          indiceElegido_spec cfg.schedulerAlgorithm hready
        obtain ⟨q, hsaca⟩ := scheduleNextTcb_elige halg hsplit hindice
        -- the numbered entries split where READY does
        obtain ⟨a, rest, hesperan, rfl, hrest⟩ :=
          List.map_eq_append_iff.mp (h.lista.symm.trans hsplit)
        obtain ⟨e, b, rfl, rfl, rfl⟩ := List.map_eq_cons_iff.mp hrest
        have horden := h.orden
        rw [hesperan] at horden
        simp only [pasoReady, hsaca, ← hindice, hesperan] at hstep
        cases hstep
        have hget : (a ++ e :: b)[(a.map Prod.snd).length]? = some e := by
          simp
        have herase : (a ++ e :: b).eraseIdx (a.map Prod.snd).length = a ++ b := by
          simp [List.eraseIdx_append_of_length_le]
        rw [hget, herase]
        refine ⟨?_, horden.serve ?_⟩
        · simp
        · exact ⟨fun f hf => hmin.smaller _ (List.mem_map_of_mem hf),
            fun f hf => hmin.least _ (List.mem_map_of_mem hf)⟩

end History

/-- After every sequence of insertions and removals READY is a stable priority queue, under
FIFO with one key for all: a removal takes the first TCB with the smallest key and keeps
the order of the others, nothing is taken out before an earlier entry with its key, and
draining yields the stable sort. -/
theorem ready_is_stable_priority_queue
    {cfg : Config μ}
    (halg : cfg.schedulerAlgorithm ≠ .otro)
    {k : Globals μ} {es : List EventoReady} {x : Llegadas μ}
    (hrun : Run (fun a e b => pasoReady cfg a e = some b) anyLabel (Llegadas.inicio k) es x) :
    ColaEstable cfg.schedulerAlgorithm x ∧
    SacaPrimero cfg x.kernel ∧
    ∀ sort, StableFor (byKey (clave cfg.schedulerAlgorithm)) sort →
      ∀ n, x.kernel.listReadyTcb.length ≤ n →
        vaciar cfg n x.kernel = sort x.kernel.listReadyTcb := by
  refine ⟨?_, sacaPrimero halg x.kernel, ?_⟩
  · exact hrun.invariant (I := ColaEstable cfg.schedulerAlgorithm) (colaEstable_inicio _ k)
      (fun h _ hstep => h.paso halg hstep)
  · intro sort hsort n hn
    exact (vaciar_drains halg hn).eq_sort hsort

/-- A TCB of the first process. -/
def listoConPrioridad (tid priority : Nat) : Tcb where
  dir := tid
  tid := tid
  parentPid := 0
  priority := priority
  state := .ready
  filePath := []

theorem ready_is_stable_priority_queue_cmn :
    ∃ x : Llegadas Unit, Run (fun a e b => pasoReady (siempreOk .cmn) a e = some b) anyLabel
        (Llegadas.inicio (inicial ()))
        [.insertar (listoConPrioridad 0 2), .insertar (listoConPrioridad 1 1),
          .insertar (listoConPrioridad 2 2), .insertar (listoConPrioridad 3 1), .sacar] x ∧
      x.servidos = [(1, listoConPrioridad 1 1)] ∧
      ColaEstable .cmn x ∧
      vaciar (siempreOk .cmn) 3 x.kernel =
        [listoConPrioridad 3 1, listoConPrioridad 0 2, listoConPrioridad 2 2] := by
  have hrun : Run (fun a e b => pasoReady (siempreOk .cmn) a e = some b) anyLabel
      (Llegadas.inicio (inicial ()))
      [.insertar (listoConPrioridad 0 2), .insertar (listoConPrioridad 1 1),
        .insertar (listoConPrioridad 2 2), .insertar (listoConPrioridad 3 1), .sacar] _ :=
    run_of_isSome (pasoReady (siempreOk .cmn)) id (by decide) (by decide)
  obtain ⟨hcola, _, hvaciar⟩ := ready_is_stable_priority_queue (by decide) hrun
  refine ⟨_, hrun, by decide, hcola, ?_⟩
  exact (hvaciar _ stableFor_insertionSortBy 3 (by decide)).trans (by decide)

end Kernel
end SinIdeas
