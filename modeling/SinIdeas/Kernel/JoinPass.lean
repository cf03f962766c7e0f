import SinIdeas.Kernel.Vista

/-!
# Waking the joiners of a thread

`unlock_tcb_joins` walks the join list by index and removes the joins on the thread
while it walks, moving one thread from BLOCKED to READY for each of them. What one
call does to the join list, READY, BLOCKED and the semaphore is said at once.
-/

namespace SinIdeas
namespace Kernel

open Lib

variable {μ : Type}

/-- `j` is a join on the thread `t`, the test of the loop. -/
def TcbJoin.EsDe (t : Tcb) (j : TcbJoin) : Prop :=
  j.blockingTcb.tid = t.tid ∧ j.blockingTcb.parentPid = t.parentPid

instance (t : Tcb) (j : TcbJoin) : Decidable (j.EsDe t) :=
  inferInstanceAs (Decidable (_ ∧ _))

/-- The loop of `unlock_tcb_joins` at the index `i`; the size is read again in every
turn, and the index stays where a join was removed. -/
def unlockTcbJoinsLoop (t : Tcb) (i : Nat) (k : Globals μ) : Globals μ :=
  if h : i < k.listTcbJoins.length then
    let join := k.listTcbJoins[i]
    if join.EsDe t then
      let k' := postThreadCount (desbloquear k join.blockedTcb.parentPid join.blockedTcb.tid)
      unlockTcbJoinsLoop t i { k' with listTcbJoins := k'.listTcbJoins.eraseIdx i }
    else
      unlockTcbJoinsLoop t (i + 1) k
  else
    k
termination_by k.listTcbJoins.length - i
decreasing_by
  · have hlength : (k.listTcbJoins.eraseIdx i).length = k.listTcbJoins.length - 1 :=
      List.length_eraseIdx_of_lt h
    show (k.listTcbJoins.eraseIdx i).length - i < k.listTcbJoins.length - i
    omega
  · omega

/-- The joins on the thread `t`, in the order of the list. -/
def joinsDe (t : Tcb) (k : Globals μ) : List TcbJoin :=
  k.listTcbJoins.filter (fun j => j.EsDe t)

/-- The threads `hilos` are the ones of BLOCKED that the joins wait with, in order. -/
def Esperan (k : Globals μ) (joins : List TcbJoin) (hilos : List Tcb) : Prop :=
  List.Forall₂ (fun j t => t ∈ k.listBlockedTcb ∧ t.ident = j.blockedTcb.ident) joins hilos

/-- The state in which the threads `hilos` have been woken and the join list is `joins`. -/
def conDespiertos (k : Globals μ) (joins : List TcbJoin) (hilos : List Tcb) : Globals μ :=
  { k with
    listTcbJoins := joins
    listReadyTcb := k.listReadyTcb ++ hilos.map (fun t => { t with state := .ready })
    listBlockedTcb := k.listBlockedTcb.filter (fun t => t.ident ∉ hilos.map Tcb.ident)
    semThreadCount := k.semThreadCount + hilos.length }

section OnePass

variable {k : Globals μ} {t : Tcb} {j : TcbJoin} {visitados js : List TcbJoin}

/-- A join on the thread: its thread is woken and the join removed. -/
theorem unlockTcbJoinsFrom_pos
    (h : j.EsDe t) :
    unlockTcbJoinsFrom t.parentPid t.tid visitados (j :: js) k =
      unlockTcbJoinsFrom t.parentPid t.tid visitados js
        { postThreadCount (desbloquear k j.blockedTcb.parentPid j.blockedTcb.tid) with
          listTcbJoins := visitados ++ js } := by
  rw [unlockTcbJoinsFrom]
  exact if_pos h

theorem unlockTcbJoinsFrom_neg
    (h : ¬ j.EsDe t) :
    unlockTcbJoinsFrom t.parentPid t.tid visitados (j :: js) k =
      unlockTcbJoinsFrom t.parentPid t.tid (visitados ++ [j]) js k := by
  rw [unlockTcbJoinsFrom]
  exact if_neg h

/-- The loop by index goes through the list as the loop over its elements does. -/
theorem unlockTcbJoinsLoop_eq
    (hk : k.listTcbJoins = visitados ++ js) :
    unlockTcbJoinsLoop t visitados.length k =
      unlockTcbJoinsFrom t.parentPid t.tid visitados js k := by
  induction js generalizing visitados k with
  | nil =>
      rw [unlockTcbJoinsLoop, dif_neg (by simp [hk])]
      rfl
  | cons j js ih =>
      have hlt : visitados.length < k.listTcbJoins.length := by
        simp [hk]
      have hget : k.listTcbJoins[visitados.length] = j := by
        simp [hk]
      have herase : k.listTcbJoins.eraseIdx visitados.length = visitados ++ js := by
        rw [hk, List.eraseIdx_append_of_length_le (le_refl _), Nat.sub_self, List.eraseIdx_cons_zero]
      rw [unlockTcbJoinsLoop, dif_pos hlt]
      simp only [hget]
      by_cases hmatch : j.EsDe t
      · have hjoins : (postThreadCount (desbloquear k j.blockedTcb.parentPid
            j.blockedTcb.tid)).listTcbJoins.eraseIdx visitados.length = visitados ++ js := herase
        rw [if_pos hmatch, unlockTcbJoinsFrom_pos hmatch, hjoins]
        exact ih rfl
      · rw [if_neg hmatch, unlockTcbJoinsFrom_neg hmatch]
        have hsplit : k.listTcbJoins = (visitados ++ [j]) ++ js := by
          rw [hk, List.append_assoc]
          rfl
        have hnext := ih hsplit
        rwa [List.length_append, List.length_singleton] at hnext

theorem Tcb.es_ident
    (pid tid : Nat) :
    Tcb.es pid tid = fun t => t.ident == (pid, tid) := by
  funext t
  rw [Bool.eq_iff_iff, Tcb.es_iff, beq_iff_eq, Tcb.ident_eq]

/-- Waking a thread that occurs once in BLOCKED. -/
theorem desbloquear_of_count_eq_one
    {blocked : Tcb}
    (h : (k.listBlockedTcb.map Tcb.ident).count blocked.ident = 1) :
    ∃ u ∈ k.listBlockedTcb, u.ident = blocked.ident ∧
      desbloquear k blocked.parentPid blocked.tid =
        { k with
          listReadyTcb := k.listReadyTcb ++ [{ u with state := .ready }]
          listBlockedTcb := k.listBlockedTcb.filter (fun x => x.ident ≠ blocked.ident) } := by
  obtain ⟨u, hu, hident, hfind, herase⟩ := find?_eraseP_of_count_eq_one h
  have hremove : removeTcbFromList k.listBlockedTcb blocked.parentPid blocked.tid =
      (some u, k.listBlockedTcb.filter (fun x => x.ident ≠ blocked.ident)) := by
    rw [removeTcbFromList, Tcb.es_ident]
    exact Prod.ext hfind herase
  refine ⟨u, hu, hident, ?_⟩
  simp only [desbloquear, moveTcbBetweenLists, hremove, addTcbToList]

/-- What the loop does from a join on, when the threads of the joins that are left are
different and each occurs once in BLOCKED. -/
theorem unlockTcbJoinsFrom_despiertos
    (hk : k.listTcbJoins = visitados ++ js)
    (hdistintos : ((js.filter (fun j => j.EsDe t)).map (fun j => j.blockedTcb.ident)).Nodup)
    (hunicos : ∀ j ∈ js.filter (fun j => j.EsDe t),
      (k.listBlockedTcb.map Tcb.ident).count j.blockedTcb.ident = 1) :
    ∃ hilos, Esperan k (js.filter (fun j => j.EsDe t)) hilos ∧
      unlockTcbJoinsFrom t.parentPid t.tid visitados js k =
        conDespiertos k (visitados ++ js.filter (fun j => ¬ j.EsDe t)) hilos := by
  induction js generalizing visitados k with
  | nil =>
      refine ⟨[], List.Forall₂.nil, ?_⟩
      have hjoins : k.listTcbJoins = visitados := by
        rw [hk, List.append_nil]
      simp [unlockTcbJoinsFrom, conDespiertos, ← hjoins]
  | cons j js ih =>
      by_cases hmatch : j.EsDe t
      · have hsplit : (j :: js).filter (fun j => j.EsDe t) = j :: js.filter (fun j => j.EsDe t) :=
          List.filter_cons_of_pos (by simpa using hmatch)
        have hresto : (j :: js).filter (fun j => ¬ j.EsDe t) = js.filter (fun j => ¬ j.EsDe t) :=
          List.filter_cons_of_neg (by simpa using hmatch)
        rw [hsplit] at hdistintos hunicos ⊢
        rw [List.map_cons, List.nodup_cons] at hdistintos
        obtain ⟨u, hu, hident, hdesbloquear⟩ :=
          desbloquear_of_count_eq_one (hunicos j List.mem_cons_self)
        rw [unlockTcbJoinsFrom_pos hmatch, hdesbloquear]
        -- the thread that was woken is not one of those that are left
        obtain ⟨hilos, hesperan, hrest⟩ := ih
          (k := { postThreadCount { k with
              listReadyTcb := k.listReadyTcb ++ [{ u with state := .ready }]
              listBlockedTcb := k.listBlockedTcb.filter
                (fun x => x.ident ≠ j.blockedTcb.ident) } with
            listTcbJoins := visitados ++ js })
          rfl hdistintos.2 (fun i hi => by
            have hne : i.blockedTcb.ident ≠ j.blockedTcb.ident := by
              intro heq
              exact hdistintos.1 (List.mem_map.mpr ⟨i, hi, heq⟩)
            exact (count_map_filter_key_ne hne).trans (hunicos i (List.mem_cons_of_mem j hi)))
        refine ⟨u :: hilos, List.Forall₂.cons ⟨hu, hident⟩ ?_, ?_⟩
        · exact hesperan.imp (fun _ _ h => ⟨List.mem_of_mem_filter h.1, h.2⟩)
        · rw [hrest, hresto]
          simp only [conDespiertos, postThreadCount, List.filter_filter, List.map_cons,
            List.length_cons, List.append_assoc, List.singleton_append, hident, List.mem_cons,
            not_or]
          congr 1
          · exact List.filter_congr (fun x _ => by
              rw [Bool.eq_iff_iff]
              simp only [Bool.and_eq_true, decide_eq_true_eq]
              exact and_comm)
          · omega
      · have hsplit : (j :: js).filter (fun j => j.EsDe t) = js.filter (fun j => j.EsDe t) :=
          List.filter_cons_of_neg (by simpa using hmatch)
        have hresto : (j :: js).filter (fun j => ¬ j.EsDe t) =
            j :: js.filter (fun j => ¬ j.EsDe t) :=
          List.filter_cons_of_pos (by simpa using hmatch)
        rw [hsplit] at hdistintos hunicos ⊢
        have hnext : k.listTcbJoins = (visitados ++ [j]) ++ js := by
          rw [hk, List.append_assoc]
          rfl
        obtain ⟨hilos, hesperan, hrest⟩ := ih hnext hdistintos hunicos
        refine ⟨hilos, hesperan, ?_⟩
        rw [unlockTcbJoinsFrom_neg hmatch, hrest, hresto, List.append_assoc]
        rfl

end OnePass

/-- One call wakes every thread that has joined the finished one: when their threads are
different and each occurs once in BLOCKED, the joins on the thread are gone and the
others stay in order, READY has the threads at its end in the order of the joins, BLOCKED
is without them, the semaphore has grown by their number, and nothing else changes. -/
theorem one_pass_wakes_every_joiner
    (t : Tcb) (k : Globals μ)
    (hdistintos : ((joinsDe t k).map (fun j => j.blockedTcb.ident)).Nodup)
    (hunicos : ∀ j ∈ joinsDe t k,
      (k.listBlockedTcb.map Tcb.ident).count j.blockedTcb.ident = 1) :
    unlockTcbJoins t.parentPid t.tid k = unlockTcbJoinsLoop t 0 k ∧
      ∃ hilos, Esperan k (joinsDe t k) hilos ∧
        unlockTcbJoins t.parentPid t.tid k =
          conDespiertos k (k.listTcbJoins.filter (fun j => ¬ j.EsDe t)) hilos := by
  constructor
  · have hloop := unlockTcbJoinsLoop_eq (t := t) (List.nil_append k.listTcbJoins).symm
    exact hloop.symm
  · exact unlockTcbJoinsFrom_despiertos (List.nil_append k.listTcbJoins).symm hdistintos hunicos

/-- The threads 1, 2 and 3 of the process 0 in the join list: 1 and 3 wait for the thread
0, and 2 waits for 1. -/
def tresJoins : Globals Unit :=
  let hilo (tid : Nat) : Tcb :=
    { dir := tid, tid, parentPid := 0, priority := 0, state := .blocked, filePath := [] }
  addTcbJoin (hilo 3) (hilo 0) (addTcbJoin (hilo 2) (hilo 1)
    (addTcbJoin (hilo 1) (hilo 0) (inicial ())))

theorem one_pass_wakes_every_joiner_tresJoins :
    let t : Tcb :=
      { dir := 0, tid := 0, parentPid := 0, priority := 0, state := .exit, filePath := [] }
    unlockTcbJoins 0 0 tresJoins = unlockTcbJoinsLoop t 0 tresJoins ∧
      ∃ hilos, Esperan tresJoins (joinsDe t tresJoins) hilos ∧
        unlockTcbJoins 0 0 tresJoins =
          conDespiertos tresJoins (tresJoins.listTcbJoins.filter (fun j => ¬ j.EsDe t)) hilos :=
  one_pass_wakes_every_joiner
    { dir := 0, tid := 0, parentPid := 0, priority := 0, state := .exit, filePath := [] }
    tresJoins (by decide) (by decide)

end Kernel
end SinIdeas
