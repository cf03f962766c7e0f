import SinIdeas.Kernel.Structs

/-!
# Lists of TCBs

The operations of `tcb_lists.c`. A TCB is looked up by PID and TID; the first
one found counts.
-/

namespace SinIdeas
namespace Kernel

variable {μ : Type}

/-- `pid_tid_condition`. -/
def Tcb.es (pid tid : Nat) (t : Tcb) : Bool := t.parentPid == pid && t.tid == tid

/-- `add_tcb_to_list`. -/
def addTcbToList (list : List Tcb) (tcb : Tcb) : List Tcb := list ++ [tcb]

/-- `find_tcb_in_list`. -/
def findTcbInList (list : List Tcb) (pid tid : Nat) : Option Tcb := list.find? (Tcb.es pid tid)

/-- `remove_tcb_from_list`: the TCB and the list without it. -/
def removeTcbFromList (list : List Tcb) (pid tid : Nat) : Option Tcb × List Tcb :=
  (list.find? (Tcb.es pid tid), list.eraseP (Tcb.es pid tid))

/-- `move_tcb_between_lists`: the source and the destination after it. -/
def moveTcbBetweenLists (src dest : List Tcb) (pid tid : Nat) (newState : State) :
    List Tcb × List Tcb :=
  match removeTcbFromList src pid tid with
  | (some tcb, src') => (src', addTcbToList dest { tcb with state := newState })
  | (none, _) => (src, dest)

/-- `find_tcb_from_tid`: BLOCKED first, then READY. -/
def findTcbFromTid (k : Globals μ) (tid ppid : Nat) : Option Tcb :=
  match findTcbInList k.listBlockedTcb ppid tid with
  | some tcb => some tcb
  | none => findTcbInList k.listReadyTcb ppid tid

/-- Moving a TCB from BLOCKED to READY by its identifiers. -/
def desbloquear (k : Globals μ) (pid tid : Nat) : Globals μ :=
  let movida := moveTcbBetweenLists k.listBlockedTcb k.listReadyTcb pid tid .ready
  { k with listBlockedTcb := movida.1, listReadyTcb := movida.2 }

/-- `sem_post(&sem_thread_count)`. -/
def postThreadCount (k : Globals μ) : Globals μ :=
  { k with semThreadCount := k.semThreadCount + 1 }

@[simp] theorem Tcb.es_iff {pid tid : Nat} {t : Tcb} :
    t.es pid tid = true ↔ t.parentPid = pid ∧ t.tid = tid := by
  simp [Tcb.es]

/-- A removal takes the first TCB that is found, or changes nothing. -/
theorem removeTcbFromList_cases
    (list : List Tcb) (pid tid : Nat) :
    (∃ l t m, list = l ++ t :: m ∧ t.parentPid = pid ∧ t.tid = tid ∧
      (∀ u ∈ l, ¬ (u.parentPid = pid ∧ u.tid = tid)) ∧
      removeTcbFromList list pid tid = (some t, l ++ m)) ∨
    ((∀ t ∈ list, ¬ (t.parentPid = pid ∧ t.tid = tid)) ∧
      removeTcbFromList list pid tid = (none, list)) := by
  cases hfind : list.find? (Tcb.es pid tid) with
  | none =>
      have hno : ∀ t ∈ list, ¬ t.es pid tid = true := List.find?_eq_none.mp hfind
      refine Or.inr ⟨fun t ht hes => hno t ht (Tcb.es_iff.mpr hes), ?_⟩
      rw [removeTcbFromList, hfind, List.eraseP_of_forall_not hno]
  | some t =>
      obtain ⟨hes, l, m, hsplit, hbefore⟩ := List.find?_eq_some_iff_append.mp hfind
      have hno : ∀ u ∈ l, ¬ u.es pid tid = true := by
        intro u hu hu'
        have hbad := hbefore u hu
        rw [hu'] at hbad
        exact absurd hbad (by decide)
      refine Or.inl ⟨l, t, m, hsplit, (Tcb.es_iff.mp hes).1, (Tcb.es_iff.mp hes).2, ?_, ?_⟩
      · exact fun u hu hu' => hno u hu (Tcb.es_iff.mpr hu')
      · rw [removeTcbFromList, hfind, hsplit, List.eraseP_append_right _ hno,
          List.eraseP_cons_of_pos hes]

/-- A move takes the first TCB that is found, or changes nothing. -/
theorem moveTcbBetweenLists_cases
    (src dest : List Tcb) (pid tid : Nat) (newState : State) :
    (∃ l t m, src = l ++ t :: m ∧ t.parentPid = pid ∧ t.tid = tid ∧
      (∀ u ∈ l, ¬ (u.parentPid = pid ∧ u.tid = tid)) ∧
      src.find? (Tcb.es pid tid) = some t ∧
      moveTcbBetweenLists src dest pid tid newState =
        (l ++ m, dest ++ [{ t with state := newState }])) ∨
    ((∀ t ∈ src, ¬ (t.parentPid = pid ∧ t.tid = tid)) ∧
      moveTcbBetweenLists src dest pid tid newState = (src, dest)) := by
  rcases removeTcbFromList_cases src pid tid with
    ⟨l, t, m, hsplit, hpid, htid, hbefore, hremove⟩ | ⟨hnone, hremove⟩
  · refine Or.inl ⟨l, t, m, hsplit, hpid, htid, hbefore, congrArg Prod.fst hremove, ?_⟩
    rw [moveTcbBetweenLists, hremove]
    rfl
  · refine Or.inr ⟨hnone, ?_⟩
    rw [moveTcbBetweenLists, hremove]

/-- A TCB found by `find_tcb_from_tid` has the identifiers and is in one of the lists. -/
theorem findTcbFromTid_some
    {k : Globals μ} {tid ppid : Nat} {t : Tcb}
    (h : findTcbFromTid k tid ppid = some t) :
    t.parentPid = ppid ∧ t.tid = tid ∧ (t ∈ k.listBlockedTcb ∨ t ∈ k.listReadyTcb) := by
  unfold findTcbFromTid findTcbInList at h
  split at h
  · rename_i u hfind
    cases h
    have hes := Tcb.es_iff.mp (List.find?_some hfind)
    exact ⟨hes.1, hes.2, Or.inl (List.mem_of_find?_eq_some hfind)⟩
  · have hes := Tcb.es_iff.mp (List.find?_some h)
    exact ⟨hes.1, hes.2, Or.inr (List.mem_of_find?_eq_some h)⟩

/-- `k'` differs from `k` only in what waking threads changes: READY, BLOCKED, the
semaphore, the joins and the mutexes. -/
def Despierta (k k' : Globals μ) : Prop :=
  k' = { k with
    listReadyTcb := k'.listReadyTcb
    listBlockedTcb := k'.listBlockedTcb
    semThreadCount := k'.semThreadCount
    listTcbJoins := k'.listTcbJoins
    globalMutexes := k'.globalMutexes }

theorem Despierta.refl (k : Globals μ) : Despierta k k := rfl

theorem Despierta.trans
    {k k' k'' : Globals μ}
    (h₁ : Despierta k k')
    (h₂ : Despierta k' k'') :
    Despierta k k'' := by
  unfold Despierta at h₂
  rw [h₁] at h₂
  exact h₂

end Kernel
end SinIdeas
