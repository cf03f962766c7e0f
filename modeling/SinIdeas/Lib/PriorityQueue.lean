import SinIdeas.Lib.StableSort

/-!
# Priority queues kept as lists

A queue is a list in the order of arrival. A removal takes the first element with the
smallest key (`FirstMin`), and leaves the others in their order. Removals until the queue
is empty (`Drains`) yield the stable sort of the list.

With the entries numbered in the order of arrival, `InOrder` says that nothing overtakes:
of two entries with the same key the earlier one is served first.
-/

namespace SinIdeas
namespace Lib

universe u v

section PriorityQueue

variable {α : Type u} {κ : Type v} [LinearOrder κ] {key : α → κ}

/-- In `before ++ x :: after` the first element with the smallest key is `x`. -/
structure FirstMin (key : α → κ) (before : List α) (x : α) (after : List α) : Prop where
  smaller : ∀ y ∈ before, key x < key y
  least : ∀ y ∈ after, key x ≤ key y

/-- Removals until the queue is empty, with the elements in the order of the removals. -/
inductive Drains (key : α → κ) : List α → List α → Prop
  | nil :
      Drains key [] []
  | pop {before after rest : List α} {x : α} :
      FirstMin key before x after →
      Drains key (before ++ after) rest →
      Drains key (before ++ x :: after) (x :: rest)

/-- The key of the element that is removed is a smallest one. -/
theorem FirstMin.le
    {before after : List α} {x y : α}
    (h : FirstMin key before x after)
    (hy : y ∈ before ++ x :: after) :
    key x ≤ key y := by
  rcases List.mem_append.mp hy with hy | hy
  · exact (h.smaller y hy).le
  · rcases List.mem_cons.mp hy with rfl | hy
    · exact le_rfl
    · exact h.least y hy

/-- A smaller element after the list takes its place. -/
theorem FirstMin.next
    {before after : List α} {x y : α}
    (h : FirstMin key before x after)
    (hlt : key y < key x) :
    FirstMin key (before ++ x :: after) y [] := by
  refine ⟨?_, ?_⟩
  · intro z hz
    exact hlt.trans_le (h.le hz)
  · intro z hz
    cases hz

/-- An element after the list that is not smaller does not. -/
theorem FirstMin.stay
    {before after : List α} {x y : α}
    (h : FirstMin key before x after)
    (hle : key x ≤ key y) :
    FirstMin key before x (after ++ [y]) := by
  refine ⟨h.smaller, ?_⟩
  intro z hz
  rcases List.mem_append.mp hz with hz | hz
  · exact h.least z hz
  · rw [List.mem_singleton.mp hz]
    exact hle

/-- Taking out the first smallest element keeps the order in every class of equal keys. -/
theorem FirstMin.filter_tied
    {before after : List α} {x : α}
    (h : FirstMin key before x after)
    (a : α) :
    (before ++ x :: after).filter (tied (byKey key) a) =
      (x :: (before ++ after)).filter (tied (byKey key) a) := by
  by_cases hx : tied (byKey key) a x = true
  · have hnone : before.filter (tied (byKey key) a) = [] := by
      rw [List.filter_eq_nil_iff]
      intro y hy hy'
      rw [tied_byKey] at hx hy'
      have hlt := h.smaller y hy
      rw [← hx, hy'] at hlt
      exact lt_irrefl _ hlt
    simp [List.filter_append, hnone, hx]
  · simp [List.filter_append, hx]

theorem Drains.perm
    {l out : List α}
    (h : Drains key l out) :
    out.Perm l := by
  induction h with
  | nil =>
      exact List.Perm.refl _
  | pop _ _ ih =>
      exact (ih.cons _).trans List.perm_middle.symm

theorem Drains.sorted
    {l out : List α}
    (h : Drains key l out) :
    Sorted key out := by
  induction h with
  | nil =>
      exact List.Pairwise.nil
  | pop hmin hrest ih =>
      refine List.pairwise_cons.mpr ⟨?_, ih⟩
      intro y hy
      have hy := hrest.perm.mem_iff.mp hy
      refine hmin.le ?_
      rcases List.mem_append.mp hy with hy | hy
      · exact List.mem_append_left _ hy
      · exact List.mem_append_right _ (List.mem_cons_of_mem _ hy)

/-- Draining a queue yields its stable sort. -/
theorem Drains.eq_sort
    {sort : List α → List α} {l out : List α}
    (hsort : StableFor (byKey key) sort)
    (h : Drains key l out) :
    out = sort l := by
  refine (hsort.eq_of_sorted h.sorted ?_).symm
  intro a
  induction h with
  | nil =>
      rfl
  | pop hmin _ ih =>
      rw [hmin.filter_tied, List.filter_cons, List.filter_cons, ih]

/-- The entries that wait and those that were served, numbered in the order of arrival:
no entry was served before an earlier one with its key. -/
structure InOrder (key : α → κ) (next : Nat) (waiting served : List (Nat × α)) : Prop where
  arrival : waiting.Pairwise (fun e f => e.1 < f.1)
  numbered : ∀ e ∈ waiting, e.1 < next
  waits : ∀ e ∈ served, ∀ f ∈ waiting, key e.2 = key f.2 → e.1 < f.1
  served_numbered : ∀ e ∈ served, e.1 < next
  served_first : served.Pairwise (fun e f => key e.2 = key f.2 → e.1 < f.1)

section Steps

variable {next : Nat} {waiting served : List (Nat × α)}

omit [LinearOrder κ] in
/-- A new entry waits at the end. -/
theorem InOrder.enqueue
    (h : InOrder key next waiting served)
    (x : α) :
    InOrder key (next + 1) (waiting ++ [(next, x)]) served := by
  refine ⟨?_, ?_, ?_, ?_, h.served_first⟩
  · rw [List.pairwise_append]
    refine ⟨h.arrival, List.pairwise_singleton _ _, ?_⟩
    intro e he f hf
    rw [List.mem_singleton.mp hf]
    exact h.numbered e he
  · intro e he
    rcases List.mem_append.mp he with he | he
    · exact Nat.lt_succ_of_lt (h.numbered e he)
    · rw [List.mem_singleton.mp he]
      exact Nat.lt_succ_self next
  · intro e he f hf hkey
    rcases List.mem_append.mp hf with hf | hf
    · exact h.waits e he f hf hkey
    · rw [List.mem_singleton.mp hf]
      exact h.served_numbered e he
  · intro e he
    exact Nat.lt_succ_of_lt (h.served_numbered e he)

/-- Serving the first entry with the smallest key overtakes nobody. -/
theorem InOrder.serve
    {before after : List (Nat × α)} {e : Nat × α}
    (h : InOrder key next (before ++ e :: after) served)
    (hmin : FirstMin (fun f => key f.2) before e after) :
    InOrder key next (before ++ after) (served ++ [e]) := by
  have hsub : (before ++ after).Sublist (before ++ e :: after) :=
    (List.sublist_cons_self e after).append_left before
  have hmem : e ∈ before ++ e :: after := List.mem_append_right _ List.mem_cons_self
  refine ⟨h.arrival.sublist hsub, fun f hf => h.numbered f (hsub.subset hf), ?_, ?_, ?_⟩
  · intro f hf g hg hkey
    rcases List.mem_append.mp hf with hf | hf
    · exact h.waits f hf g (hsub.subset hg) hkey
    · rw [List.mem_singleton.mp hf] at hkey ⊢
      rcases List.mem_append.mp hg with hg | hg
      · exact absurd hkey (ne_of_lt (hmin.smaller g hg))
      · have harrival := (List.pairwise_append.mp h.arrival).2.1
        exact (List.pairwise_cons.mp harrival).1 g hg
  · intro f hf
    rcases List.mem_append.mp hf with hf | hf
    · exact h.served_numbered f hf
    · rw [List.mem_singleton.mp hf]
      exact h.numbered e hmem
  · rw [List.pairwise_append]
    refine ⟨h.served_first, List.pairwise_singleton _ _, ?_⟩
    intro f hf g hg hkey
    rw [List.mem_singleton.mp hg] at hkey ⊢
    exact h.waits f hf e hmem hkey

end Steps

end PriorityQueue

end Lib
end SinIdeas
