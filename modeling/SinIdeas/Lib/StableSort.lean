import Mathlib.Data.List.Induction
import Mathlib.Order.Lattice

/-!
# Stable sorts by a key

`StableFor lt sort` is the contract of a stable sorting routine for the strict
comparator `lt`: the result is a permutation of the input, no element is
followed by a smaller one, and elements that the comparator does not
distinguish keep their order.

For a comparator that compares a key in a linear order the contract fixes the
result. Two consequences are used: a sorted list is left alone, and a sorted
list with one element added at the end becomes the list with that element
inserted after everything that is not larger.
-/

namespace SinIdeas
namespace Lib

universe u v

section StableSort

variable {α : Type u} {κ : Type v}

/-- The comparator does not distinguish `a` from `b`. -/
def tied (lt : α → α → Bool) (a b : α) : Bool := !lt a b && !lt b a

/-- The contract of a stable sorting routine for the strict comparator `lt`. -/
structure StableFor
    (lt : α → α → Bool)
    (sort : List α → List α) : Prop where
  perm : ∀ l, (sort l).Perm l
  sorted : ∀ l, (sort l).Pairwise (fun a b => lt b a = false)
  stable : ∀ l a, (sort l).filter (tied lt a) = l.filter (tied lt a)

variable [LinearOrder κ] (key : α → κ)

/-- The strict comparator of a key. -/
def byKey (a b : α) : Bool := decide (key a < key b)

/-- Sorted by the key. -/
def Sorted (l : List α) : Prop := l.Pairwise (fun a b => key a ≤ key b)

variable {key}

@[simp] theorem byKey_eq_false {a b : α} :
    byKey key a b = false ↔ key b ≤ key a := by
  simp [byKey]

@[simp] theorem tied_byKey {a b : α} :
    tied (byKey key) a b = true ↔ key a = key b := by
  rw [tied, Bool.and_eq_true, Bool.not_eq_true', Bool.not_eq_true', byKey_eq_false,
    byKey_eq_false]
  exact ⟨fun h => le_antisymm h.2 h.1, fun h => ⟨h.ge, h.le⟩⟩

/-- Two sorted lists that agree on every class of equal keys are equal. -/
theorem Sorted.eq_of_classes
    {l m : List α}
    (hl : Sorted key l)
    (hm : Sorted key m)
    (hclass : ∀ a, l.filter (tied (byKey key) a) = m.filter (tied (byKey key) a)) :
    l = m := by
  have hmem : ∀ x, x ∈ l ↔ x ∈ m := by
    intro x
    have hx := congrArg (x ∈ ·) (hclass x)
    simpa [List.mem_filter] using hx
  induction l generalizing m with
  | nil =>
      cases m with
      | nil => rfl
      | cons b m =>
          simpa using hmem b
  | cons a l ih =>
      cases m with
      | nil =>
          simpa using hmem a
      | cons b m =>
          have hab : key a = key b := by
            have hale : key a ≤ key b := by
              rcases List.mem_cons.mp ((hmem b).mpr (by simp)) with h | h
              · rw [h]
              · exact (List.pairwise_cons.mp hl).1 b h
            have hble : key b ≤ key a := by
              rcases List.mem_cons.mp ((hmem a).mp (by simp)) with h | h
              · rw [h]
              · exact (List.pairwise_cons.mp hm).1 a h
            exact le_antisymm hale hble
          have hhead := hclass a
          simp only [List.filter_cons, tied_byKey.mpr rfl, tied_byKey.mpr hab, if_true,
            List.cons.injEq] at hhead
          obtain ⟨rfl, _⟩ := hhead
          have htail : ∀ c, l.filter (tied (byKey key) c) = m.filter (tied (byKey key) c) := by
            intro c
            have hc := hclass c
            simp only [List.filter_cons] at hc
            split_ifs at hc
            · exact (List.cons.inj hc).2
            · exact hc
          have hmem' : ∀ x, x ∈ l ↔ x ∈ m := by
            intro x
            have hx := congrArg (x ∈ ·) (htail x)
            simpa [List.mem_filter] using hx
          rw [ih (List.pairwise_cons.mp hl).2 (List.pairwise_cons.mp hm).2 htail hmem']

variable (key)

/-- Insert `x` after every element whose key is not larger. -/
def insertAfter (x : α) : List α → List α
  | [] => [x]
  | y :: l => if key x < key y then x :: y :: l else y :: insertAfter x l

/-- Insertion sort from the left. -/
def insertionSortBy (l : List α) : List α :=
  l.foldl (fun sorted x => insertAfter key x sorted) []

variable {key}

theorem insertAfter_perm (x : α) (l : List α) :
    (insertAfter key x l).Perm (x :: l) := by
  induction l with
  | nil =>
      exact List.Perm.refl _
  | cons y l ih =>
      unfold insertAfter
      split_ifs
      · exact List.Perm.refl _
      · exact (ih.cons y).trans (List.Perm.swap x y l)

@[simp] theorem mem_insertAfter {x a : α} {l : List α} :
    a ∈ insertAfter key x l ↔ a = x ∨ a ∈ l := by
  rw [(insertAfter_perm x l).mem_iff, List.mem_cons]

/-- The place of `x` between the elements that are not larger and the rest. -/
theorem insertAfter_append
    {x : α} {l m : List α}
    (hl : ∀ y ∈ l, key y ≤ key x)
    (hm : ∀ y ∈ m, key x < key y) :
    insertAfter key x (l ++ m) = l ++ x :: m := by
  induction l with
  | nil =>
      cases m with
      | nil => rfl
      | cons y m => simp [insertAfter, hm y (by simp)]
  | cons y l ih =>
      have hy : ¬ key x < key y := not_lt.mpr (hl y (by simp))
      rw [List.cons_append, insertAfter, if_neg hy,
        ih (fun z hz => hl z (List.mem_cons_of_mem y hz))]
      rfl

/-- What was inserted is taken out again by a condition that it alone satisfies. -/
theorem eraseP_insertAfter
    {p : α → Bool} {x : α} {l : List α}
    (hx : p x = true)
    (hl : ∀ y ∈ l, ¬ p y = true) :
    (insertAfter key x l).eraseP p = l := by
  induction l with
  | nil =>
      simp [insertAfter, hx]
  | cons y l ih =>
      unfold insertAfter
      split_ifs
      · rw [List.eraseP_cons_of_pos hx]
      · rw [List.eraseP_cons_of_neg (hl y (by simp)), ih (fun z hz => hl z (by simp [hz]))]

theorem Sorted.insertAfter
    {x : α} {l : List α}
    (hl : Sorted key l) :
    Sorted key (insertAfter key x l) := by
  induction l with
  | nil =>
      simp [Lib.insertAfter, Sorted]
  | cons y l ih =>
      obtain ⟨hy, hrest⟩ := List.pairwise_cons.mp hl
      unfold Lib.insertAfter
      split_ifs with hlt
      · refine List.pairwise_cons.mpr ⟨?_, hl⟩
        intro z hz
        rcases List.mem_cons.mp hz with rfl | hz
        · exact hlt.le
        · exact hlt.le.trans (hy z hz)
      · refine List.pairwise_cons.mpr ⟨?_, ih hrest⟩
        intro z hz
        rcases mem_insertAfter.mp hz with rfl | hz
        · exact not_lt.mp hlt
        · exact hy z hz

/-- In a sorted list, insertion puts `x` last in its own class. -/
theorem Sorted.filter_insertAfter
    {x : α} {l : List α}
    (hl : Sorted key l)
    (a : α) :
    (Lib.insertAfter key x l).filter (tied (byKey key) a) =
      (l ++ [x]).filter (tied (byKey key) a) := by
  induction l with
  | nil =>
      rfl
  | cons y l ih =>
      obtain ⟨hy, hrest⟩ := List.pairwise_cons.mp hl
      unfold Lib.insertAfter
      split_ifs with hlt
      · by_cases hx : tied (byKey key) a x = true
        · -- the class of `x` has no element from `y` on
          have hnone : (y :: l).filter (tied (byKey key) a) = [] := by
            rw [List.filter_eq_nil_iff]
            intro z hz hz'
            rw [tied_byKey] at hx hz'
            rcases List.mem_cons.mp hz with rfl | hz
            · rw [← hz', hx] at hlt
              exact lt_irrefl _ hlt
            · have hlt' := hlt.trans_le (hy z hz)
              rw [← hz', hx] at hlt'
              exact lt_irrefl _ hlt'
          rw [List.filter_append, hnone, List.filter_cons, if_pos hx, hnone]
          simp [hx]
        · rw [List.filter_append, List.filter_cons, if_neg hx]
          simp [hx]
      · rw [List.cons_append, List.filter_cons, List.filter_cons, ih hrest]

theorem insertionSortBy_append (l : List α) (x : α) :
    insertionSortBy key (l ++ [x]) = insertAfter key x (insertionSortBy key l) := by
  simp [insertionSortBy]

theorem sorted_insertionSortBy (l : List α) :
    Sorted key (insertionSortBy key l) := by
  induction l using List.reverseRecOn with
  | nil =>
      exact List.Pairwise.nil
  | append_singleton l x ih =>
      rw [insertionSortBy_append]
      exact ih.insertAfter

/-- Insertion sort from the left is a stable sort. -/
theorem stableFor_insertionSortBy :
    StableFor (byKey key) (insertionSortBy key) where
  perm l := by
    induction l using List.reverseRecOn with
    | nil =>
        exact List.Perm.refl _
    | append_singleton l x ih =>
        rw [insertionSortBy_append]
        exact (insertAfter_perm x _).trans
          ((ih.cons x).trans (List.perm_append_singleton x l).symm)
  sorted l := by
    have hsorted : Sorted key (insertionSortBy key l) := sorted_insertionSortBy l
    simpa [Sorted] using hsorted
  stable l a := by
    induction l using List.reverseRecOn with
    | nil =>
        rfl
    | append_singleton l x ih =>
        rw [insertionSortBy_append, (sorted_insertionSortBy l).filter_insertAfter,
          List.filter_append, List.filter_append, ih]

section Contract

variable {sort : List α → List α} (hsort : StableFor (byKey key) sort)
include hsort

theorem StableFor.sorted_byKey (l : List α) : Sorted key (sort l) := by
  simpa [Sorted] using hsort.sorted l

/-- The contract determines the result. -/
theorem StableFor.eq_of_sorted
    {l m : List α}
    (hm : Sorted key m)
    (hclass : ∀ a, m.filter (tied (byKey key) a) = l.filter (tied (byKey key) a)) :
    sort l = m :=
  (hsort.sorted_byKey l).eq_of_classes hm
    (fun a => (hsort.stable l a).trans (hclass a).symm)

/-- A sorted list is left alone. -/
theorem StableFor.sort_of_sorted
    {l : List α}
    (hl : Sorted key l) :
    sort l = l :=
  hsort.eq_of_sorted hl (fun _ => rfl)

/-- One element added at the end of a sorted list moves to its place. -/
theorem StableFor.sort_append_singleton
    {l : List α} {x : α}
    (hl : Sorted key l) :
    sort (l ++ [x]) = insertAfter key x l :=
  hsort.eq_of_sorted hl.insertAfter (fun a => hl.filter_insertAfter a)

end Contract

end StableSort

end Lib
end SinIdeas
