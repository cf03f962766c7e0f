import Mathlib.Order.Lattice
import Mathlib.Data.List.Basic

/-!
# Searches that keep the best element so far

`optimumLoop` goes over a list with a bound and an index, and replaces both at every
accepted element whose key is below the bound. It ends with the first of the least
accepted elements, if one of them is below the initial bound, and otherwise with the
index it had. The bound is therefore part of the result: an element that only reaches
it is never found.
-/

namespace SinIdeas
namespace Lib

universe u v

variable {α : Type u} {κ : Type v} [LinearOrder κ]

/-- The loop, from the element with index `i`. -/
def optimumLoop (key : α → κ) (accept : α → Bool) : List α → Nat → κ → Option Nat → Option Nat
  | [], _, _, index => index
  | x :: l, i, bound, index =>
      if accept x && decide (key x < bound) then
        optimumLoop key accept l (i + 1) (key x) (some i)
      else
        optimumLoop key accept l (i + 1) bound index

/-- The element `x` at index `i` is the first of the least accepted elements. -/
structure FirstOptimum (key : α → κ) (accept : α → Bool) (l : List α) (i : Nat) (x : α) :
    Prop where
  get : l[i]? = some x
  accepted : accept x = true
  least : ∀ y ∈ l, accept y = true → key x ≤ key y
  first : ∀ (j : Nat) (y : α), j < i → l[j]? = some y → accept y = true → key x < key y

section Rules

variable {key : α → κ} {accept : α → Bool} {l : List α} {x y : α} {i : Nat} {bound : κ}
  {index : Option Nat}

/-- An accepted element before others that are not below it. -/
theorem FirstOptimum.head
    (hx : accept x = true)
    (hl : ∀ y ∈ l, accept y = true → key x ≤ key y) :
    FirstOptimum key accept (x :: l) 0 x where
  get := rfl
  accepted := hx
  least y hy hacc := by
    rcases List.mem_cons.mp hy with rfl | hy
    · exact le_rfl
    · exact hl y hy hacc
  first j y hj := absurd hj (Nat.not_lt_zero j)

/-- An element that is not accepted, or is above the optimum of the rest. -/
theorem FirstOptimum.tail
    (h : FirstOptimum key accept l i y)
    (hx : accept x = true → key y < key x) :
    FirstOptimum key accept (x :: l) (i + 1) y where
  get := h.get
  accepted := h.accepted
  least z hz hacc := by
    rcases List.mem_cons.mp hz with rfl | hz
    · exact (hx hacc).le
    · exact h.least z hz hacc
  first j z hj hget hacc := by
    cases j with
    | zero =>
        cases hget
        exact hx hacc
    | succ j =>
        exact h.first j z (Nat.lt_of_succ_lt_succ hj) hget hacc

/-- The loop ends with its first index when nothing accepted is below the bound, and
with the first optimum otherwise. -/
theorem optimumLoop_cases
    (key : α → κ) (accept : α → Bool) (l : List α) (i : Nat) (bound : κ)
    (index : Option Nat) :
    (optimumLoop key accept l i bound index = index ∧
      ∀ y ∈ l, accept y = true → bound ≤ key y) ∨
    ∃ j x, optimumLoop key accept l i bound index = some (i + j) ∧ key x < bound ∧
      FirstOptimum key accept l j x := by
  induction l generalizing i bound index with
  | nil =>
      exact Or.inl ⟨rfl, by simp⟩
  | cons x l ih =>
      unfold optimumLoop
      by_cases hx : accept x = true ∧ key x < bound
      · obtain ⟨hacc, hlt⟩ := hx
        rw [if_pos (by simp [hacc, hlt])]
        -- `x` is the best so far: it stays, or something below it is found
        rcases ih (i + 1) (key x) (some i) with ⟨heq, hrest⟩ | ⟨j, y, heq, hy, hopt⟩
        · exact Or.inr ⟨0, x, heq, hlt, FirstOptimum.head hacc hrest⟩
        · refine Or.inr ⟨j + 1, y, ?_, hy.trans hlt, hopt.tail (fun _ => hy)⟩
          rw [heq]
          congr 1
          omega
      · rw [if_neg (by simpa using hx)]
        have hbound : accept x = true → bound ≤ key x :=
          fun hacc => not_lt.mp (fun hlt => hx ⟨hacc, hlt⟩)
        rcases ih (i + 1) bound index with ⟨heq, hrest⟩ | ⟨j, y, heq, hy, hopt⟩
        · refine Or.inl ⟨heq, ?_⟩
          intro y hmem hacc
          rcases List.mem_cons.mp hmem with rfl | hmem
          · exact hbound hacc
          · exact hrest y hmem hacc
        · refine Or.inr ⟨j + 1, y, ?_, hy, hopt.tail (fun hacc => hy.trans_le (hbound hacc))⟩
          rw [heq]
          congr 1
          omega

/-- What the loop finds is the first optimum. -/
theorem firstOptimum_of_optimumLoop
    (h : optimumLoop key accept l 0 bound none = some i) :
    ∃ x, FirstOptimum key accept l i x := by
  rcases optimumLoop_cases key accept l 0 bound none with ⟨heq, _⟩ | ⟨j, x, heq, _, hopt⟩
  · rw [heq] at h
    cases h
  · rw [heq, Nat.zero_add, Option.some.injEq] at h
    exact ⟨x, h ▸ hopt⟩

/-- The loop finds nothing exactly when every accepted element reaches the bound. -/
theorem optimumLoop_eq_none_iff :
    optimumLoop key accept l 0 bound none = none ↔
      ∀ y ∈ l, accept y = true → bound ≤ key y := by
  rcases optimumLoop_cases key accept l 0 bound none with ⟨heq, hrest⟩ | ⟨j, x, heq, hlt, hopt⟩
  · exact ⟨fun _ => hrest, fun _ => heq⟩
  · constructor
    · intro hnone
      rw [heq] at hnone
      cases hnone
    · intro hall
      exact absurd hlt (not_lt.mpr (hall x (List.mem_of_getElem? hopt.get) hopt.accepted))

end Rules

end Lib
end SinIdeas
