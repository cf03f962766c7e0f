import Mathlib.Algebra.Ring.Nat
import Mathlib.Data.List.Basic

/-!
# Strings in arrays of a fixed size

A string takes one place more than its characters, for its end. `strcat` has no bound
of its own: it fails where the result does not fit, because there the array is left.
`snprintf` cuts the string instead. A list of strings joined with a separator fits
exactly when all of their characters do, whatever fits on the way.
-/

namespace SinIdeas
namespace Lib

universe u

variable {α : Type u}

/-- `strcat` to a string in an array of the given size. -/
def strcat (size : Nat) (dest src : List α) : Option (List α) :=
  if dest.length + src.length < size then some (dest ++ src) else none

/-- `snprintf` to an array of the given size. -/
def snprintf (size : Nat) (s : List α) : List α := s.take (size - 1)

/-- Append the strings one by one, with the separator between them. -/
def strcatAll (size : Nat) (sep : List α) : List (List α) → List α → Option (List α)
  | [], dest => some dest
  | s :: ss, dest => do
      let dest ← strcat size dest s
      let dest ← if ss.isEmpty then some dest else strcat size dest sep
      strcatAll size sep ss dest

section Rules

variable {size : Nat} {dest sep src : List α} {ss : List (List α)}

theorem strcat_of_lt
    (h : dest.length + src.length < size) :
    strcat size dest src = some (dest ++ src) :=
  if_pos h

theorem strcat_eq_none
    (h : size ≤ dest.length + src.length) :
    strcat size dest src = none :=
  if_neg (Nat.not_lt.mpr h)

theorem snprintf_of_lt
    (h : src.length < size) :
    snprintf size src = src :=
  List.take_of_length_le (by omega)

/-- Appending the strings is appending the joined string. -/
theorem strcatAll_eq
    (ss : List (List α))
    (hdest : dest.length < size) :
    strcatAll size sep ss dest = strcat size dest (sep.intercalate ss) := by
  induction ss generalizing dest with
  | nil =>
      rw [strcatAll, strcat_of_lt] <;> simp [hdest]
  | cons s ss ih =>
      unfold strcatAll
      by_cases hs : dest.length + s.length < size
      · have hnext : (dest ++ s).length < size := by
          rw [List.length_append]
          exact hs
        rw [strcat_of_lt hs, Option.bind_eq_bind, Option.bind_some]
        cases ss with
        | nil =>
            simp [strcatAll, strcat_of_lt hs]
        | cons t ts =>
            simp only [List.isEmpty_cons, Bool.false_eq_true, if_false,
              List.intercalate_cons_cons]
            by_cases hsep : (dest ++ s).length + sep.length < size
            · have hlast : (dest ++ s ++ sep).length < size := by
                rw [List.length_append]
                exact hsep
              rw [strcat_of_lt hsep, Option.bind_some, ih hlast]
              simp only [strcat, List.length_append, List.append_assoc, Nat.add_assoc]
            · rw [strcat_eq_none (Nat.not_lt.mp hsep), strcat_eq_none]
              · rfl
              · simp only [List.length_append] at hsep ⊢
                omega
      · rw [strcat_eq_none (Nat.not_lt.mp hs), strcat_eq_none]
        · rfl
        · cases ss with
          | nil =>
              simpa using hs
          | cons t ts =>
              rw [List.intercalate_cons_cons]
              simp only [List.length_append]
              omega

/-- The characters of the joined strings, counting a separator after each of them. -/
theorem length_intercalate_add
    (hne : ss ≠ []) :
    (sep.intercalate ss).length + sep.length =
      (ss.map (fun s => s.length + sep.length)).sum := by
  induction ss with
  | nil =>
      exact absurd rfl hne
  | cons s ss ih =>
      cases ss with
      | nil =>
          simp
      | cons t ts =>
          have hrest := ih (by simp)
          rw [List.intercalate_cons_cons, List.map_cons, List.sum_cons, ← hrest]
          simp only [List.length_append]
          omega

end Rules

end Lib
end SinIdeas
