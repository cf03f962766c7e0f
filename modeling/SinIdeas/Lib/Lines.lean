import Mathlib.Data.List.Basic

/-!
# Lines of a text file

`getline` takes the next line of a file with its end of line; the last line may lack
one. `lines` are the lines without their ends, and what `getline` returns one call after
another.
-/

namespace SinIdeas
namespace Lib

/-- `getline`: the next line with its end of line, and what is left of the file; `none`
at the end of the file. -/
def getline : List Char → Option (List Char × List Char)
  | [] => none
  | c :: text =>
      if c = '\n' then some (['\n'], text)
      else
        match getline text with
        | none => some ([c], [])
        | some (line, rest) => some (c :: line, rest)

/-- The lines of a text without their ends. -/
def lines : List Char → List (List Char)
  | [] => []
  | c :: text =>
      if c = '\n' then [] :: lines text
      else
        match lines text with
        | [] => [[c]]
        | line :: rest => (c :: line) :: rest

/-- The text without what follows the end of line. -/
def untilEol (line : List Char) : List Char := line.takeWhile (fun c => c != '\n')

/-- The text of some lines, with an end of line after the last one or not. -/
def unlines (eol : Bool) : List (List Char) → List Char
  | [] => []
  | [line] => if eol then line ++ ['\n'] else line
  | line :: next :: rest => line ++ '\n' :: unlines eol (next :: rest)

section Lines

variable {text line rest : List Char}

theorem getline_eq_none : getline text = none ↔ text = [] := by
  cases text with
  | nil =>
      simp [getline]
  | cons c text =>
      unfold getline
      split_ifs
      · simp
      · cases getline text <;> simp

/-- A line is not empty, and the rest of the file follows it. -/
theorem getline_split
    (h : getline text = some (line, rest)) :
    line ≠ [] ∧ line ++ rest = text := by
  induction text generalizing line rest with
  | nil =>
      cases h
  | cons c text ih =>
      unfold getline at h
      split_ifs at h with hc
      · cases h
        exact ⟨by simp, by simp [hc]⟩
      · cases hnext : getline text with
        | none =>
            rw [hnext] at h
            cases h
            simp [getline_eq_none.mp hnext]
        | some r =>
            rw [hnext] at h
            cases h
            simp [(ih hnext).2]

theorem length_of_getline
    (h : getline text = some (line, rest)) :
    rest.length < text.length := by
  obtain ⟨hne, rfl⟩ := getline_split h
  have hpos := List.length_pos_iff.mpr hne
  rw [List.length_append]
  omega

theorem lines_eq_nil : lines text = [] ↔ text = [] := by
  cases text with
  | nil =>
      simp [lines]
  | cons c text =>
      unfold lines
      split_ifs
      · simp
      · cases lines text <;> simp

/-- A line is a part of the text. -/
theorem sublist_of_mem_lines
    (h : line ∈ lines text) :
    line.Sublist text := by
  induction text generalizing line with
  | nil =>
      cases h
  | cons c text ih =>
      unfold lines at h
      split_ifs at h with hc
      · rcases List.mem_cons.mp h with rfl | h
        · exact List.nil_sublist _
        · exact (ih h).cons c
      · cases hnext : lines text with
        | nil =>
            rw [hnext] at h
            obtain rfl := List.mem_singleton.mp h
            exact (List.nil_sublist text).cons_cons c
        | cons first others =>
            rw [hnext] at h
            rcases List.mem_cons.mp h with rfl | h
            · exact (ih (hnext ▸ List.mem_cons_self)).cons_cons c
            · exact (ih (hnext ▸ List.mem_cons_of_mem _ h)).cons c

/-- `getline` takes the first of the lines. -/
theorem lines_of_getline
    (h : getline text = some (line, rest)) :
    lines text = untilEol line :: lines rest := by
  induction text generalizing line rest with
  | nil =>
      cases h
  | cons c text ih =>
      unfold getline at h
      split_ifs at h with hc
      · cases h
        simp [lines, untilEol, hc]
      · cases hnext : getline text with
        | none =>
            rw [hnext] at h
            cases h
            simp [lines, untilEol, hc, getline_eq_none.mp hnext]
        | some r =>
            rw [hnext] at h
            cases h
            have htail := ih hnext
            simp only [lines, if_neg hc, htail]
            simp [untilEol, hc]

/-- A line with its end is the first one. -/
theorem lines_append
    (hline : '\n' ∉ line) :
    lines (line ++ '\n' :: text) = line :: lines text := by
  induction line with
  | nil =>
      simp [lines]
  | cons c line ih =>
      have hc : c ≠ '\n' := fun heq => hline (heq ▸ List.mem_cons_self)
      have htail := ih (fun hmem => hline (List.mem_cons_of_mem _ hmem))
      simp only [List.cons_append, lines, if_neg hc, htail]

/-- A text without ends of line is one line. -/
theorem lines_singleton
    (hline : '\n' ∉ line) (hne : line ≠ []) :
    lines line = [line] := by
  induction line with
  | nil =>
      exact absurd rfl hne
  | cons c line ih =>
      have hc : c ≠ '\n' := fun heq => hline (heq ▸ List.mem_cons_self)
      have htail := ih (fun hmem => hline (List.mem_cons_of_mem _ hmem))
      cases line with
      | nil =>
          simp [lines, hc]
      | cons d line =>
          rw [lines, if_neg hc, htail (List.cons_ne_nil _ _)]

/-- Lines that are written come back; a last line without its end must not be empty. -/
theorem lines_unlines
    (eol : Bool) {ls : List (List Char)}
    (hls : ∀ l ∈ ls, '\n' ∉ l ∧ l ≠ []) :
    lines (unlines eol ls) = ls := by
  induction ls with
  | nil =>
      rfl
  | cons l ls ih =>
      obtain ⟨hline, hne⟩ := hls l List.mem_cons_self
      have htail := ih (fun l' h => hls l' (List.mem_cons_of_mem _ h))
      cases ls with
      | nil =>
          cases eol with
          | false =>
              exact lines_singleton hline hne
          | true =>
              exact lines_append hline
      | cons next rest =>
          rw [unlines, lines_append hline, htail]

end Lines

end Lib
end SinIdeas
