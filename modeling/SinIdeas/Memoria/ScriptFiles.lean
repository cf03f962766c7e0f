import Mathlib.Data.List.TakeWhile
import SinIdeas.Lib.Lines
import SinIdeas.Memoria.Requests

/-!
# The files of the scripts

`obtener_linea_pseudocodigo` opens the script of a thread and calls `getline` until the
line is the one of the PC; `handle_client` then cuts it at its end of line. The scripts
of a configuration are the lines that this gives.
-/

namespace SinIdeas
namespace Memoria

open Lib

/-- The loop of `obtener_linea_pseudocodigo` over `getline`, from `current_line`. -/
def leerLinea (pc currentLine : UInt32) (file : List Char) : Option (List Char) :=
  match hline : getline file with
  | none => none
  | some (line, rest) =>
      if currentLine = pc then some line
      else leerLinea pc (currentLine + 1) rest
termination_by file.length
decreasing_by exact length_of_getline hline

/-- `linea[strcspn(linea, "\n")] = '\0'`, as a C string. -/
def cortarLinea (linea : List Char) : List Char :=
  linea.takeWhile (fun c => c != '\x00' && c != '\n')

/-- `obtener_linea_pseudocodigo`, with the files of `./scripts/`, as `handle_client`
cuts what it returns. -/
def obtenerLineaDeArchivo (archivos : List Char → Option (List Char)) (g : Globals)
    (pid tid pc : UInt32) : Option (List Char) := do
  let proceso ← buscarProcesoPorPid g pid
  let hilo ← proceso.threads.find? (fun hilo => hilo.tid == tid)
  let file ← archivos hilo.filePath
  let linea ← leerLinea pc 0 file
  some (cortarLinea linea)

/-- The lines of a script file. -/
def lineasDe (file : List Char) : List (List Char) :=
  (lines file).map (fun line => line.takeWhile (fun c => c != '\x00'))

/-- The configuration with the scripts of some files. -/
def Config.conArchivos (cfg : Config) (archivos : List Char → Option (List Char)) : Config :=
  { cfg with scripts := fun path => (archivos path).map lineasDe }

section Files

variable {file : List Char} {pc currentLine : UInt32}

theorem takeWhile_untilEol (linea : List Char) :
    (untilEol linea).takeWhile (fun c => c != '\x00') = cortarLinea linea := by
  rw [untilEol, cortarLinea, List.takeWhile_takeWhile]
  refine congrArg (fun p => linea.takeWhile p) (funext (fun c => ?_))
  rw [Bool.decide_and, Bool.decide_coe, Bool.decide_coe]

theorem lineasDe_of_getline
    {line rest : List Char}
    (h : getline file = some (line, rest)) :
    lineasDe file = cortarLinea line :: lineasDe rest := by
  rw [lineasDe, lines_of_getline h, List.map_cons, takeWhile_untilEol]
  rfl

/-- The loop finds the line at the distance of the PC. -/
theorem leerLinea_eq
    (file : List Char)
    (hle : currentLine ≤ pc) :
    (leerLinea pc currentLine file).map cortarLinea =
      (lineasDe file)[pc.toNat - currentLine.toNat]? := by
  have hle' : currentLine.toNat ≤ pc.toNat := hle
  fun_induction leerLinea pc currentLine file with
  | case1 currentLine file hline =>
      rw [getline_eq_none.mp hline]
      rfl
  | case2 file line rest hline =>
      rw [lineasDe_of_getline hline, Nat.sub_self]
      rfl
  | case3 currentLine file line rest hline hne ih =>
      -- the counter does not wrap around before it reaches the PC
      have hlt : currentLine.toNat < pc.toNat :=
        Nat.lt_of_le_of_ne hle' (fun heq => hne (UInt32.toNat_inj.mp heq))
      have hnext : (currentLine + 1).toNat = currentLine.toNat + 1 := by
        have hpc := pc.toNat_lt
        rw [UInt32.toNat_add]
        exact Nat.mod_eq_of_lt (by simp; omega)
      have hle₁ : currentLine + 1 ≤ pc := by
        rw [UInt32.le_iff_toNat_le, hnext]
        exact hlt
      rw [ih hle₁ (UInt32.le_iff_toNat_le.mp hle₁), hnext, lineasDe_of_getline hline,
        show pc.toNat - currentLine.toNat = pc.toNat - (currentLine.toNat + 1) + 1 by omega,
        List.getElem?_cons_succ]

/-- Memoria serves the lines of the files. -/
theorem obtenerLineaDeArchivo_eq
    (cfg : Config) (archivos : List Char → Option (List Char)) (g : Globals)
    (pid tid pc : UInt32) :
    obtenerLineaDeArchivo archivos g pid tid pc =
      obtenerLineaPseudocodigo (cfg.conArchivos archivos) g pid tid pc := by
  unfold obtenerLineaDeArchivo obtenerLineaPseudocodigo
  refine bind_congr (fun proceso => bind_congr (fun hilo => ?_))
  simp only [Config.conArchivos]
  cases archivos hilo.filePath with
  | none =>
      rfl
  | some file =>
      have hloop := leerLinea_eq file (UInt32.zero_le (a := pc))
      rw [UInt32.toNat_zero, Nat.sub_zero] at hloop
      simp only [Option.bind_eq_bind, Option.bind_some, Option.map_some, ← hloop]
      cases leerLinea pc 0 file <;> rfl

end Files

end Memoria
end SinIdeas
