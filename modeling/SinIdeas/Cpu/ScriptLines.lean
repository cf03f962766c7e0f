import SinIdeas.Cpu.ParseLine
import SinIdeas.Cpu.Cycle

/-!
# The lines of a script

`decode_and_execute` copies the parameters of a line into three variables and then
every case of its `switch` uses as many of them as it expects. Nothing compares
that number with what the line has, and the name of a line without tokens is
`NULL`. A line is decoded without either fault exactly when it has a name and at
least the parameters that its case uses.
-/

namespace SinIdeas
namespace Cpu

open Lib

/-! ## The three variables -/

/-- `param1`, `param2` and `param3`; one that was not assigned has no value. -/
structure Variables where
  param1 : Option (List Char)
  param2 : Option (List Char)
  param3 : Option (List Char)
  deriving DecidableEq

/-- The `if` in the body of the loop. -/
def Variables.asignar (i : Nat) (tempParam : List Char) (v : Variables) : Variables :=
  if i = 0 then { v with param1 := some tempParam }
  else if i = 1 then { v with param2 := some tempParam }
  else if i = 2 then { v with param3 := some tempParam }
  else v

/-- The loop at the start of `decode_and_execute`, from the index `i`. -/
def copiarVariables : Nat → List (List Char) → Variables → Variables
  | _, [], v => v
  | i, currentParam :: params, v =>
      copiarVariables (i + 1) params (v.asignar i (quitarSalto currentParam))

/-- From the fourth parameter on nothing is assigned. -/
theorem copiarVariables_of_three_le
    (params : List (List Char))
    {i : Nat}
    (hi : 3 ≤ i)
    (v : Variables) :
    copiarVariables i params v = v := by
  induction params generalizing i with
  | nil =>
      rfl
  | cons currentParam params ih =>
      have hasignar : v.asignar i (quitarSalto currentParam) = v := by
        rw [Variables.asignar, if_neg (by omega), if_neg (by omega), if_neg (by omega)]
      rw [copiarVariables, hasignar, ih (by omega)]

/-- The variables hold the parameters that `decode` reads. -/
theorem copiarVariables_eq_param (instruction : Instruction) :
    copiarVariables 0 instruction.params { param1 := none, param2 := none, param3 := none } =
      { param1 := instruction.param 0
        param2 := instruction.param 1
        param3 := instruction.param 2 } := by
  obtain ⟨name, params⟩ := instruction
  match params with
  | [] =>
      rfl
  | [_] =>
      rfl
  | [_, _] =>
      rfl
  | first :: second :: third :: params =>
      simp only [copiarVariables]
      rw [copiarVariables_of_three_le params (Nat.le_refl 3)]
      rfl

/-! ## What the cases use -/

/-- The parameters that the case of an operation uses, counted from the first. -/
def OpCode.aridad : OpCode → Nat
  | .set | .sum | .sub | .jnz | .readMem | .writeMem | .threadCreate => 2
  | .processCreate => 3
  | .log | .io | .threadJoin | .threadCancel | .mutexCreate | .mutexLock | .mutexUnlock => 1
  | .dumpMemory | .threadExit | .processExit | .desconocida => 0

/-- A parameter is used without a fault when the line has it, and then what follows
decides. -/
theorem bind_param_ne_none
    {instruction : Instruction} {f : List Char → Option Accion} {P : Prop}
    (i : Nat)
    (hf : ∀ param, f param ≠ none ↔ P) :
    (instruction.param i).bind f ≠ none ↔ i < instruction.params.length ∧ P := by
  by_cases hi : i < instruction.params.length
  · have hparam : instruction.param i = some (quitarSalto instruction.params[i]) := by
      rw [Instruction.param, List.getElem?_eq_getElem hi]
      rfl
    rw [hparam, Option.bind_some, hf]
    exact (and_iff_right hi).symm
  · have hparam : instruction.param i = none := by
      rw [Instruction.param, List.getElem?_eq_none (Nat.le_of_not_lt hi)]
      rfl
    simp [hparam, hi]

theorem usa_uno_iff
    {instruction : Instruction}
    (f : List Char → Accion) :
    (instruction.param 0).bind (fun param1 => some (f param1)) ≠ none ↔
      1 ≤ instruction.params.length := by
  rw [bind_param_ne_none (P := True) 0 (by simp), and_true]
  rfl

theorem usa_dos_iff
    {instruction : Instruction}
    (f : List Char → List Char → Accion) :
    (instruction.param 0).bind (fun param1 => (instruction.param 1).bind (fun param2 =>
        some (f param1 param2))) ≠ none ↔
      2 ≤ instruction.params.length := by
  rw [bind_param_ne_none 0 (fun param1 => bind_param_ne_none (P := True) 1 (by simp)), and_true]
  omega

theorem usa_tres_iff
    {instruction : Instruction}
    (f : List Char → List Char → List Char → Accion) :
    (instruction.param 0).bind (fun param1 => (instruction.param 1).bind (fun param2 =>
        (instruction.param 2).bind (fun param3 => some (f param1 param2 param3)))) ≠ none ↔
      3 ≤ instruction.params.length := by
  rw [bind_param_ne_none 0 (fun param1 => bind_param_ne_none 1 (fun param2 =>
    bind_param_ne_none (P := True) 2 (by simp))), and_true]
  omega

/-- A case finds every variable that it uses assigned exactly when the line has as
many parameters as it uses. -/
theorem decode_ne_none_iff
    (instruction : Instruction) (c : ExecutionContext) :
    decode instruction c ≠ none ↔ instruction.name.aridad ≤ instruction.params.length := by
  unfold decode
  cases instruction.name with
  | set | sum | sub | jnz | readMem | writeMem | threadCreate =>
      exact usa_dos_iff _
  | processCreate =>
      exact usa_tres_iff _
  | log | io | threadJoin | threadCancel | mutexCreate | mutexLock | mutexUnlock =>
      exact usa_uno_iff _
  | dumpMemory | threadExit | processExit | desconocida =>
      simp [OpCode.aridad]

/-! ## The lines that decode -/

/-- A line that memoria delivers: it was cut at the end of line and ends at the
terminator. -/
abbrev LineaDeScript : Type :=
  { linea : List Char // '\n' ∉ linea ∧ '\x00' ∉ linea }

/-- The line gives `string_to_op_code` a name, and its case uses no variable that the
loop did not assign. -/
def DecodificaSinFallas (linea : LineaDeScript) (c : ExecutionContext) : Prop :=
  parseInstruction linea.val ≠ none ∧
    ∀ instruction, parseInstruction linea.val = some instruction →
      decode instruction c ≠ none

theorem decodificaSinFallas_of_parse
    {linea : LineaDeScript} {c : ExecutionContext} {instruction : Instruction}
    (hparse : parseInstruction linea.val = some instruction)
    (haridad : instruction.name.aridad ≤ instruction.params.length) :
    DecodificaSinFallas linea c := by
  refine ⟨by rw [hparse]; exact Option.some_ne_none _, ?_⟩
  intro other hother
  obtain rfl : instruction = other := Option.some.inj (hparse.symm.trans hother)
  exact (decode_ne_none_iff instruction c).mpr haridad

/-- Texts that can be written in a script are the parameters of a line. -/
theorem exists_params
    {pieces : List (Nat × List Char)}
    (hpieces : ∀ piece ∈ pieces, piece.2 ≠ [] ∧ ' ' ∉ piece.2 ∧ '\x00' ∉ piece.2) :
    ∃ params : List (Nat × Palabra),
      params.map (fun param => (param.1, param.2.val)) = pieces := by
  induction pieces with
  | nil =>
      exact ⟨[], rfl⟩
  | cons piece pieces ih =>
      obtain ⟨params, hparams⟩ := ih (fun p hp => hpieces p (List.mem_cons_of_mem piece hp))
      exact ⟨(piece.1, ⟨piece.2, hpieces piece List.mem_cons_self⟩) :: params,
        by rw [List.map_cons, hparams]⟩

/-- Every text without terminators that has a token was printed from a name and
parameters. -/
theorem exists_linea
    {texto : List Char}
    (hnul : '\x00' ∉ texto)
    (htokens : tokens esEspacio texto ≠ []) :
    ∃ l : Linea, l.texto = texto := by
  obtain ⟨first, pieces, n, htexto, hfirst, hpieces⟩ := exists_spaced ' ' texto
  have hnulFirst : '\x00' ∉ first := by
    intro hmem
    exact hnul (htexto ▸ List.mem_append_left _ hmem)
  have hpalabra : ∀ piece ∈ pieces, piece.2 ≠ [] ∧ ' ' ∉ piece.2 ∧ '\x00' ∉ piece.2 := by
    intro piece hpiece
    refine ⟨(hpieces piece hpiece).1, (hpieces piece hpiece).2, ?_⟩
    intro hmem
    apply hnul
    rw [htexto]
    apply List.mem_append_right
    apply List.mem_append_left
    exact List.mem_flatMap.mpr ⟨piece, hpiece, List.mem_append_right _ hmem⟩
  cases first with
  | cons c first =>
      obtain ⟨params, hparams⟩ := exists_params hpalabra
      refine ⟨{ antes := 0, name := ⟨c :: first, by simp, hfirst, hnulFirst⟩
                params := params, despues := n }, ?_⟩
      rw [htexto, Linea.texto, hparams]
      rfl
  | nil =>
      cases pieces with
      | nil =>
          -- Only blanks: there would be no token.
          have hblancos : tokens esEspacio (List.replicate n ' ' ++ []) = tokens esEspacio [] :=
            tokens_replicate_append rfl n []
          refine absurd ?_ htokens
          rw [htexto]
          simpa [spaced] using hblancos
      | cons piece pieces =>
          obtain ⟨params, hparams⟩ :=
            exists_params (fun p hp => hpalabra p (List.mem_cons_of_mem piece hp))
          refine ⟨{ antes := piece.1 + 1, name := ⟨piece.2, hpalabra piece List.mem_cons_self⟩
                    params := params, despues := n }, ?_⟩
          rw [htexto, Linea.texto, hparams]
          simp [spaced]

/-- A line of a script is decoded without a fault exactly when it has a name and at
least the parameters that the case of its name uses. -/
theorem script_line_decodes_iff
    (linea : LineaDeScript) (c : ExecutionContext) :
    DecodificaSinFallas linea c ↔
      ∃ l : Linea, l.texto = linea.val ∧
        (stringToOpCode l.name.val).aridad ≤ l.params.length := by
  constructor
  · rintro ⟨hname, hdecode⟩
    have htokens : tokens esEspacio linea.val ≠ [] := by
      intro hnone
      apply hname
      rw [parseInstruction, strtok_eq_tokens, hnone]
    obtain ⟨l, hl⟩ := exists_linea linea.property.2 htokens
    refine ⟨l, hl, ?_⟩
    have hparse := l.parseInstruction_texto
    rw [hl] at hparse
    have haridad := (decode_ne_none_iff _ _).mp (hdecode _ hparse)
    simpa [Linea.textos] using haridad
  · rintro ⟨l, hl, haridad⟩
    have hparse := l.parseInstruction_texto
    rw [hl] at hparse
    apply decodificaSinFallas_of_parse hparse
    simpa [Linea.textos] using haridad

/-- The context of a thread that has not run. -/
def contextoNuevo : ExecutionContext :=
  Memoria.contextoDe 0 0
    (Memoria.registrosDe (Memoria.nuevoProceso 0 0 16 16) (Memoria.nuevoHilo 0 ['a']))

/-- The empty line has no name, and `SET AX` leaves `param2` without a value. -/
theorem short_lines_break_the_decoder :
    ¬ DecodificaSinFallas ⟨[], by decide⟩ contextoNuevo ∧
      ¬ DecodificaSinFallas ⟨"SET AX".toList, by decide⟩ contextoNuevo := by
  constructor
  · rintro ⟨hname, _⟩
    exact hname rfl
  · rintro ⟨_, hdecode⟩
    exact hdecode { name := .set, params := ["AX".toList] } rfl rfl

end Cpu
end SinIdeas
