import Mathlib.Data.List.Forall2
import SinIdeas.Lib.CString
import SinIdeas.Cpu.Parse
import SinIdeas.Utils.Serializators

/-!
# Instruction lines

`parse_instruction` as it works in memory: it copies the line, cuts the copy with
`strtok`, copies every token after the first one and frees the copy of the line.
Its result is what `parseInstruction` reads from the text of the line, and a line
that was printed from a name and parameters gives them back, whatever the blanks
between them.
-/

namespace SinIdeas
namespace Cpu

open Lib

/-! ## The names of the instructions -/

/-- The name that stands for an operation in a script. -/
def OpCode.mnemonico : OpCode → Option (List Char)
  | .set => some "SET".toList
  | .sum => some "SUM".toList
  | .sub => some "SUB".toList
  | .readMem => some "READ_MEM".toList
  | .writeMem => some "WRITE_MEM".toList
  | .jnz => some "JNZ".toList
  | .log => some "LOG".toList
  | .mutexCreate => some "MUTEX_CREATE".toList
  | .mutexLock => some "MUTEX_LOCK".toList
  | .mutexUnlock => some "MUTEX_UNLOCK".toList
  | .dumpMemory => some "DUMP_MEMORY".toList
  | .io => some "IO".toList
  | .processCreate => some "PROCESS_CREATE".toList
  | .threadCreate => some "THREAD_CREATE".toList
  | .threadCancel => some "THREAD_CANCEL".toList
  | .threadJoin => some "THREAD_JOIN".toList
  | .threadExit => some "THREAD_EXIT".toList
  | .processExit => some "PROCESS_EXIT".toList
  | .desconocida => none

/-- The `op_code` of an instruction in `communication.h`. -/
def OpCode.opCode : OpCode → Option Utils.OpCode
  | .set => some .set
  | .sum => some .sum
  | .sub => some .sub
  | .readMem => some .readMem
  | .writeMem => some .writeMem
  | .jnz => some .jnz
  | .log => some .log
  | .mutexCreate => some .mutexCreate
  | .mutexLock => some .mutexLock
  | .mutexUnlock => some .mutexUnlock
  | .dumpMemory => some .dumpMemory
  | .io => some .io
  | .processCreate => some .processCreate
  | .threadCreate => some .threadCreate
  | .threadCancel => some .threadCancel
  | .threadJoin => some .threadJoin
  | .threadExit => some .threadExit
  | .processExit => some .processExit
  | .desconocida => none

/-- The number that `string_to_op_code` returns. -/
def OpCode.codigo (op : OpCode) : Int :=
  match op.opCode with
  | some code => code.code.toNat
  | none => -1

theorem OpCode.opCode_injective : Function.Injective OpCode.opCode := by
  intro a b h
  cases a <;> cases b <;> first | rfl | cases h

theorem opCode_code_injective : Function.Injective Utils.OpCode.code := by
  intro a b h
  have hcode := congrArg Utils.OpCode.ofCode h
  rw [Utils.OpCode.ofCode_code, Utils.OpCode.ofCode_code] at hcode
  exact Option.some.inj hcode

theorem OpCode.codigo_injective : Function.Injective OpCode.codigo := by
  intro a b h
  apply OpCode.opCode_injective
  unfold OpCode.codigo at h
  cases ha : a.opCode with
  | none =>
      cases hb : b.opCode with
      | none =>
          rfl
      | some d =>
          simp only [ha, hb] at h
          omega
  | some c =>
      cases hb : b.opCode with
      | none =>
          simp only [ha, hb] at h
          omega
      | some d =>
          simp only [ha, hb] at h
          have hcode : c.code = d.code := UInt32.toNat_inj.mp (by omega)
          rw [opCode_code_injective hcode]

theorem stringToOpCode_mnemonico
    {op : OpCode} {name : List Char}
    (hname : op.mnemonico = some name) :
    stringToOpCode name = op := by
  cases op <;> cases hname <;> rfl

/-- Any other name is compared with the eighteen in vain. -/
theorem stringToOpCode_desconocida
    {name : List Char}
    (hname : ∀ op : OpCode, op.mnemonico ≠ some name) :
    stringToOpCode name = .desconocida := by
  have hne : ∀ (op : OpCode) {text : List Char}, op.mnemonico = some text → name ≠ text := by
    intro op text htext heq
    exact hname op (heq ▸ htext)
  unfold stringToOpCode
  rw [if_neg (hne .set rfl), if_neg (hne .sum rfl), if_neg (hne .sub rfl),
    if_neg (hne .readMem rfl), if_neg (hne .writeMem rfl), if_neg (hne .jnz rfl),
    if_neg (hne .log rfl), if_neg (hne .mutexCreate rfl), if_neg (hne .mutexLock rfl),
    if_neg (hne .mutexUnlock rfl), if_neg (hne .dumpMemory rfl), if_neg (hne .io rfl),
    if_neg (hne .processCreate rfl), if_neg (hne .threadCreate rfl),
    if_neg (hne .threadCancel rfl), if_neg (hne .threadJoin rfl),
    if_neg (hne .threadExit rfl), if_neg (hne .processExit rfl)]

/-! ## The parser in memory -/

/-- The delimiters of the script. -/
def esEspacio (c : Char) : Bool :=
  c == ' '

/-- `t_instruction`: the list of parameters points to the copies. -/
structure InstructionEnMemoria where
  name : OpCode
  params : List Ptr
  paramsCount : UInt32
  deriving DecidableEq

/-- `string_to_op_code`, which compares the string it is given: nothing can be read
through `NULL`. -/
def stringToOpCodeEn (name : Option Ptr) (e : Store Char) : Option OpCode := do
  let name ← name
  let text ← e.heap.cstring '\x00' name
  some (stringToOpCode text)

/-- The `while` of `parse_instruction`, with the list filled so far; `fuel` bounds
the calls of `strtok`. -/
def copiarParams : Nat → List Ptr → Store Char → Option (Store Char × List Ptr)
  | 0, _, _ => none
  | fuel + 1, params, e => do
      let (e, token) ← e.strtok '\x00' esEspacio none
      match token with
      | none => some (e, params)
      | some token => do
          let (heap, param) ← e.heap.strdup '\x00' token
          copiarParams fuel (params ++ [param]) { e with heap }

/-- `parse_instruction`. Every round of its loop takes at least one character of the
line. -/
def parseInstructionEn (input : Ptr) (e : Store Char) :
    Option (Store Char × InstructionEnMemoria) := do
  let linea ← e.heap.cstring '\x00' input
  let (heap, inputCopy) ← e.heap.strdup '\x00' input
  let (e, token) ← Store.strtok '\x00' esEspacio (some inputCopy) { e with heap }
  let name ← stringToOpCodeEn token e
  let (e, params) ← copiarParams (linea.length + 1) [] e
  let heap ← e.heap.free inputCopy
  some ({ e with heap }, { name, params, paramsCount := UInt32.ofNat params.length })

theorem strtok_eq_tokens (s : List Char) :
    strtok s = tokens esEspacio s := by
  rfl

/-- The pointers lead to copies of the texts, outside the block `b`. -/
def Copias (b : Nat) (h : Heap Char) (params : List Ptr) (textos : List (List Char)) : Prop :=
  List.Forall₂ (fun p texto => p.block ≠ b ∧ h.cstring '\x00' p = some texto) params textos

theorem Copias.keeps
    {b : Nat} {h h' : Heap Char} {params : List Ptr} {textos : List (List Char)}
    (hcopias : Copias b h params textos)
    (hkeeps : Heap.Keeps b h h') :
    Copias b h' params textos := by
  apply List.Forall₂.imp ?_ hcopias
  rintro p texto ⟨hne, htexto⟩
  exact ⟨hne, hkeeps.cstring hne htexto⟩

theorem Copias.append
    {b : Nat} {h : Heap Char} {params : List Ptr} {textos : List (List Char)}
    {p : Ptr} {texto : List Char}
    (hcopias : Copias b h params textos)
    (hne : p.block ≠ b)
    (htexto : h.cstring '\x00' p = some texto) :
    Copias b h (params ++ [p]) (textos ++ [texto]) :=
  List.rel_append hcopias (.cons ⟨hne, htexto⟩ .nil)

theorem Copias.map_cstring
    {b : Nat} {h : Heap Char} {params : List Ptr} {textos : List (List Char)}
    (hcopias : Copias b h params textos) :
    params.map (fun p => h.cstring '\x00' p) = textos.map some := by
  induction hcopias with
  | nil =>
      rfl
  | cons hp _ ih =>
      rw [List.map_cons, List.map_cons, hp.2, ih]

/-- Where `strtok` stands in the copy of the line: `text` is what is left of it. -/
def EnCurso (b : Nat) (text : List Char) (e : Store Char) : Prop :=
  ∃ p, e.olds = some p ∧ p.block = b ∧ e.heap.cstring '\x00' p = some text

/-- The loop copies the tokens that are left, and the line is still there to be freed. -/
theorem copiarParams_eq
    (fuel : Nat) {b : Nat} {text : List Char} {e : Store Char}
    {params : List Ptr} {textos : List (List Char)}
    (henCurso : EnCurso b text e)
    (hfuel : text.length < fuel)
    (hcopias : Copias b e.heap params textos) :
    ∃ e' params', copiarParams fuel params e = some (e', params') ∧
      Copias b e'.heap params' (textos ++ tokens esEspacio text) ∧
      Heap.Keeps b e.heap e'.heap ∧
      ∃ bytes, e'.heap.block b = some bytes := by
  induction fuel generalizing text e params textos with
  | zero =>
      cases hfuel
  | succ fuel ih =>
      obtain ⟨p, holds, hblock, htext⟩ := henCurso
      obtain ⟨out, hout, hcuts⟩ := Heap.strtokR_cuts esEspacio htext
      have hstrtok := Store.strtok_eq (s := none) (e := e) holds hout
      simp only [copiarParams, hstrtok, Option.bind_eq_bind, Option.bind_some]
      rw [hblock] at hcuts
      cases hcuts with
      | done saved hnone =>
          refine ⟨_, _, rfl, ?_, .refl, hblock ▸ Heap.cstring_block htext⟩
          rw [hnone, List.append_nil]
          exact hcopias
      | cut h' start saved token rest htokens hlength htoken hrest hstart hsaved hkeeps =>
          obtain ⟨h'', hstrdup, _, hcopia, hcopiaKeeps⟩ := Heap.strdup_eq htoken
          have hkeeps' : Heap.Keeps b e.heap h'' := hkeeps.trans (hcopiaKeeps b)
          have hnuevo : h'.blocks.length ≠ b := by
            obtain ⟨bytes, hbytes⟩ := Heap.cstring_block hrest
            have hlt := Heap.block_lt hbytes
            omega
          have hrest' : h''.cstring '\x00' saved = some rest := by
            have hlt : h'.blocks.length ≠ saved.block := by rw [hsaved]; exact hnuevo
            exact (hcopiaKeeps h'.blocks.length).cstring hlt.symm hrest
          obtain ⟨e', params', hloop, hcopias', hkeepsLoop, hlive⟩ :=
            ih (e := { heap := h'', olds := some saved }) ⟨saved, rfl, hsaved, hrest'⟩ (by omega)
              ((hcopias.keeps hkeeps').append hnuevo hcopia)
          refine ⟨e', params', ?_, ?_, hkeeps'.trans hkeepsLoop, hlive⟩
          · simp only [hstrdup, Option.bind_some, hloop]
          · rw [htokens]
            simpa using hcopias'

/-- The instruction in memory is the one that was read, in blocks of its own. -/
structure Representa (e e' : Store Char) (enMemoria : InstructionEnMemoria)
    (instruction : Instruction) : Prop where
  name : enMemoria.name = instruction.name
  params : enMemoria.params.map (fun p => e'.heap.cstring '\x00' p) =
    instruction.params.map some
  paramsCount : enMemoria.paramsCount = UInt32.ofNat instruction.params.length
  keeps : ∀ b, b < e.heap.blocks.length → e'.heap.block b = e.heap.block b

/-- What the parser does in memory is what it reads from the text of the line: it
fails when there is no token, and otherwise builds the instruction. -/
theorem parseInstructionEn_eq
    {input : Ptr} {e : Store Char} {linea : List Char}
    (hinput : e.heap.cstring '\x00' input = some linea) :
    match parseInstruction linea with
    | none => parseInstructionEn input e = none
    | some instruction => ∃ e' enMemoria,
        parseInstructionEn input e = some (e', enMemoria) ∧
          Representa e e' enMemoria instruction := by
  obtain ⟨h', hstrdup, _, hcopia, hcopiaKeeps⟩ := Heap.strdup_eq hinput
  obtain ⟨out, hout, hcuts⟩ := Heap.strtokR_cuts esEspacio hcopia
  have hstrtok := Store.strtok_eq (s := some ⟨e.heap.blocks.length, 0⟩)
    (e := { e with heap := h' }) rfl hout
  simp only [parseInstruction, strtok_eq_tokens, parseInstructionEn, hinput, hstrdup, hstrtok,
    Option.bind_eq_bind, Option.bind_some]
  cases hcuts with
  | done saved hnone =>
      simp only [hnone]
      rfl
  | cut h'' start saved token rest htokens hlength htoken hrest hstart hsaved hkeeps =>
      have hvacia : Copias e.heap.blocks.length h'' [] [] := .nil
      obtain ⟨e', params, hloop, hcopias, hkeepsLoop, bytes, hlive⟩ :=
        copiarParams_eq (linea.length + 1) (e := { heap := h'', olds := some saved })
          ⟨saved, rfl, hsaved, hrest⟩ (by omega) hvacia
      obtain ⟨libre, hfree, hfreeKeeps⟩ := Heap.free_eq (p := ⟨e.heap.blocks.length, 0⟩) rfl hlive
      have hkeepsAll : Heap.Keeps e.heap.blocks.length e.heap libre :=
        (((hcopiaKeeps e.heap.blocks.length).trans hkeeps).trans hkeepsLoop).trans hfreeKeeps
      have hcopias' := (hcopias.keeps hfreeKeeps).map_cstring
      rw [List.nil_append] at hcopias'
      simp only [htokens, stringToOpCodeEn, Option.bind_eq_bind, Option.bind_some, htoken,
        hloop, hfree]
      refine ⟨_, _, rfl, rfl, hcopias', ?_, fun b hb => hkeepsAll.others b hb (by omega)⟩
      have hlength := congrArg List.length hcopias'
      simp only [List.length_map] at hlength
      rw [hlength]

/-! ## Printed lines -/

/-- A name or a parameter as it can be written in a script. -/
abbrev Palabra : Type :=
  { texto : List Char // texto ≠ [] ∧ ' ' ∉ texto ∧ '\x00' ∉ texto }

/-- An operation and its parameters, with the blanks around them: `antes` and
`despues`, and in front of each parameter one more than its number. -/
structure Linea where
  antes : Nat
  name : Palabra
  params : List (Nat × Palabra)
  despues : Nat

/-- The parameters without the blanks. -/
def Linea.textos (l : Linea) : List (List Char) :=
  l.params.map (fun param => param.2.val)

/-- The line as it is written. -/
def Linea.texto (l : Linea) : List Char :=
  List.replicate l.antes ' ' ++
    (l.name.val ++ (spaced ' ' (l.params.map (fun param => (param.1, param.2.val))) ++
      List.replicate l.despues ' '))

theorem esEspacio_of_notMem
    {texto : List Char}
    (htexto : ' ' ∉ texto) :
    ∀ c ∈ texto, esEspacio c = false := by
  intro c hc
  have hne : c ≠ ' ' := fun heq => htexto (heq ▸ hc)
  simpa [esEspacio] using hne

theorem Linea.tokens_texto (l : Linea) :
    tokens esEspacio l.texto = l.name.val :: l.textos := by
  have hpieces : ∀ piece ∈ l.params.map (fun param => (param.1, param.2.val)),
      piece.2 ≠ [] ∧ ∀ c ∈ piece.2, esEspacio c = false := by
    intro piece hpiece
    obtain ⟨param, _, rfl⟩ := List.mem_map.mp hpiece
    exact ⟨param.2.property.1, esEspacio_of_notMem param.2.property.2.1⟩
  unfold texto textos
  rw [tokens_replicate_append rfl, tokens_append_spaced rfl _ hpieces,
    tokens_singleton l.name.property.1 (esEspacio_of_notMem l.name.property.2.1), List.map_map]
  rfl

/-- Parsing undoes printing. -/
theorem Linea.parseInstruction_texto (l : Linea) :
    parseInstruction l.texto =
      some { name := stringToOpCode l.name.val, params := l.textos } := by
  rw [parseInstruction, strtok_eq_tokens, l.tokens_texto]

/-- Every parameter takes a character at least. -/
theorem Linea.length_params_le (l : Linea) :
    l.params.length ≤ l.texto.length := by
  have hspaced := length_le_length_spaced ' '
    (l.params.map (fun param => (param.1, param.2.val)))
  rw [List.length_map] at hspaced
  simp only [texto, List.length_append]
  omega

/-- Every line made of a name and parameters parses to them, whatever the blanks:
the name gives its own code or `-1`, the parameters are copied in order and counted
in 32 bits, which is exact for any line whose size fits in an `int`, and no memory
that was there before changes. -/
theorem line_parses_to_its_tokens
    (l : Linea) (input : Ptr) (e : Store Char)
    (hinput : e.heap.cstring '\x00' input = some l.texto) :
    Function.Injective OpCode.codigo ∧
      ∃ e' instruction, parseInstructionEn input e = some (e', instruction) ∧
        (∀ op : OpCode, op.mnemonico = some l.name.val → instruction.name = op) ∧
        ((∀ op : OpCode, op.mnemonico ≠ some l.name.val) → instruction.name.codigo = -1) ∧
        instruction.params.map (fun p => e'.heap.cstring '\x00' p) = l.textos.map some ∧
        instruction.paramsCount = UInt32.ofNat l.params.length ∧
        (l.texto.length < 2 ^ 31 → instruction.paramsCount.toNat = l.params.length) ∧
        ∀ b, b < e.heap.blocks.length → e'.heap.block b = e.heap.block b := by
  have hparse := parseInstructionEn_eq hinput
  rw [l.parseInstruction_texto] at hparse
  obtain ⟨e', instruction, hinstruction, hrepresenta⟩ := hparse
  have hcount : instruction.paramsCount = UInt32.ofNat l.params.length := by
    have hlength : l.textos.length = l.params.length := List.length_map _
    rw [← hlength]
    exact hrepresenta.paramsCount
  refine ⟨OpCode.codigo_injective, e', instruction, hinstruction, ?_, ?_, hrepresenta.params,
    hcount, ?_, hrepresenta.keeps⟩
  · intro op hop
    rw [hrepresenta.name]
    exact stringToOpCode_mnemonico hop
  · intro hname
    rw [hrepresenta.name]
    simp only [stringToOpCode_desconocida hname]
    rfl
  · intro hlength
    have hle := l.length_params_le
    rw [hcount]
    exact UInt32.toNat_ofNat_of_lt' (by simp [UInt32.size]; omega)

/-- `SET  AX 1` after a blank, alone in memory. -/
theorem line_parses_to_its_tokens_set :
    Function.Injective OpCode.codigo ∧
      ∃ e' instruction,
        parseInstructionEn { block := 0, offset := 0 }
            { heap := { blocks := [some " SET  AX 1\x00".toList] }, olds := none } =
          some (e', instruction) ∧
        (∀ op : OpCode, op.mnemonico = some "SET".toList → instruction.name = op) ∧
        ((∀ op : OpCode, op.mnemonico ≠ some "SET".toList) → instruction.name.codigo = -1) ∧
        instruction.params.map (fun p => e'.heap.cstring '\x00' p) =
          [some "AX".toList, some "1".toList] ∧
        instruction.paramsCount = 2 ∧
        (10 < 2 ^ 31 → instruction.paramsCount.toNat = 2) ∧
        ∀ b, b < 1 → e'.heap.block b =
          Heap.block { blocks := [some " SET  AX 1\x00".toList] } b :=
  line_parses_to_its_tokens
    { antes := 1
      name := ⟨"SET".toList, by decide⟩
      params := [(1, ⟨"AX".toList, by decide⟩), (0, ⟨"1".toList, by decide⟩)]
      despues := 0 }
    { block := 0, offset := 0 }
    { heap := { blocks := [some " SET  AX 1\x00".toList] }, olds := none }
    (by decide)

end Cpu
end SinIdeas
