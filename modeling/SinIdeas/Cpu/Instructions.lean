import SinIdeas.Cpu.Parse
import SinIdeas.Memoria.Requests
import SinIdeas.Utils.Mensajes

/-!
# Instructions of the CPU

The functions of `instructions.c` and `mmu.c`. The CPU talks to memoria through
a port: `pedir m p` sends the request `p` and returns the answer, together with
the state of whoever answers. `none` stands for behaviour the source does not
define.
-/

namespace SinIdeas
namespace Cpu

open Memoria (Peticion Respuesta)

/-- What `decode_and_execute` returns: `CONTINUE_INSTRUCTION`,
`SYSCALL_INSTRUCTION` or `SEG_FAULT`. -/
inductive Retorno where
  | continueInstruction
  | syscallInstruction
  | segFault
  deriving DecidableEq

/-- `SEG_FAULT`, as the address that `translate_address` returns. -/
def segFault : Int32 := -2

/-- `get_register_value`; an invalid register reads as `-1`. -/
def getRegisterValue (r : Register) : RegisterName → UInt32
  | .pc => r.pc
  | .ax => r.ax
  | .bx => r.bx
  | .cx => r.cx
  | .dx => r.dx
  | .ex => r.ex
  | .fx => r.fx
  | .gx => r.gx
  | .hx => r.hx
  | .invalidRegister => 4294967295

/-- `set_value`; an invalid register is only logged. -/
def setValue (r : Register) (value : UInt32) : RegisterName → Register
  | .pc => { r with pc := value }
  | .ax => { r with ax := value }
  | .bx => { r with bx := value }
  | .cx => { r with cx := value }
  | .dx => { r with dx := value }
  | .ex => { r with ex := value }
  | .fx => { r with fx := value }
  | .gx => { r with gx := value }
  | .hx => { r with hx := value }
  | .invalidRegister => r

/-- `set_instruction`. -/
def setInstruction (param1 param2 : List Char) (r : Register) : Register :=
  setValue r (castingCharToUint32 param2) (returnRegister param1)

/-- `sum_instruction`. -/
def sumInstruction (param1 param2 : List Char) (r : Register) : Register :=
  let destiny := getRegisterValue r (returnRegister param1)
  let origin := getRegisterValue r (returnRegister param2)
  setValue r (destiny + origin) (returnRegister param1)

/-- `sub_instruction`. -/
def subInstruction (param1 param2 : List Char) (r : Register) : Register :=
  let destiny := getRegisterValue r (returnRegister param1)
  let origin := getRegisterValue r (returnRegister param2)
  setValue r (if destiny < origin then 0 else destiny - origin) (returnRegister param1)

/-- `jnz_instruction`. -/
def jnzInstruction (param1 param2 : List Char) (r : Register) : Register :=
  if getRegisterValue r (returnRegister param1) ≠ 0 then
    { r with pc := castingCharToUint32 param2 }
  else
    r

section Port

variable {μ : Type} (pedir : μ → Peticion → Option (μ × Respuesta))

/-- `update_execution_context`: the context travels serialized. -/
def updateExecutionContext (c : ExecutionContext) (m : μ) : Option μ := do
  let c' ← deserializeExecutionContext (serializeExecutionContext c)
  let (m', _) ← pedir m (.executionContextUpdate c'.pid c'.tid c'.registers)
  some m'

/-- `translate_address`: the address is compared with LIMITE before BASE is
added; the context is stored when the comparison fails. -/
def translateAddress (c : ExecutionContext) (logicalAddress : UInt32) (m : μ) :
    Option (μ × Int32) :=
  if c.registers.limite ≤ logicalAddress then do
    let m' ← updateExecutionContext pedir c m
    some (m', segFault)
  else
    some (m, (c.registers.base + logicalAddress).toInt32)

/-- `write_mem_instruction`. -/
def writeMemInstruction (param1 param2 : List Char) (c : ExecutionContext) (m : μ) :
    Option (μ × ExecutionContext × Retorno) := do
  let valueToWrite := getRegisterValue c.registers (returnRegister param2)
  let direccionLogica := getRegisterValue c.registers (returnRegister param1)
  let (m, physicalDirection) ← translateAddress pedir c direccionLogica m
  if physicalDirection = segFault then
    some (m, c, .segFault)
  else do
    let (m, _) ← pedir m (.writeMemRequest physicalDirection.toUInt32 valueToWrite)
    some (m, c, .continueInstruction)

/-- The word of an answer to a read. -/
def datoDe : Respuesta → Option UInt32
  | .dato valor => some valor
  | _ => none

/-- `read_mem_instruction`. -/
def readMemInstruction (param1 param2 : List Char) (c : ExecutionContext) (m : μ) :
    Option (μ × ExecutionContext × Retorno) := do
  let direccionLogica := getRegisterValue c.registers (returnRegister param2)
  let (m, physicalDirection) ← translateAddress pedir c direccionLogica m
  if physicalDirection = segFault then
    some (m, c, .segFault)
  else do
    let (m, r) ← pedir m (.readMemRequest physicalDirection.toUInt32)
    let readValue ← datoDe r
    some (m, { c with registers := setValue c.registers readValue (returnRegister param1) },
      .continueInstruction)

end Port

end Cpu
end SinIdeas
