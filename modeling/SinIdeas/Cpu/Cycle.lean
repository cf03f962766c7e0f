import SinIdeas.Cpu.Instructions

/-!
# The instruction cycle

`fetch`, `decode_and_execute` and the loop of `execute_instruction_cycle`. The CPU
talks to memoria through the port of the instructions and to the kernel by
appending messages to the dispatch connection. The interruption flag is read
once after every instruction that neither faults nor calls the kernel; the value
it has there is an input of the loop.
-/

namespace SinIdeas
namespace Cpu

open Memoria (Peticion Respuesta)

/-- The two connections of the CPU: whoever answers for memoria, and the messages
sent to the kernel. -/
structure Conexiones (μ : Type) where
  memoria : μ
  kernel : List (Mensaje UInt32)
  deriving DecidableEq

/-- The numbers of `defines.h`. -/
def Retorno.codigo : Retorno → Int
  | .continueInstruction => 1
  | .syscallInstruction => -1
  | .segFault => -2

/-- `receive_instruction`; an error has no line, and the CPU waits for one. -/
def lineaDe : Respuesta → Option (List Char)
  | .instruccion linea => some linea
  | _ => none

/-- A parameter, without the end of line; `none` for one that the line lacks,
whose pointer is not initialized. -/
def Instruction.param (instruction : Instruction) (i : Nat) : Option (List Char) :=
  (instruction.params[i]?).map quitarSalto

variable {μ : Type} (pedir : μ → Peticion → Option (μ × Respuesta))

/-- `fetch`: the PC advances when the line has arrived. -/
def fetch (c : ExecutionContext) (s : Conexiones μ) :
    Option (Conexiones μ × ExecutionContext × List Char) := do
  let (m, r) ← pedir s.memoria (.instructionRequest c.pid c.tid c.registers.pc)
  let linea ← lineaDe r
  some ({ s with memoria := m },
    { c with registers := { c.registers with pc := c.registers.pc + 1 } }, linea)

/-- What a case of the `switch` does: compute new registers, access the user memory,
send a syscall, or nothing for an operation that does not exist. -/
inductive Accion where
  | registros (r : Register)
  | readMem (param1 param2 : List Char)
  | writeMem (param1 param2 : List Char)
  | syscall (mensaje : Mensaje UInt32)
  | desconocida
  deriving DecidableEq

/-- The `switch` of `decode_and_execute`. -/
def decode (instruction : Instruction) (c : ExecutionContext) : Option Accion :=
  match instruction.name with
  | .set => do
      let param1 ← instruction.param 0
      let param2 ← instruction.param 1
      some (.registros (setInstruction param1 param2 c.registers))
  | .sum => do
      let param1 ← instruction.param 0
      let param2 ← instruction.param 1
      some (.registros (sumInstruction param1 param2 c.registers))
  | .sub => do
      let param1 ← instruction.param 0
      let param2 ← instruction.param 1
      some (.registros (subInstruction param1 param2 c.registers))
  | .log => do
      let _ ← instruction.param 0
      some (.registros c.registers)
  | .jnz => do
      let param1 ← instruction.param 0
      let param2 ← instruction.param 1
      some (.registros (jnzInstruction param1 param2 c.registers))
  | .readMem => do
      let param1 ← instruction.param 0
      let param2 ← instruction.param 1
      some (.readMem param1 param2)
  | .writeMem => do
      let param1 ← instruction.param 0
      let param2 ← instruction.param 1
      some (.writeMem param1 param2)
  | .dumpMemory => some (.syscall (.dumpMemory c.pid c.tid))
  | .io => do
      let param1 ← instruction.param 0
      some (.syscall (.io (castingCharToUint32 param1)))
  | .processCreate => do
      let param1 ← instruction.param 0
      let param2 ← instruction.param 1
      let param3 ← instruction.param 2
      some (.syscall (.processCreate param1 (castingCharToUint32 param2)
        (castingCharToUint32 param3)))
  | .threadCreate => do
      let param1 ← instruction.param 0
      let param2 ← instruction.param 1
      some (.syscall (.threadCreate param1 (castingCharToUint32 param2)))
  | .threadJoin => do
      let param1 ← instruction.param 0
      some (.syscall (.threadJoin (castingCharToUint32 param1)))
  | .threadCancel => do
      let param1 ← instruction.param 0
      some (.syscall (.threadCancel (castingCharToUint32 param1)))
  | .mutexCreate => do
      let param1 ← instruction.param 0
      some (.syscall (.mutexCreate param1 c.tid))
  | .mutexLock => do
      let param1 ← instruction.param 0
      some (.syscall (.mutexLock param1 c.tid))
  | .mutexUnlock => do
      let param1 ← instruction.param 0
      some (.syscall (.mutexUnlock param1 c.tid))
  | .threadExit => some (.syscall (.threadExit c.tid))
  | .processExit => some (.syscall (.processExit c.tid))
  | .desconocida => some .desconocida

/-- A case of the `switch`, and the number it returns: a syscall stores the context
before the kernel hears of it, and the default case returns `-1` without a message. -/
def Accion.execute (c : ExecutionContext) (s : Conexiones μ) :
    Accion → Option (Conexiones μ × ExecutionContext × Int)
  | .registros r => some (s, { c with registers := r }, Retorno.continueInstruction.codigo)
  | .readMem param1 param2 => do
      let (m, c, retorno) ← readMemInstruction pedir param1 param2 c s.memoria
      some ({ s with memoria := m }, c, retorno.codigo)
  | .writeMem param1 param2 => do
      let (m, c, retorno) ← writeMemInstruction pedir param1 param2 c s.memoria
      some ({ s with memoria := m }, c, retorno.codigo)
  | .syscall mensaje => do
      let m ← updateExecutionContext pedir c s.memoria
      some ({ memoria := m, kernel := s.kernel ++ [mensaje] }, c,
        Retorno.syscallInstruction.codigo)
  | .desconocida => some (s, c, -1)

/-- `decode_and_execute`. -/
def decodeAndExecute (linea : List Char) (c : ExecutionContext) (s : Conexiones μ) :
    Option (Conexiones μ × ExecutionContext × Int) := do
  let instruction ← parseInstruction linea
  let accion ← decode instruction c
  accion.execute pedir c s

/-- `send_dispatch_return`. -/
def sendDispatchReturn (mensaje : Mensaje UInt32) (s : Conexiones μ) : Conexiones μ :=
  { s with kernel := s.kernel ++ [mensaje] }

/-- One round of the loop, with the value that the interruption flag has when it is
checked; no context is left when the loop ends. -/
def vuelta (interrupcion : Bool) (c : ExecutionContext) (s : Conexiones μ) :
    Option (Conexiones μ × Option ExecutionContext) := do
  let (s, c, linea) ← fetch pedir c s
  let (s, c, decodeValue) ← decodeAndExecute pedir linea c s
  if decodeValue = Retorno.segFault.codigo then
    some (sendDispatchReturn (.segmentationFault c.tid c.pid) s, none)
  else if decodeValue = Retorno.syscallInstruction.codigo then
    some (s, none)
  else if interrupcion then do
    let m ← updateExecutionContext pedir c s.memoria
    some (sendDispatchReturn (.kernelInterruption c.tid c.pid) { s with memoria := m }, none)
  else
    some (s, some c)

/-- `execute_instruction_cycle`, for as many rounds as there are values of the flag:
the context it is working with, or none once it has returned. -/
def executeInstructionCycle :
    List Bool → ExecutionContext → Conexiones μ →
      Option (Conexiones μ × Option ExecutionContext)
  | [], c, s => some (s, some c)
  | interrupcion :: flags, c, s => do
      let (s, c') ← vuelta pedir interrupcion c s
      match c' with
      | none => some (s, none)
      | some c => executeInstructionCycle flags c s

/-- DISPATCH in `handle_client_cpu_dispatch`, up to the instruction cycle. -/
def pedirContexto (pid tid : UInt32) (m : μ) : Option (μ × ExecutionContext) := do
  let (m, r) ← pedir m (.executionContext pid tid)
  match r with
  | .contexto c => do
      let c ← deserializeExecutionContext (serializeExecutionContext c)
      some (m, c)
  | _ => none

end Cpu
end SinIdeas
