import SinIdeas.Utils.Estructuras

/-!
# Reading a line of pseudocode

`parse_instruction` splits the line into tokens, the first one names the
operation. Register names and numbers are read from the parameters.
-/

namespace SinIdeas
namespace Cpu

/-- The operation codes that name an instruction. -/
inductive OpCode where
  | set
  | sum
  | sub
  | readMem
  | writeMem
  | jnz
  | log
  | mutexCreate
  | mutexLock
  | mutexUnlock
  | dumpMemory
  | io
  | processCreate
  | threadCreate
  | threadCancel
  | threadJoin
  | threadExit
  | processExit
  | desconocida
  deriving DecidableEq

/-- `t_register_name`. -/
inductive RegisterName where
  | pc
  | ax
  | bx
  | cx
  | dx
  | ex
  | fx
  | gx
  | hx
  | invalidRegister
  deriving DecidableEq

/-- `strtok` with the blank as delimiter, until it returns `NULL`. -/
def strtok (s : List Char) : List (List Char) :=
  (s.splitOn ' ').filter (fun token => !token.isEmpty)

/-- `string_to_op_code`. -/
def stringToOpCode (name : List Char) : OpCode :=
  if name = "SET".toList then .set
  else if name = "SUM".toList then .sum
  else if name = "SUB".toList then .sub
  else if name = "READ_MEM".toList then .readMem
  else if name = "WRITE_MEM".toList then .writeMem
  else if name = "JNZ".toList then .jnz
  else if name = "LOG".toList then .log
  else if name = "MUTEX_CREATE".toList then .mutexCreate
  else if name = "MUTEX_LOCK".toList then .mutexLock
  else if name = "MUTEX_UNLOCK".toList then .mutexUnlock
  else if name = "DUMP_MEMORY".toList then .dumpMemory
  else if name = "IO".toList then .io
  else if name = "PROCESS_CREATE".toList then .processCreate
  else if name = "THREAD_CREATE".toList then .threadCreate
  else if name = "THREAD_CANCEL".toList then .threadCancel
  else if name = "THREAD_JOIN".toList then .threadJoin
  else if name = "THREAD_EXIT".toList then .threadExit
  else if name = "PROCESS_EXIT".toList then .processExit
  else .desconocida

/-- `t_instruction`: the operation and its parameters. -/
structure Instruction where
  name : OpCode
  params : List (List Char)
  deriving DecidableEq

/-- `parse_instruction`; `none` for a line without tokens, whose name is `NULL`. -/
def parseInstruction (input : List Char) : Option Instruction :=
  match strtok input with
  | [] => none
  | name :: params => some { name := stringToOpCode name, params }

/-- Drop one end of line at the end of a parameter. -/
def quitarSalto (param : List Char) : List Char :=
  if param.getLast? = some '\n' then param.dropLast else param

/-- `return_register`. -/
def returnRegister (reg : List Char) : RegisterName :=
  let reg := quitarSalto reg
  if reg = "AX".toList then .ax
  else if reg = "BX".toList then .bx
  else if reg = "CX".toList then .cx
  else if reg = "DX".toList then .dx
  else if reg = "EX".toList then .ex
  else if reg = "FX".toList then .fx
  else if reg = "GX".toList then .gx
  else if reg = "HX".toList then .hx
  else .invalidRegister

/-- The blanks that `strtoul` skips. -/
def esBlanco (c : Char) : Bool :=
  c = ' ' || c = '\t' || c = '\n' || c = '\r' || c = '\x0b' || c = '\x0c'

/-- The value of the decimal digits at the front. -/
def valorDecimal (acc : Nat) : List Char → Nat
  | [] => acc
  | c :: s => if c.isDigit then valorDecimal (10 * acc + (c.toNat - '0'.toNat)) s else acc

/-- `strtoul(s, NULL, 10)`, an `unsigned long`: 64 bits, saturated, and negated
after a minus sign. -/
def strtoul (s : List Char) : Nat :=
  match s.dropWhile esBlanco with
  | '-' :: digits =>
      let v := valorDecimal 0 digits
      if v < 2 ^ 64 then (2 ^ 64 - v) % 2 ^ 64 else 2 ^ 64 - 1
  | '+' :: digits => min (valorDecimal 0 digits) (2 ^ 64 - 1)
  | digits => min (valorDecimal 0 digits) (2 ^ 64 - 1)

/-- `casting_char_to_uint32_t`: the number kept in a 32-bit word. -/
def castingCharToUint32 (param : List Char) : UInt32 := UInt32.ofNat (strtoul param)

example : parseInstruction "SET  AX 4294967297".toList =
    some { name := .set, params := ["AX".toList, "4294967297".toList] } := by decide

example : castingCharToUint32 "4294967297".toList = 1 := by decide

end Cpu
end SinIdeas
