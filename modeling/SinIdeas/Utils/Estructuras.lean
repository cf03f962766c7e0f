import SinIdeas.Lib.LittleEndian

/-!
# Structures shared by the modules of the system

The states of a thread, the registers that travel between memoria and the CPU
and the execution context that carries them, with its serialization.
-/

namespace SinIdeas

open Lib

/-- `t_state`: the states of a thread or of a process. -/
inductive State where
  | new
  | ready
  | running
  | blocked
  | exit
  deriving DecidableEq

/-- The number of an enumerator of `t_state`. -/
def State.code : State → UInt32
  | .new => 0
  | .ready => 1
  | .running => 2
  | .blocked => 3
  | .exit => 4

/-- The enumerator with a number; other numbers are no state. -/
def State.ofCode (n : UInt32) : Option State :=
  if n = 0 then some .new
  else if n = 1 then some .ready
  else if n = 2 then some .running
  else if n = 3 then some .blocked
  else if n = 4 then some .exit
  else none

@[simp] theorem State.ofCode_code (s : State) : State.ofCode s.code = some s := by
  cases s <;> rfl

/-- `t_register`: the registers of a thread and the region of its process. -/
structure Register where
  pc : UInt32
  ax : UInt32
  bx : UInt32
  cx : UInt32
  dx : UInt32
  ex : UInt32
  fx : UInt32
  gx : UInt32
  hx : UInt32
  limite : UInt32
  base : UInt32
  deriving DecidableEq

/-- `t_execution_context`: what the CPU receives to run a thread. -/
structure ExecutionContext where
  tid : UInt32
  pid : UInt32
  estado : State
  registers : Register
  tamanioProceso : UInt32
  deriving DecidableEq

/-- The bytes of a `t_register`, in the order of its fields. -/
def Register.bytes (r : Register) : List UInt8 :=
  encode32 r.pc ++ (encode32 r.ax ++ (encode32 r.bx ++ (encode32 r.cx ++
    (encode32 r.dx ++ (encode32 r.ex ++ (encode32 r.fx ++ (encode32 r.gx ++
      (encode32 r.hx ++ (encode32 r.limite ++ encode32 r.base)))))))))

/-- The `t_register` at the front of a buffer. -/
def Register.ofBytes (l : List UInt8) : Option Register := do
  let (pc, l) ← take32 l
  let (ax, l) ← take32 l
  let (bx, l) ← take32 l
  let (cx, l) ← take32 l
  let (dx, l) ← take32 l
  let (ex, l) ← take32 l
  let (fx, l) ← take32 l
  let (gx, l) ← take32 l
  let (hx, l) ← take32 l
  let (limite, l) ← take32 l
  let base ← decode32 l
  some { pc, ax, bx, cx, dx, ex, fx, gx, hx, limite, base }

/-- `serialize_execution_context`. -/
def serializeExecutionContext (c : ExecutionContext) : List UInt8 :=
  encode32 c.tid ++ (encode32 c.pid ++ (encode32 c.estado.code ++
    (encode32 c.tamanioProceso ++ c.registers.bytes)))

/-- `deserialize_execution_context`; `none` when the buffer is too short or the
third word is no state. -/
def deserializeExecutionContext (l : List UInt8) : Option ExecutionContext := do
  let (tid, l) ← take32 l
  let (pid, l) ← take32 l
  let (estado, l) ← take32 l
  let (tamanioProceso, l) ← take32 l
  let registers ← Register.ofBytes l
  let estado ← State.ofCode estado
  some { tid, pid, estado, registers, tamanioProceso }

@[simp] theorem Register.ofBytes_bytes
    (r : Register) :
    Register.ofBytes r.bytes = some r := by
  have hbase : decode32 (encode32 r.base) = some r.base := by
    simpa using decode32_encode32 r.base []
  unfold Register.ofBytes Register.bytes
  -- the ten fields before the last one, each at the front of what is left
  iterate 10 refine Option.bind_eq_some_iff.mpr ⟨_, take32_encode32 _ _, ?_⟩
  exact Option.bind_eq_some_iff.mpr ⟨_, hbase, rfl⟩

/-- A context survives being sent. -/
@[simp] theorem deserialize_serialize_executionContext
    (c : ExecutionContext) :
    deserializeExecutionContext (serializeExecutionContext c) = some c := by
  simp [deserializeExecutionContext, serializeExecutionContext]

end SinIdeas
