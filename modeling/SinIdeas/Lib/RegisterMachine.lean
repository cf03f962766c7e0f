import Mathlib.Algebra.Group.Nat.Defs
import Mathlib.Logic.Function.Basic

/-!
# A register machine

Straight-line arithmetic on named registers with a conditional jump. Registers and
the program counter are natural numbers below `2 ^ w`: addition is modulo `2 ^ w`,
subtraction stops at 0.
-/

namespace SinIdeas
namespace Lib
namespace RegisterMachine

universe u

variable {ρ : Type u}

/-- An instruction over registers named by `ρ`; `skip` is anything that changes no
register. -/
inductive Instr (ρ : Type u) where
  | set (r : ρ) (value : Nat)
  | sum (destiny origin : ρ)
  | sub (destiny origin : ρ)
  | jnz (r : ρ) (line : Nat)
  | skip
  deriving DecidableEq

/-- The program counter and the registers. -/
@[ext] structure State (ρ : Type u) where
  pc : Nat
  regs : ρ → Nat

/-- The state in which a program starts. -/
def start : State ρ where
  pc := 0
  regs := fun _ => 0

variable [DecidableEq ρ] (w : Nat)

/-- Write a register and go to the next line. -/
def State.write (m : State ρ) (r : ρ) (value : Nat) : State ρ where
  pc := (m.pc + 1) % 2 ^ w
  regs := Function.update m.regs r value

/-- What an instruction does. -/
def Instr.apply (m : State ρ) : Instr ρ → State ρ
  | .set r value => m.write w r value
  | .sum destiny origin => m.write w destiny ((m.regs destiny + m.regs origin) % 2 ^ w)
  | .sub destiny origin => m.write w destiny (m.regs destiny - m.regs origin)
  | .jnz r line => { m with pc := if m.regs r ≠ 0 then line else (m.pc + 1) % 2 ^ w }
  | .skip => { m with pc := (m.pc + 1) % 2 ^ w }

/-- One step of a program, as long as there is a line. -/
def step (program : List (Instr ρ)) (m : State ρ) : Option (State ρ) :=
  (program[m.pc]?).map (Instr.apply w m)

end RegisterMachine
end Lib
end SinIdeas
