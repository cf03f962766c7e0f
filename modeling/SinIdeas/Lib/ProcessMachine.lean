import SinIdeas.Lib.FirstMatch
import SinIdeas.Lib.LittleEndian
import SinIdeas.Lib.RegisterMachine

/-!
# A process with a memory of its own

Several threads, each a register machine with its program, and one byte memory that
they share and nobody else sees. A load or a store addresses the memory from 0; one
whose word is not inside the memory changes nothing but the program counter. The
machine takes events: a thread runs one line, a thread is created, a thread ends.
-/

namespace SinIdeas
namespace Lib
namespace ProcessMachine

universe u v

/-- The word of `k` bytes at an address, if it is inside the memory. -/
def wordIn (k : Nat) (bytes : List UInt8) (address : Nat) : Option Nat :=
  if address + k ≤ bytes.length then some (leValue ((bytes.drop address).take k)) else none

/-- The memory after a word is stored, if it is inside the memory. -/
def putWord (k : Nat) (bytes : List UInt8) (address value : Nat) : Option (List UInt8) :=
  if address + k ≤ bytes.length then
    some (bytes.take address ++ leBytes k value ++ bytes.drop (address + k))
  else
    none

section Words

variable {k base size address : Nat} {bytes : List UInt8}

theorem wordIn_window
    (hfits : address + k ≤ size)
    (hsize : base + size ≤ bytes.length) :
    wordIn k ((bytes.drop base).take size) address = wordIn k bytes (base + address) := by
  have hwindow : address + k ≤ ((bytes.drop base).take size).length := by
    rw [List.length_take, List.length_drop]
    omega
  rw [wordIn, wordIn, if_pos hwindow, if_pos (by omega), List.drop_take, List.drop_drop,
    List.take_take, Nat.min_eq_left (by omega)]

/-- A word is stored in a window of the memory by storing it in the memory. -/
theorem putWord_window
    (value : Nat)
    (hfits : address + k ≤ size)
    (hsize : base + size ≤ bytes.length) :
    putWord k ((bytes.drop base).take size) address value =
      (putWord k bytes (base + address) value).map (fun b => (b.drop base).take size) := by
  have hwindow : address + k ≤ ((bytes.drop base).take size).length := by
    rw [List.length_take, List.length_drop]
    omega
  rw [putWord, putWord, if_pos hwindow, if_pos (by omega), Option.map_some]
  refine congrArg some (List.ext_getElem? (fun i => ?_))
  have hleft : (bytes.take (base + address)).length = base + address := by
    rw [List.length_take]
    omega
  simp only [List.getElem?_append, List.getElem?_take, List.getElem?_drop, List.length_append,
    List.length_take, List.length_drop, length_leBytes]
  grind

/-- A word stored outside a window leaves it as it is. -/
theorem putWord_window_of_apart
    {value : Nat} {bytes' : List UInt8}
    (hput : putWord k bytes address value = some bytes')
    (hapart : address + k ≤ base ∨ base + size ≤ address) :
    (bytes'.drop base).take size = (bytes.drop base).take size := by
  unfold putWord at hput
  split_ifs at hput with hfits
  obtain rfl := Option.some.inj hput
  refine List.ext_getElem? (fun i => ?_)
  simp only [List.getElem?_append, List.getElem?_take, List.getElem?_drop, List.length_append,
    List.length_take, length_leBytes]
  grind

theorem length_putWord
    {value : Nat} {bytes' : List UInt8}
    (hput : putWord k bytes address value = some bytes') :
    bytes'.length = bytes.length := by
  unfold putWord at hput
  split_ifs at hput with hfits
  obtain rfl := Option.some.inj hput
  simp only [List.length_append, List.length_take, List.length_drop, length_leBytes]
  omega

/-- What was stored is read back. -/
theorem wordIn_putWord
    {value : Nat} {bytes' : List UInt8}
    (hput : putWord k bytes address value = some bytes') :
    wordIn k bytes' address = some (value % 256 ^ k) := by
  have hlength := length_putWord hput
  unfold putWord at hput
  split_ifs at hput with hfits
  have hword : (bytes'.drop address).take k = leBytes k value := by
    obtain rfl := Option.some.inj hput
    have haddress : (bytes.take address).length = address := by
      rw [List.length_take]
      omega
    rw [List.append_assoc, List.drop_left' haddress, List.take_left' (length_leBytes k value)]
  rw [wordIn, if_pos (by omega), hword, leValue_leBytes]

/-- The other words stay. -/
theorem wordIn_putWord_of_apart
    {value other : Nat} {bytes' : List UInt8}
    (hput : putWord k bytes address value = some bytes')
    (hapart : address + k ≤ other ∨ other + k ≤ address) :
    wordIn k bytes' other = wordIn k bytes other := by
  rw [wordIn, wordIn, length_putWord hput, putWord_window_of_apart hput hapart]

theorem exists_putWord
    (value : Nat)
    (hfits : address + k ≤ bytes.length) :
    ∃ bytes', putWord k bytes address value = some bytes' :=
  ⟨_, if_pos hfits⟩

end Words

/-- An instruction of a register machine, or a word of the memory into a register or back. -/
inductive Instr (ρ : Type u) where
  | base (i : RegisterMachine.Instr ρ)
  | load (destiny address : ρ)
  | store (address origin : ρ)
  deriving DecidableEq

/-- The register that addresses the memory. -/
def Instr.address? {ρ : Type u} : Instr ρ → Option ρ
  | .base _ => none
  | .load _ address => some address
  | .store address _ => some address

section Machine

variable {ρ : Type u} [DecidableEq ρ]

/-- What an instruction does to the registers of its thread and to the memory. -/
def Instr.apply (w k : Nat) (m : RegisterMachine.State ρ) (bytes : List UInt8) :
    Instr ρ → RegisterMachine.State ρ × List UInt8
  | .base i => (i.apply w m, bytes)
  | .load destiny address =>
      match wordIn k bytes (m.regs address) with
      | some value => (m.write w destiny value, bytes)
      | none => (RegisterMachine.Instr.skip.apply w m, bytes)
  | .store address origin =>
      (RegisterMachine.Instr.skip.apply w m,
        (putWord k bytes (m.regs address) (m.regs origin)).getD bytes)

/-- A thread: its identifier, its program and where it is. -/
structure Thread (ρ : Type u) (ι ν : Type v) where
  id : ι
  program : ν
  state : RegisterMachine.State ρ

/-- The threads of a process, oldest first, and its memory. -/
@[ext] structure State (ρ : Type u) (ι ν : Type v) where
  threads : List (Thread ρ ι ν)
  bytes : List UInt8

/-- What happens to a process. -/
inductive Event (ι ν : Type v) where
  | run (id : ι)
  | create (id : ι) (program : ν)
  | exit (id : ι)
  deriving DecidableEq

variable {ι ν : Type v} [DecidableEq ι]

/-- The machine after an event. `code` has the lines of the programs; a thread that is
past the end of its program does nothing. -/
def State.step (w k : Nat) (code : ν → Nat → Option (Instr ρ)) (s : State ρ ι ν) :
    Event ι ν → State ρ ι ν
  | .run id =>
      match s.threads.find? (fun t => t.id == id) with
      | none => s
      | some t =>
          match code t.program t.state.pc with
          | none => s
          | some i =>
              { threads := modifyFirst (fun t => t.id == id)
                  (fun t => { t with state := (i.apply w k t.state s.bytes).1 }) s.threads
                bytes := (i.apply w k t.state s.bytes).2 }
  | .create id program =>
      { s with threads := s.threads ++ [{ id, program, state := RegisterMachine.start }] }
  | .exit id => { s with threads := s.threads.eraseP (fun t => t.id == id) }

end Machine

end ProcessMachine
end Lib
end SinIdeas
