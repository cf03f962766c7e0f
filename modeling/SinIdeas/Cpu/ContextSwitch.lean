import SinIdeas.Cpu.Cycle
import SinIdeas.Lib.Observations
import SinIdeas.Lib.RegisterMachine
import SinIdeas.Memoria.ThreadContext
import SinIdeas.Memoria.Tiling

/-!
# Context switches

A thread runs in slices: memoria hands its registers to the CPU, the CPU executes
some instructions and stores the registers before the kernel hears of a syscall or
of an interruption. In between memoria answers requests for other threads. Seen
through `vista` the thread is a register machine that never stops: the values after
each instruction are those of the uninterrupted machine.
-/

namespace SinIdeas
namespace Cpu

open Lib Memoria
open RegisterMachine (Instr)

/-- The registers that a script can name. -/
inductive Registro where
  | ax
  | bx
  | cx
  | dx
  | ex
  | fx
  | gx
  | hx
  deriving DecidableEq

/-- The name of a register in `t_register_name`. -/
def Registro.name : Registro → RegisterName
  | .ax => .ax
  | .bx => .bx
  | .cx => .cx
  | .dx => .dx
  | .ex => .ex
  | .fx => .fx
  | .gx => .gx
  | .hx => .hx

/-- The register that a parameter names, if it is a valid one. -/
def registroDe (param : List Char) : Option Registro :=
  match returnRegister param with
  | .ax => some .ax
  | .bx => some .bx
  | .cx => some .cx
  | .dx => some .dx
  | .ex => some .ex
  | .fx => some .fx
  | .gx => some .gx
  | .hx => some .hx
  | _ => none

/-- The values of PC and AX..HX. -/
def vistaMem (m : MemRegister) : RegisterMachine.State Registro where
  pc := m.pc.toNat
  regs
    | .ax => m.ax.toNat
    | .bx => m.bx.toNat
    | .cx => m.cx.toNat
    | .dx => m.dx.toNat
    | .ex => m.ex.toNat
    | .fx => m.fx.toNat
    | .gx => m.gx.toNat
    | .hx => m.hx.toNat

/-- The same values in the registers of the CPU. -/
def vista (r : Register) : RegisterMachine.State Registro := vistaMem (MemRegister.ofRegister r)

/-- What a line means: SET, SUM, SUB, LOG and JNZ on valid registers, or a syscall
that does not end the thread and has its parameters. -/
def instrDe (linea : List Char) : Option (Instr Registro) := do
  let instruction ← parseInstruction linea
  match instruction.name with
  | .set => do
      let r ← registroDe (← instruction.param 0)
      let param2 ← instruction.param 1
      some (.set r (castingCharToUint32 param2).toNat)
  | .sum => do
      let destiny ← registroDe (← instruction.param 0)
      let origin ← registroDe (← instruction.param 1)
      some (.sum destiny origin)
  | .sub => do
      let destiny ← registroDe (← instruction.param 0)
      let origin ← registroDe (← instruction.param 1)
      some (.sub destiny origin)
  | .log => do
      let _ ← registroDe (← instruction.param 0)
      some .skip
  | .jnz => do
      let r ← registroDe (← instruction.param 0)
      let param2 ← instruction.param 1
      some (.jnz r (castingCharToUint32 param2).toNat)
  | .dumpMemory => some .skip
  | .io | .threadJoin | .threadCancel | .mutexCreate | .mutexLock | .mutexUnlock => do
      let _ ← instruction.param 0
      some .skip
  | .threadCreate => do
      let _ ← instruction.param 0
      let _ ← instruction.param 1
      some .skip
  | .processCreate => do
      let _ ← instruction.param 0
      let _ ← instruction.param 1
      let _ ← instruction.param 2
      some .skip
  | .readMem | .writeMem | .threadExit | .processExit | .desconocida => none

/-- The registers after the instruction that a round executes. -/
def registrosTras {μ : Type} (pedir : μ → Peticion → Option (μ × Respuesta))
    (c : ExecutionContext) (s : Conexiones μ) : Option Register := do
  let (s, c, linea) ← fetch pedir c s
  let (_, c, _) ← decodeAndExecute pedir linea c s
  some c.registers

/-- A thread seen from outside: memoria, the messages to the kernel, the context if
the CPU is running the thread, and the values observed after each instruction. -/
structure Hilo where
  memoria : Globals
  kernel : List (Mensaje UInt32)
  cpu : Option ExecutionContext
  traza : List (RegisterMachine.State Registro)

/-- The thread before its first dispatch. -/
def Hilo.inicio (g : Globals) (kernel : List (Mensaje UInt32)) : Hilo where
  memoria := g
  kernel := kernel
  cpu := none
  traza := []

/-- What happens next: the kernel dispatches the thread, the CPU executes an
instruction of it with a value of the interruption flag, or memoria answers a
request of somebody else. -/
inductive Suceso where
  | dispatch
  | vuelta (interrupcion : Bool)
  | otra (p : Peticion)
  deriving DecidableEq

/-- One step of the thread `(pid, tid)` and of everybody else. -/
def pasoHilo (cfg : Config) (pid tid : UInt32) (s : Hilo) : Suceso → Option Hilo
  | .dispatch =>
      match s.cpu with
      | some _ => none
      | none => do
          let (g, c) ← pedirContexto (handleClient cfg) pid tid s.memoria
          some { s with memoria := g, cpu := some c }
  | .vuelta interrupcion => do
      let c ← s.cpu
      let conexiones : Conexiones Globals := { memoria := s.memoria, kernel := s.kernel }
      let r ← registrosTras (handleClient cfg) c conexiones
      let (conexiones, c') ← vuelta (handleClient cfg) interrupcion c conexiones
      some {
        memoria := conexiones.memoria
        kernel := conexiones.kernel
        cpu := c'
        traza := s.traza ++ [vista r] }
  | .otra p => do
      let g ← atiende cfg s.memoria p
      some { s with memoria := g }

/-- The requests of the others do not concern the thread. -/
def Ajeno (pid tid : UInt32) (s : Hilo) : Suceso → Prop
  | .otra p => Ajena pid tid s.memoria p
  | _ => True

instance decidableAjeno (pid tid : UInt32) (s : Hilo) : ∀ e, Decidable (Ajeno pid tid s e)
  | .otra p => inferInstanceAs (Decidable (Ajena pid tid s.memoria p))
  | .dispatch => inferInstanceAs (Decidable True)
  | .vuelta _ => inferInstanceAs (Decidable True)

section Instructions

/-- The values of the registers, read by name. -/
theorem regs_vista (r : Register) (a : Registro) :
    (vista r).regs a = (getRegisterValue r a.name).toNat := by
  cases a <;> rfl

theorem vista_setValue (r : Register) (value : UInt32) (a : Registro) :
    vista (setValue r value a.name) =
      { pc := (vista r).pc, regs := Function.update (vista r).regs a value.toNat } := by
  refine RegisterMachine.State.ext ?_ (funext fun b => ?_)
  · cases a <;> rfl
  · cases a <;> cases b <;> rfl

theorem returnRegister_of_registroDe
    {param : List Char} {a : Registro}
    (h : registroDe param = some a) :
    returnRegister param = a.name := by
  cases hr : returnRegister param <;> simp only [registroDe, hr] at h <;> cases h <;> rfl

/-- The registers when the line has arrived. -/
def avanzar (r : Register) : Register := { r with pc := r.pc + 1 }

theorem vista_avanzar (r : Register) :
    vista (avanzar r) = { vista r with pc := ((vista r).pc + 1) % 2 ^ 32 } := by
  refine RegisterMachine.State.ext ?_ rfl
  exact UInt32.toNat_add r.pc 1

theorem vista_set
    {param1 : List Char} {a : Registro}
    (h : registroDe param1 = some a)
    (param2 : List Char) (r : Register) :
    vista (setInstruction param1 param2 (avanzar r)) =
      (Instr.set a (castingCharToUint32 param2).toNat).apply 32 (vista r) := by
  rw [setInstruction, returnRegister_of_registroDe h, vista_setValue, vista_avanzar]
  rfl

theorem vista_sum
    {param1 param2 : List Char} {a b : Registro}
    (h₁ : registroDe param1 = some a)
    (h₂ : registroDe param2 = some b)
    (r : Register) :
    vista (sumInstruction param1 param2 (avanzar r)) =
      (Instr.sum a b).apply 32 (vista r) := by
  simp only [sumInstruction, returnRegister_of_registroDe h₁, returnRegister_of_registroDe h₂]
  rw [vista_setValue, UInt32.toNat_add, ← regs_vista, ← regs_vista, vista_avanzar]
  rfl

theorem vista_sub
    {param1 param2 : List Char} {a b : Registro}
    (h₁ : registroDe param1 = some a)
    (h₂ : registroDe param2 = some b)
    (r : Register) :
    vista (subInstruction param1 param2 (avanzar r)) =
      (Instr.sub a b).apply 32 (vista r) := by
  have htrunc : ∀ x y : UInt32, (if x < y then 0 else x - y).toNat = x.toNat - y.toNat := by
    intro x y
    by_cases hxy : x < y
    · have hlt := UInt32.lt_iff_toNat_lt.mp hxy
      simp only [if_pos hxy, UInt32.toNat_zero]
      omega
    · rw [if_neg hxy]
      exact UInt32.toNat_sub_of_le x y (UInt32.not_lt.mp hxy)
  simp only [subInstruction, returnRegister_of_registroDe h₁, returnRegister_of_registroDe h₂]
  rw [vista_setValue, htrunc, ← regs_vista, ← regs_vista, vista_avanzar]
  rfl

theorem vista_jnz
    {param1 : List Char} {a : Registro}
    (h : registroDe param1 = some a)
    (param2 : List Char) (r : Register) :
    vista (jnzInstruction param1 param2 (avanzar r)) =
      (Instr.jnz a (castingCharToUint32 param2).toNat).apply 32 (vista r) := by
  have hcero : getRegisterValue (avanzar r) a.name ≠ 0 ↔ (vista r).regs a ≠ 0 := by
    have hregs : (vista (avanzar r)).regs a = (vista r).regs a := by
      rw [vista_avanzar]
    rw [← hregs, regs_vista, ne_eq, ne_eq, ← UInt32.toNat_inj]
    rfl
  simp only [jnzInstruction, returnRegister_of_registroDe h, Instr.apply]
  by_cases hnz : (vista r).regs a ≠ 0
  · rw [if_pos (hcero.mpr hnz), if_pos hnz]
    rfl
  · rw [if_neg (fun hne => hnz (hcero.mp hne)), if_neg hnz]
    exact vista_avanzar r

/-- The case of the `switch` has the effect of `i`: it computes its registers, or it is
a syscall where `i` does nothing. -/
def DecodeComo (instruction : Instruction) (c : ExecutionContext) (i : Instr Registro) : Prop :=
  ∃ accion, decode instruction { c with registers := avanzar c.registers } = some accion ∧
    ((∃ r, accion = .registros r ∧ vista r = i.apply 32 (vista c.registers)) ∨
      (i = .skip ∧ ∃ mensaje, accion = .syscall mensaje))

theorem DecodeComo.registros
    {instruction : Instruction} {c : ExecutionContext} {i : Instr Registro} {r : Register}
    (hdecode : decode instruction { c with registers := avanzar c.registers } =
      some (.registros r))
    (hvista : vista r = i.apply 32 (vista c.registers)) :
    DecodeComo instruction c i :=
  ⟨_, hdecode, Or.inl ⟨r, rfl, hvista⟩⟩

theorem DecodeComo.syscall
    {instruction : Instruction} {c : ExecutionContext} {mensaje : Mensaje UInt32}
    (hdecode : decode instruction { c with registers := avanzar c.registers } =
      some (.syscall mensaje)) :
    DecodeComo instruction c .skip :=
  ⟨_, hdecode, Or.inr ⟨rfl, mensaje, rfl⟩⟩

/-- A line that means an instruction is decoded to it. -/
theorem decode_of_instrDe
    {linea : List Char} {i : Instr Registro}
    (hi : instrDe linea = some i)
    (c : ExecutionContext) :
    ∃ instruction, parseInstruction linea = some instruction ∧ DecodeComo instruction c i := by
  obtain ⟨instruction, hparse, hi⟩ := Option.bind_eq_some_iff.mp hi
  refine ⟨instruction, hparse, ?_⟩
  cases hname : instruction.name <;>
    simp only [hname, Option.bind_eq_bind, Option.bind_eq_some_iff, Option.some.injEq,
      reduceCtorEq] at hi
  case set =>
      obtain ⟨param1, h1, a, ha, param2, h2, rfl⟩ := hi
      exact DecodeComo.registros (by simp [decode, hname, h1, h2]) (vista_set ha _ _)
  case sum =>
      obtain ⟨param1, h1, a, ha, param2, h2, b, hb, rfl⟩ := hi
      exact DecodeComo.registros (by simp [decode, hname, h1, h2]) (vista_sum ha hb _)
  case sub =>
      obtain ⟨param1, h1, a, ha, param2, h2, b, hb, rfl⟩ := hi
      exact DecodeComo.registros (by simp [decode, hname, h1, h2]) (vista_sub ha hb _)
  case log =>
      obtain ⟨param1, h1, a, ha, rfl⟩ := hi
      exact DecodeComo.registros (by simp [decode, hname, h1]) (vista_avanzar _)
  case jnz =>
      obtain ⟨param1, h1, a, ha, param2, h2, rfl⟩ := hi
      exact DecodeComo.registros (by simp [decode, hname, h1, h2]) (vista_jnz ha _ _)
  case dumpMemory =>
      subst hi
      exact DecodeComo.syscall (by simp only [decode, hname]; rfl)
  case threadCreate =>
      obtain ⟨param1, h1, param2, h2, rfl⟩ := hi
      exact DecodeComo.syscall (by simp only [decode, hname, h1, h2]; rfl)
  case processCreate =>
      obtain ⟨param1, h1, param2, h2, param3, h3, rfl⟩ := hi
      exact DecodeComo.syscall (by simp only [decode, hname, h1, h2, h3]; rfl)
  all_goals
    obtain ⟨param1, h1, rfl⟩ := hi
    exact DecodeComo.syscall (by simp only [decode, hname, h1]; rfl)

end Instructions

section Slices

variable {cfg : Config} {pid tid : UInt32}

theorem updateExecutionContext_handleClient
    (c : ExecutionContext) (g : Globals) :
    updateExecutionContext (handleClient cfg) c g =
      some (actualizarRegistros g c.pid c.tid c.registers) := by
  simp [updateExecutionContext, handleClient]

theorem fetch_handleClient
    {c : ExecutionContext} {s : Conexiones Globals} {linea : List Char}
    (hlinea : obtenerLineaPseudocodigo cfg s.memoria c.pid c.tid c.registers.pc = some linea) :
    fetch (handleClient cfg) c s =
      some (s, { c with registers := avanzar c.registers }, linea) := by
  simp [fetch, handleClient, hlinea, lineaDe, avanzar]

/-- Without a line the CPU waits and the round does not end. -/
theorem vuelta_sin_linea
    {c : ExecutionContext} {s : Conexiones Globals} {interrupcion : Bool}
    (hlinea : obtenerLineaPseudocodigo cfg s.memoria c.pid c.tid c.registers.pc = none) :
    vuelta (handleClient cfg) interrupcion c s = none := by
  simp [vuelta, fetch, handleClient, hlinea, lineaDe]

/-- A round executes the instruction of its line. If the loop goes on it has its
registers; if it ends, memoria has them. -/
theorem vuelta_of_instrDe
    {c : ExecutionContext} {s : Conexiones Globals} {linea : List Char} {i : Instr Registro}
    (hlinea : obtenerLineaPseudocodigo cfg s.memoria c.pid c.tid c.registers.pc = some linea)
    (hi : instrDe linea = some i)
    (interrupcion : Bool) :
    ∃ r, registrosTras (handleClient cfg) c s = some r ∧
      vista r = i.apply 32 (vista c.registers) ∧
      (vuelta (handleClient cfg) interrupcion c s = some (s, some { c with registers := r }) ∨
        ∃ kernel, vuelta (handleClient cfg) interrupcion c s =
          some ({ memoria := actualizarRegistros s.memoria c.pid c.tid r, kernel }, none)) := by
  obtain ⟨instruction, hparse, accion, hdecode, hefecto⟩ := decode_of_instrDe hi c
  have hfetch := fetch_handleClient hlinea
  rcases hefecto with ⟨r, rfl, hvista⟩ | ⟨rfl, mensaje, rfl⟩
  · have hexec : decodeAndExecute (handleClient cfg) linea
        { c with registers := avanzar c.registers } s =
        some (s, { c with registers := r }, Retorno.continueInstruction.codigo) := by
      simp [decodeAndExecute, hparse, hdecode, Accion.execute]
    refine ⟨r, by simp [registrosTras, hfetch, hexec], hvista, ?_⟩
    cases interrupcion with
    | false =>
        exact Or.inl (by simp [vuelta, hfetch, hexec, Retorno.codigo])
    | true =>
        refine Or.inr ⟨s.kernel ++ [.kernelInterruption c.tid c.pid], ?_⟩
        simp [vuelta, hfetch, hexec, Retorno.codigo, updateExecutionContext_handleClient,
          sendDispatchReturn]
  · have hexec : decodeAndExecute (handleClient cfg) linea
        { c with registers := avanzar c.registers } s =
        some ({ memoria := actualizarRegistros s.memoria c.pid c.tid (avanzar c.registers),
                kernel := s.kernel ++ [mensaje] },
          { c with registers := avanzar c.registers }, Retorno.syscallInstruction.codigo) := by
      simp [decodeAndExecute, hparse, hdecode, Accion.execute,
        updateExecutionContext_handleClient]
    refine ⟨avanzar c.registers, by simp [registrosTras, hfetch, hexec], vista_avanzar _,
      Or.inr ⟨s.kernel ++ [mensaje], ?_⟩⟩
    simp [vuelta, hfetch, hexec, Retorno.codigo]

/-- The thread is where the machine is: in the CPU with these values, or in memoria with
them. -/
def Sigue (pid tid : UInt32) (path : List Char) (s : Hilo)
    (m : RegisterMachine.State Registro) : Prop :=
  ∃ hilo, Guardado s.memoria pid tid hilo ∧ hilo.filePath = path ∧
    match s.cpu with
    | some c => c.pid = pid ∧ c.tid = tid ∧ vista c.registers = m
    | none => vistaMem hilo.regs = m

/-- A dispatch hands the CPU what memoria has. -/
theorem pedirContexto_handleClient
    {g : Globals} {r : Register}
    (hr : obtenerRegistrosTcb g pid tid = some r) :
    pedirContexto (handleClient cfg) pid tid g = some (g, contextoDe pid tid r) := by
  simp [pedirContexto, handleClient, hr]

variable {path : List Char} {lineas : List (List Char)} {programa : List (Instr Registro)}

/-- The program and the script have the same lines. -/
theorem programa_getElem
    (hprograma : lineas.map instrDe = programa.map some)
    (i : Nat) :
    (lineas[i]?).map instrDe = (programa[i]?).map some := by
  rw [← List.getElem?_map, hprograma, List.getElem?_map]

variable (hsort : StableFor ordenarPorBase (cfg.listSort ordenarPorBase))
  (hscript : cfg.scripts path = some lineas)
  (hprograma : lineas.map instrDe = programa.map some)

include hscript hprograma

/-- While the CPU runs the thread, a round is possible exactly when the machine has a
step, and then it does that step. -/
theorem Sigue.vuelta
    {s : Hilo} {m : RegisterMachine.State Registro} {c : ExecutionContext}
    (h : Sigue pid tid path s m)
    (hcpu : s.cpu = some c)
    (interrupcion : Bool) :
    match RegisterMachine.step 32 programa m with
    | none => pasoHilo cfg pid tid s (.vuelta interrupcion) = none
    | some m' => ∃ s', pasoHilo cfg pid tid s (.vuelta interrupcion) = some s' ∧
        s'.traza = s.traza ++ [m'] ∧ Sigue pid tid path s' m' := by
  obtain ⟨hilo, hguardado, hpath, hplace⟩ := h
  simp only [hcpu] at hplace
  obtain ⟨rfl, rfl, rfl⟩ := hplace
  have hlinea := hguardado.obtenerLinea (hpath ▸ hscript) c.registers.pc
  have hpc : (vista c.registers).pc = c.registers.pc.toNat := rfl
  have hget := programa_getElem hprograma c.registers.pc.toNat
  rw [RegisterMachine.step, hpc]
  cases hinstr : programa[c.registers.pc.toNat]? with
  | none =>
      have hnone : lineas[c.registers.pc.toNat]? = none := by
        simpa [hinstr] using hget
      have hronda : vuelta (handleClient cfg) interrupcion c ⟨s.memoria, s.kernel⟩ = none :=
        vuelta_sin_linea (hlinea.trans hnone)
      simp [pasoHilo, hcpu, hronda]
  | some instr =>
      rw [hinstr] at hget
      obtain ⟨linea, hsome, hi⟩ := Option.map_eq_some_iff.mp hget
      obtain ⟨r, hr, hvista, hronda⟩ := vuelta_of_instrDe (s := ⟨s.memoria, s.kernel⟩)
        (hlinea.trans hsome) hi interrupcion
      simp only [Option.map_some, ← hvista]
      rcases hronda with hsigue | ⟨kernel, htermina⟩
      · refine ⟨{ s with cpu := some { c with registers := r }, traza := s.traza ++ [vista r] },
          by simp [pasoHilo, hcpu, hr, hsigue], rfl, hilo, hguardado, hpath, ?_⟩
        exact ⟨rfl, rfl, rfl⟩
      · refine ⟨{ memoria := actualizarRegistros s.memoria c.pid c.tid r, kernel := kernel,
                  cpu := none, traza := s.traza ++ [vista r] },
          by simp [pasoHilo, hcpu, hr, htermina], rfl,
          { hilo with regs := MemRegister.ofRegister r }, hguardado.actualizar r, hpath, rfl⟩

include hsort

/-- A step of the thread is a step of the machine; everything else leaves both where
they are. -/
theorem Sigue.step
    {s s' : Hilo} {m : RegisterMachine.State Registro} {e : Suceso}
    (h : Sigue pid tid path s m)
    (hajeno : Ajeno pid tid s e)
    (hstep : pasoHilo cfg pid tid s e = some s') :
    (s'.traza = s.traza ∧ Sigue pid tid path s' m) ∨
      ∃ m', RegisterMachine.step 32 programa m = some m' ∧ s'.traza = s.traza ++ [m'] ∧
        Sigue pid tid path s' m' := by
  cases e with
  | dispatch =>
      obtain ⟨hilo, hguardado, hpath, hplace⟩ := h
      cases hcpu : s.cpu with
      | some c =>
          simp [pasoHilo, hcpu] at hstep
      | none =>
          simp only [hcpu] at hplace
          obtain ⟨r, hr, hregs⟩ := hguardado.obtenerRegistros
          simp only [pasoHilo, hcpu, pedirContexto_handleClient hr, Option.bind_eq_bind,
            Option.bind_some, Option.some.injEq] at hstep
          subst hstep
          refine Or.inl ⟨rfl, hilo, hguardado, hpath, rfl, rfl, ?_⟩
          rw [← hplace, ← hregs]
          rfl
  | vuelta interrupcion =>
      cases hcpu : s.cpu with
      | none =>
          simp [pasoHilo, hcpu] at hstep
      | some c =>
          have hronda := h.vuelta hscript hprograma hcpu interrupcion
          cases hm : RegisterMachine.step 32 programa m with
          | none =>
              simp only [hm] at hronda
              rw [hronda] at hstep
              cases hstep
          | some m' =>
              simp only [hm] at hronda
              obtain ⟨s₁, hs₁, htraza, hsigue⟩ := hronda
              rw [hs₁] at hstep
              cases hstep
              exact Or.inr ⟨m', rfl, htraza, hsigue⟩
  | otra p =>
      obtain ⟨hilo, hguardado, hpath, hplace⟩ := h
      obtain ⟨g, hg, hres⟩ := Option.bind_eq_some_iff.mp hstep
      cases hres
      exact Or.inl ⟨rfl, hilo, hguardado.step hsort hajeno hg, hpath, hplace⟩

end Slices

section Transparency

variable {cfg : Config} {pid tid : UInt32}

/-- Context switches are transparent: after every run the observed values are the first
ones of the uninterrupted script, the CPU goes on exactly as long as the script does,
and whenever the CPU does not run the thread memoria holds the last values and the next
dispatch resumes from what memoria holds. -/
theorem context_switch_transparent
    {g : Globals} {kernel : List (Mensaje UInt32)} {path : List Char}
    {lineas : List (List Char)} {programa : List (Instr Registro)}
    {es : List Suceso} {s : Hilo}
    (hsort : StableFor ordenarPorBase (cfg.listSort ordenarPorBase))
    (hhilo : Guardado g pid tid (nuevoHilo tid path))
    (hscript : cfg.scripts path = some lineas)
    (hprograma : lineas.map instrDe = programa.map some)
    (hrun : Run (fun a e b => pasoHilo cfg pid tid a e = some b) (Ajeno pid tid)
      (Hilo.inicio g kernel) es s) :
    s.traza = firstStates (RegisterMachine.step 32 programa) s.traza.length
      RegisterMachine.start ∧
    (∀ c, s.cpu = some c → vista c.registers = lastState RegisterMachine.start s.traza ∧
      ∀ interrupcion, (pasoHilo cfg pid tid s (.vuelta interrupcion)).isSome =
        (RegisterMachine.step 32 programa (lastState RegisterMachine.start s.traza)).isSome) ∧
    (s.cpu = none → ∃ r, obtenerRegistrosTcb s.memoria pid tid = some r ∧
      vista r = lastState RegisterMachine.start s.traza ∧
      pasoHilo cfg pid tid s .dispatch = some { s with cpu := some (contextoDe pid tid r) }) := by
  have hstart : Sigue pid tid path (Hilo.inicio g kernel) RegisterMachine.start := by
    refine ⟨nuevoHilo tid path, hhilo, rfl, ?_⟩
    refine RegisterMachine.State.ext rfl (funext fun a => ?_)
    cases a <;> rfl
  obtain ⟨htraza, hsigue⟩ := hrun.observes Hilo.traza rfl hstart
    (fun h hok hR => h.step hsort hscript hprograma hok hR)
  refine ⟨htraza, fun c hcpu => ⟨?_, fun interrupcion => ?_⟩, fun hcpu => ?_⟩
  · obtain ⟨hilo, hguardado, hpath, hplace⟩ := hsigue
    simp only [hcpu] at hplace
    exact hplace.2.2
  · have hronda := hsigue.vuelta hscript hprograma hcpu interrupcion
    cases hm : RegisterMachine.step 32 programa
        (lastState RegisterMachine.start s.traza) with
    | none =>
        simp only [hm] at hronda
        rw [hronda]
        rfl
    | some m' =>
        simp only [hm] at hronda
        obtain ⟨s₁, hs₁, -, -⟩ := hronda
        rw [hs₁]
        rfl
  · obtain ⟨hilo, hguardado, hpath, hplace⟩ := hsigue
    simp only [hcpu] at hplace
    obtain ⟨r, hr, hregs⟩ := hguardado.obtenerRegistros
    refine ⟨r, hr, ?_, ?_⟩
    · rw [← hplace, ← hregs]
      rfl
    · simp [pasoHilo, hcpu, pedirContexto_handleClient hr]

/-- A memoria in which thread 0 of process 0 counts down from 2. -/
def cfgContador : Config where
  esquema := .dinamicas
  algoritmoBusqueda := .first
  tamMemoria := 64
  particiones := []
  scripts := fun _ =>
    some ["SET BX 1".toList, "SET AX 2".toList, "SUB AX BX".toList, "JNZ AX 2".toList]
  listSort := fun _ => insertionSortBy claveBase

def memoriaContador : Globals where
  memoryProcessList := [{ nuevoProceso 0 0 16 16 with threads := [nuevoHilo 0 ['a']] }]
  partitionList := []
  memoriaUsuario := []

/-- Interrupted after the second instruction and after the jump, with a process created
and the registers of another thread stored in between. -/
def sucesosContador : List Suceso :=
  [.dispatch, .vuelta false, .vuelta true, .otra (.processCreate 1 16),
    .otra (.executionContextUpdate 1 0 ⟨9, 9, 9, 9, 9, 9, 9, 9, 9, 32, 16⟩), .dispatch,
    .vuelta false, .vuelta true, .dispatch, .vuelta false]

theorem context_switch_transparent_contador :
    ∃ s, execute (pasoHilo cfgContador 0 0) (Hilo.inicio memoriaContador []) sucesosContador =
        some s ∧
      s.traza = firstStates
        (RegisterMachine.step 32 [.set .bx 1, .set .ax 2, .sub .ax .bx, .jnz .ax 2])
        s.traza.length RegisterMachine.start := by
  have hsort : StableFor ordenarPorBase (cfgContador.listSort ordenarPorBase) := by
    rw [ordenarPorBase_eq]
    exact stableFor_insertionSortBy
  have hhilo : Guardado memoriaContador 0 0 (nuevoHilo 0 ['a']) := ⟨by decide, by decide⟩
  exact ⟨_, (Option.some_get (by decide)).symm,
    (context_switch_transparent hsort hhilo rfl (by decide)
      (run_of_isSome (pasoHilo cfgContador 0 0) id (by decide) (by decide))).1⟩

end Transparency

end Cpu
end SinIdeas
