import SinIdeas.Cpu.Cycle

/-!
# The answer to a dispatch

The kernel waits for one message after every dispatch. The return code of
`decode_and_execute` is what tells the loop whether that message was sent, and the
code of an operation that does not exist is the one of a syscall: the loop ends
and the kernel is left waiting. Every other way out of the loop sends exactly one
message.
-/

namespace SinIdeas
namespace Cpu

open Memoria (Peticion Respuesta)

/-- The operation of a line, if it has a token. -/
def operacion (linea : List Char) : Option OpCode :=
  (parseInstruction linea).map Instruction.name

variable {μ : Type} (pedir : μ → Peticion → Option (μ × Respuesta))

/-- The lines with which memoria answers the fetches of the cycle. -/
def lineasRecibidas :
    List Bool → ExecutionContext → Conexiones μ → List (List Char)
  | [], _, _ => []
  | interrupcion :: flags, c, s =>
      match fetch pedir c s, vuelta pedir interrupcion c s with
      | some (_, _, linea), some (s', some c') => linea :: lineasRecibidas flags c' s'
      | some (_, _, linea), _ => [linea]
      | none, _ => []

/-- Since the cycle began with `s`, exactly one message went to the kernel. -/
def UnMensaje (s s' : Conexiones μ) : Prop :=
  ∃ mensaje, s'.kernel = s.kernel ++ [mensaje]

section Decoding

variable {pedir} {linea : List Char} {c c' : ExecutionContext} {s s' : Conexiones μ}
  {decodeValue : Int}

/-- Only the default case of the `switch` has no operation. -/
theorem decode_desconocida
    {instruction : Instruction}
    (h : decode instruction c = some .desconocida) :
    instruction.name = .desconocida := by
  cases hop : instruction.name <;>
    simp_all [decode, Option.bind_eq_some_iff]

theorem decode_of_desconocida
    {instruction : Instruction} {accion : Accion}
    (hname : instruction.name = .desconocida)
    (h : decode instruction c = some accion) :
    accion = .desconocida := by
  simp only [decode, hname] at h
  exact (Option.some.inj h).symm

/-- An access to memory does not return the code of a syscall. -/
theorem readMem_codigo
    {param1 param2 : List Char} {m m' : μ} {retorno : Retorno}
    (h : readMemInstruction pedir param1 param2 c m = some (m', c', retorno)) :
    retorno.codigo ≠ Retorno.syscallInstruction.codigo := by
  obtain ⟨⟨m₁, a⟩, _, h⟩ := Option.bind_eq_some_iff.mp h
  simp only at h
  split_ifs at h
  · cases h
    decide
  · obtain ⟨⟨m₂, r⟩, _, h⟩ := Option.bind_eq_some_iff.mp h
    obtain ⟨valor, _, h⟩ := Option.bind_eq_some_iff.mp h
    cases h
    decide

theorem writeMem_codigo
    {param1 param2 : List Char} {m m' : μ} {retorno : Retorno}
    (h : writeMemInstruction pedir param1 param2 c m = some (m', c', retorno)) :
    retorno.codigo ≠ Retorno.syscallInstruction.codigo := by
  obtain ⟨⟨m₁, a⟩, _, h⟩ := Option.bind_eq_some_iff.mp h
  simp only at h
  split_ifs at h
  · cases h
    decide
  · obtain ⟨⟨m₂, r⟩, _, h⟩ := Option.bind_eq_some_iff.mp h
    cases h
    decide

theorem fetch_kernel
    (h : fetch pedir c s = some (s', c', linea)) :
    s'.kernel = s.kernel := by
  obtain ⟨⟨m, r⟩, _, h⟩ := Option.bind_eq_some_iff.mp h
  obtain ⟨l, _, h⟩ := Option.bind_eq_some_iff.mp h
  cases h
  rfl

/-- What the number returned by a case says about the messages sent. -/
theorem execute_messages
    {accion : Accion}
    (h : accion.execute pedir c s = some (s', c', decodeValue)) :
    (accion = .desconocida ∧ s' = s ∧ decodeValue = Retorno.syscallInstruction.codigo) ∨
    (accion ≠ .desconocida ∧ decodeValue = Retorno.syscallInstruction.codigo ∧
      UnMensaje s s') ∨
    (accion ≠ .desconocida ∧ decodeValue ≠ Retorno.syscallInstruction.codigo ∧
      s'.kernel = s.kernel) := by
  cases accion with
  | registros r =>
      cases h
      exact Or.inr (Or.inr ⟨by simp, by decide, rfl⟩)
  | readMem param1 param2 =>
      obtain ⟨⟨m, c₁, retorno⟩, hread, hres⟩ := Option.bind_eq_some_iff.mp h
      cases hres
      exact Or.inr (Or.inr ⟨by simp, readMem_codigo hread, rfl⟩)
  | writeMem param1 param2 =>
      obtain ⟨⟨m, c₁, retorno⟩, hwrite, hres⟩ := Option.bind_eq_some_iff.mp h
      cases hres
      exact Or.inr (Or.inr ⟨by simp, writeMem_codigo hwrite, rfl⟩)
  | syscall mensaje =>
      obtain ⟨m, _, hres⟩ := Option.bind_eq_some_iff.mp h
      cases hres
      exact Or.inr (Or.inl ⟨by simp, rfl, mensaje, rfl⟩)
  | desconocida =>
      cases h
      exact Or.inl ⟨rfl, rfl, rfl⟩

/-- A round that is left by the loop sends one message, unless its line has no
operation; a round that goes on sends none. -/
theorem vuelta_messages
    {interrupcion : Bool} {r : Option ExecutionContext}
    (h : vuelta pedir interrupcion c s = some (s', r)) :
    ∃ s₁ c₁ linea, fetch pedir c s = some (s₁, c₁, linea) ∧
      ((operacion linea = some .desconocida ∧ r = none ∧ s'.kernel = s.kernel) ∨
      (operacion linea ≠ some .desconocida ∧ r = none ∧ UnMensaje s s') ∨
      (operacion linea ≠ some .desconocida ∧ r ≠ none ∧ s'.kernel = s.kernel)) := by
  obtain ⟨⟨s₁, c₁, linea⟩, hfetch, h⟩ := Option.bind_eq_some_iff.mp h
  obtain ⟨⟨s₂, c₂, decodeValue⟩, hdecode, h⟩ := Option.bind_eq_some_iff.mp h
  refine ⟨s₁, c₁, linea, hfetch, ?_⟩
  have hk₁ : s₁.kernel = s.kernel := fetch_kernel hfetch
  obtain ⟨instruction, hparse, hdecode⟩ := Option.bind_eq_some_iff.mp hdecode
  obtain ⟨accion, haccion, hexecute⟩ := Option.bind_eq_some_iff.mp hdecode
  have hop : operacion linea = some .desconocida ↔ accion = .desconocida := by
    simp only [operacion, hparse, Option.map_some, Option.some.injEq]
    constructor
    · intro hname
      exact decode_of_desconocida hname haccion
    · rintro rfl
      exact decode_desconocida haccion
  simp only [ne_eq, hop, UnMensaje, ← hk₁]
  rcases execute_messages hexecute with ⟨hacc, rfl, hcode⟩ | ⟨hacc, hcode, hmensaje⟩ |
    ⟨hacc, hcode, hkernel⟩
  · subst hcode
    cases h
    exact Or.inl ⟨hacc, rfl, rfl⟩
  · subst hcode
    cases h
    exact Or.inr (Or.inl ⟨hacc, rfl, hmensaje⟩)
  · simp only at h
    split_ifs at h with hseg hint
    · cases h
      exact Or.inr (Or.inl ⟨hacc, rfl, _, by rw [sendDispatchReturn, hkernel]⟩)
    · obtain ⟨m, _, hres⟩ := Option.bind_eq_some_iff.mp h
      cases hres
      exact Or.inr (Or.inl ⟨hacc, rfl, _, by rw [sendDispatchReturn, hkernel]⟩)
    · cases h
      exact Or.inr (Or.inr ⟨hacc, by simp, hkernel⟩)

/-- The cycle returns with one message exactly when it met no line without an
operation. -/
theorem one_return_message_iff
    {flags : List Bool}
    (h : executeInstructionCycle pedir flags c s = some (s', none)) :
    UnMensaje s s' ↔
      ∀ linea ∈ lineasRecibidas pedir flags c s, operacion linea ≠ some .desconocida := by
  induction flags generalizing c s with
  | nil =>
      cases h
  | cons interrupcion flags ih =>
      obtain ⟨⟨s₁, r⟩, hvuelta, h⟩ := Option.bind_eq_some_iff.mp h
      obtain ⟨s₀, c₀, linea, hfetch, hcases⟩ := vuelta_messages hvuelta
      cases r with
      | none =>
          cases h
          simp only [lineasRecibidas, hfetch, hvuelta, List.mem_singleton, forall_eq]
          rcases hcases with ⟨hop, -, hkernel⟩ | ⟨hop, -, hmensaje⟩ | ⟨-, hnone, -⟩
          · simp [hop, UnMensaje, hkernel]
          · simp [hop, hmensaje]
          · exact absurd rfl hnone
      | some c₁ =>
          rcases hcases with ⟨-, hsome, -⟩ | ⟨-, hsome, -⟩ | ⟨hop, -, hkernel⟩
          · cases hsome
          · cases hsome
          · simp only [lineasRecibidas, hfetch, hvuelta, List.forall_mem_cons]
            rw [← ih h]
            simp [hop, UnMensaje, hkernel]

end Decoding

/-- A memoria that holds one thread, whose script is one line. -/
def scriptDeUnaLinea (linea : List Char) : Memoria.Config where
  esquema := .dinamicas
  algoritmoBusqueda := .first
  tamMemoria := 16
  particiones := []
  scripts := fun _ => some [linea]
  listSort := fun _ l => l

/-- The context with which the thread starts. -/
def contextoInicial : ExecutionContext :=
  Memoria.contextoDe 0 0
    (Memoria.registrosDe (Memoria.nuevoProceso 0 0 16 16) (Memoria.nuevoHilo 0 ['a']))

/-- Memoria with the thread of `scriptDeUnaLinea`. -/
def memoriaConHilo : Memoria.Globals where
  memoryProcessList :=
    [{ Memoria.nuevoProceso 0 0 16 16 with threads := [Memoria.nuevoHilo 0 ['a']] }]
  partitionList := []
  memoriaUsuario := []

/-- With an operation that does not exist the cycle returns and has sent nothing. -/
theorem cycle_returns_without_message :
    ¬ ∀ (cfg : Memoria.Config) (flags : List Bool) (c : ExecutionContext)
        (s s' : Conexiones Memoria.Globals),
      executeInstructionCycle (Memoria.handleClient cfg) flags c s = some (s', none) →
      UnMensaje s s' := by
  intro hclaim
  have hrun : executeInstructionCycle
      (Memoria.handleClient (scriptDeUnaLinea "SALTAR".toList)) [false] contextoInicial
        { memoria := memoriaConHilo, kernel := [] } =
      some ({ memoria := memoriaConHilo, kernel := [] }, none) := by
    decide
  obtain ⟨mensaje, hmensaje⟩ := hclaim _ _ _ _ _ hrun
  simp at hmensaje

/-- Memoria after the thread stored its context with the PC on the second line. -/
def memoriaConContexto : Memoria.Globals :=
  Memoria.actualizarRegistros memoriaConHilo 0 0 { contextoInicial.registers with pc := 1 }

/-- THREAD_EXIT sends its message, after the context went back to memoria. -/
theorem one_return_message_threadExit :
    UnMensaje { memoria := memoriaConHilo, kernel := [] }
      { memoria := memoriaConContexto, kernel := [.threadExit 0] } := by
  have hrun : executeInstructionCycle
      (Memoria.handleClient (scriptDeUnaLinea "THREAD_EXIT".toList)) [false] contextoInicial
        { memoria := memoriaConHilo, kernel := [] } =
      some ({ memoria := memoriaConContexto, kernel := [.threadExit 0] }, none) := by
    decide
  refine (one_return_message_iff hrun).mpr ?_
  decide

end Cpu
end SinIdeas
