import SinIdeas.Cpu.Cycle
import SinIdeas.Memoria.Rebuild

/-!
# Two ports to memoria

The instruction cycle talks to memoria through a port. Where one port answers on
`lift m` what another one answers on `m`, the whole cycle does the same through both.
An answer without a line counts as no answer: the CPU waits for one.
-/

namespace SinIdeas
namespace Cpu

open Memoria (Peticion Respuesta)

variable {μ ν : Type}

/-- The CPU gets to read the answer: a request for an instruction needs a line. -/
def llega : Peticion → Respuesta → Bool
  | .instructionRequest .., r => (lineaDe r).isSome
  | _, _ => true

/-- The connections with another side that answers for memoria. -/
def Conexiones.map (lift : μ → ν) (s : Conexiones μ) : Conexiones ν where
  memoria := lift s.memoria
  kernel := s.kernel

/-- DISPATCH in `handle_client_cpu_dispatch`: the context of the thread, and the cycle. -/
def atenderDispatch
    (pedir : μ → Peticion → Option (μ × Respuesta))
    (flags : List Bool) (pid tid : UInt32) (s : Conexiones μ) :
    Option (Conexiones μ × Option ExecutionContext) := do
  let (m, c) ← pedirContexto pedir pid tid s.memoria
  executeInstructionCycle pedir flags c { s with memoria := m }

/-- `pedir'` answers on `lift m` what `pedir` answers on `m`. -/
def RespondenIgual
    (pedir : μ → Peticion → Option (μ × Respuesta))
    (pedir' : ν → Peticion → Option (ν × Respuesta))
    (lift : μ → ν) :
    Prop :=
  ∀ m p, p.deCpu = true →
    pedir' (lift m) p =
      (pedir m p).bind (fun x => if llega p x.2 then some (lift x.1, x.2) else none)

section Cycle

variable {pedir : μ → Peticion → Option (μ × Respuesta)}
  {pedir' : ν → Peticion → Option (ν × Respuesta)} {lift : μ → ν}

/-- A request whose answer the CPU reads whatever it is. -/
theorem RespondenIgual.map
    {p : Peticion}
    (h : RespondenIgual pedir pedir' lift)
    (hp : p.deCpu = true)
    (hllega : ∀ r, llega p r = true)
    (m : μ) :
    pedir' (lift m) p = (pedir m p).map (Prod.map lift id) := by
  rw [h m p hp]
  cases pedir m p with
  | none =>
      rfl
  | some x =>
      simp [hllega, Prod.map]

theorem RespondenIgual.updateExecutionContext
    (h : RespondenIgual pedir pedir' lift)
    (c : ExecutionContext) (m : μ) :
    updateExecutionContext pedir' c (lift m) = (updateExecutionContext pedir c m).map lift := by
  unfold Cpu.updateExecutionContext
  cases deserializeExecutionContext (serializeExecutionContext c) with
  | none =>
      rfl
  | some c' =>
      simp only [Option.bind_eq_bind, Option.bind_some, h.map (p := .executionContextUpdate _ _ _)
        rfl (fun _ => rfl)]
      cases pedir m (.executionContextUpdate c'.pid c'.tid c'.registers) <;> rfl

theorem RespondenIgual.translateAddress
    (h : RespondenIgual pedir pedir' lift)
    (c : ExecutionContext) (logicalAddress : UInt32) (m : μ) :
    translateAddress pedir' c logicalAddress (lift m) =
      (translateAddress pedir c logicalAddress m).map (Prod.map lift id) := by
  unfold Cpu.translateAddress
  split_ifs
  · rw [h.updateExecutionContext]
    cases Cpu.updateExecutionContext pedir c m <;> rfl
  · rfl

theorem RespondenIgual.writeMemInstruction
    (h : RespondenIgual pedir pedir' lift)
    (param1 param2 : List Char) (c : ExecutionContext) (m : μ) :
    writeMemInstruction pedir' param1 param2 c (lift m) =
      (writeMemInstruction pedir param1 param2 c m).map (Prod.map lift id) := by
  simp only [Cpu.writeMemInstruction, h.translateAddress]
  cases Cpu.translateAddress pedir c (getRegisterValue c.registers (returnRegister param1)) m with
  | none =>
      rfl
  | some x =>
      obtain ⟨m', physicalDirection⟩ := x
      simp only [Option.map_some, Prod.map_apply, id_eq, Option.bind_eq_bind, Option.bind_some]
      split_ifs
      · rfl
      · rw [h.map (p := .writeMemRequest _ _) rfl (fun _ => rfl)]
        cases pedir m' (.writeMemRequest physicalDirection.toUInt32
          (getRegisterValue c.registers (returnRegister param2))) <;> rfl

theorem RespondenIgual.readMemInstruction
    (h : RespondenIgual pedir pedir' lift)
    (param1 param2 : List Char) (c : ExecutionContext) (m : μ) :
    readMemInstruction pedir' param1 param2 c (lift m) =
      (readMemInstruction pedir param1 param2 c m).map (Prod.map lift id) := by
  simp only [Cpu.readMemInstruction, h.translateAddress]
  cases Cpu.translateAddress pedir c (getRegisterValue c.registers (returnRegister param2)) m with
  | none =>
      rfl
  | some x =>
      obtain ⟨m', physicalDirection⟩ := x
      simp only [Option.map_some, Prod.map_apply, id_eq, Option.bind_eq_bind, Option.bind_some]
      split_ifs
      · rfl
      · rw [h.map (p := .readMemRequest _) rfl (fun _ => rfl)]
        cases pedir m' (.readMemRequest physicalDirection.toUInt32) with
        | none =>
            rfl
        | some y =>
            simp only [Option.map_some, Option.bind_some, Prod.map_snd, id_eq]
            cases datoDe y.2 <;> rfl

theorem RespondenIgual.fetch
    (h : RespondenIgual pedir pedir' lift)
    (c : ExecutionContext) (s : Conexiones μ) :
    fetch pedir' c (s.map lift) = (fetch pedir c s).map (Prod.map (Conexiones.map lift) id) := by
  simp only [Cpu.fetch, Conexiones.map, h _ (.instructionRequest _ _ _) rfl]
  cases pedir s.memoria (.instructionRequest c.pid c.tid c.registers.pc) with
  | none =>
      rfl
  | some x =>
      cases hlinea : lineaDe x.2 with
      | none =>
          simp [llega, hlinea]
      | some linea =>
          simp [llega, hlinea, Prod.map, Conexiones.map]

theorem RespondenIgual.execute
    (h : RespondenIgual pedir pedir' lift)
    (c : ExecutionContext) (s : Conexiones μ) (accion : Accion) :
    accion.execute pedir' c (s.map lift) =
      (accion.execute pedir c s).map (Prod.map (Conexiones.map lift) id) := by
  cases accion with
  | registros r => rfl
  | readMem param1 param2 =>
      simp only [Accion.execute, Conexiones.map, h.readMemInstruction]
      cases Cpu.readMemInstruction pedir param1 param2 c s.memoria <;> rfl
  | writeMem param1 param2 =>
      simp only [Accion.execute, Conexiones.map, h.writeMemInstruction]
      cases Cpu.writeMemInstruction pedir param1 param2 c s.memoria <;> rfl
  | syscall mensaje =>
      simp only [Accion.execute, Conexiones.map, h.updateExecutionContext]
      cases Cpu.updateExecutionContext pedir c s.memoria <;> rfl
  | desconocida => rfl

theorem RespondenIgual.decodeAndExecute
    (h : RespondenIgual pedir pedir' lift)
    (linea : List Char) (c : ExecutionContext) (s : Conexiones μ) :
    decodeAndExecute pedir' linea c (s.map lift) =
      (decodeAndExecute pedir linea c s).map (Prod.map (Conexiones.map lift) id) := by
  unfold Cpu.decodeAndExecute
  cases parseInstruction linea with
  | none =>
      rfl
  | some instruction =>
      simp only [Option.bind_eq_bind, Option.bind_some]
      cases decode instruction c with
      | none => rfl
      | some accion => exact h.execute c s accion

/-- A round of the loop is the same through both ports. -/
theorem RespondenIgual.vuelta
    (h : RespondenIgual pedir pedir' lift)
    (interrupcion : Bool) (c : ExecutionContext) (s : Conexiones μ) :
    vuelta pedir' interrupcion c (s.map lift) =
      (vuelta pedir interrupcion c s).map (Prod.map (Conexiones.map lift) id) := by
  simp only [Cpu.vuelta, h.fetch]
  cases Cpu.fetch pedir c s with
  | none =>
      rfl
  | some x =>
      obtain ⟨s₁, c₁, linea⟩ := x
      simp only [Option.map_some, Prod.map_apply, id_eq, Option.bind_eq_bind, Option.bind_some,
        h.decodeAndExecute]
      cases Cpu.decodeAndExecute pedir linea c₁ s₁ with
      | none =>
          rfl
      | some y =>
          obtain ⟨s₂, c₂, decodeValue⟩ := y
          simp only [Option.map_some, Prod.map_apply, id_eq, Option.bind_some]
          split_ifs
          · rfl
          · rfl
          · simp only [Conexiones.map, h.updateExecutionContext]
            cases Cpu.updateExecutionContext pedir c₂ s₂.memoria <;> rfl
          · rfl

/-- The whole loop, by induction on the values that the interruption flag has. -/
theorem RespondenIgual.executeInstructionCycle
    (h : RespondenIgual pedir pedir' lift)
    (flags : List Bool) (c : ExecutionContext) (s : Conexiones μ) :
    executeInstructionCycle pedir' flags c (s.map lift) =
      (executeInstructionCycle pedir flags c s).map (Prod.map (Conexiones.map lift) id) := by
  induction flags generalizing c s with
  | nil =>
      rfl
  | cons interrupcion flags ih =>
      simp only [Cpu.executeInstructionCycle, h.vuelta]
      cases Cpu.vuelta pedir interrupcion c s with
      | none =>
          rfl
      | some x =>
          obtain ⟨s', c'⟩ := x
          cases c' with
          | none => rfl
          | some c' => exact ih c' s'

theorem RespondenIgual.pedirContexto
    (h : RespondenIgual pedir pedir' lift)
    (pid tid : UInt32) (m : μ) :
    pedirContexto pedir' pid tid (lift m) =
      (pedirContexto pedir pid tid m).map (Prod.map lift id) := by
  simp only [Cpu.pedirContexto, h.map (p := .executionContext _ _) rfl (fun _ => rfl)]
  cases pedir m (.executionContext pid tid) with
  | none =>
      rfl
  | some x =>
      obtain ⟨m', r⟩ := x
      cases r with
      | contexto c =>
          simp only [Option.map_some, Prod.map_apply, id_eq, Option.bind_eq_bind, Option.bind_some]
          cases deserializeExecutionContext (serializeExecutionContext c) <;> rfl
      | _ => rfl

/-- A dispatch is carried out alike through both ports. -/
theorem RespondenIgual.atenderDispatch
    (h : RespondenIgual pedir pedir' lift)
    (flags : List Bool) (pid tid : UInt32) (s : Conexiones μ) :
    atenderDispatch pedir' flags pid tid (s.map lift) =
      (atenderDispatch pedir flags pid tid s).map (Prod.map (Conexiones.map lift) id) := by
  simp only [Cpu.atenderDispatch, Conexiones.map, h.pedirContexto]
  cases Cpu.pedirContexto pedir pid tid s.memoria with
  | none =>
      rfl
  | some x =>
      exact h.executeInstructionCycle flags x.2 { s with memoria := x.1 }

end Cycle

section Invariant

variable {pedir : μ → Peticion → Option (μ × Respuesta)} {I : μ → Prop} {c c' : ExecutionContext}
  {m m' : μ} {s s' : Conexiones μ}

/-- The answers to the requests of the CPU keep `I`. -/
def Conserva (pedir : μ → Peticion → Option (μ × Respuesta)) (I : μ → Prop) : Prop :=
  ∀ ⦃m p m' r⦄, I m → p.deCpu = true → pedir m p = some (m', r) → I m'

theorem Conserva.updateExecutionContext
    (hpedir : Conserva pedir I)
    (hm : I m)
    (h : updateExecutionContext pedir c m = some m') :
    I m' := by
  obtain ⟨c₁, _, h⟩ := Option.bind_eq_some_iff.mp h
  obtain ⟨⟨m₁, r⟩, hreq, h⟩ := Option.bind_eq_some_iff.mp h
  cases h
  exact hpedir hm rfl hreq

theorem Conserva.translateAddress
    {logicalAddress : UInt32} {physicalDirection : Int32}
    (hpedir : Conserva pedir I)
    (hm : I m)
    (h : translateAddress pedir c logicalAddress m = some (m', physicalDirection)) :
    I m' := by
  unfold Cpu.translateAddress at h
  split_ifs at h
  · obtain ⟨m₁, hstore, h⟩ := Option.bind_eq_some_iff.mp h
    cases h
    exact hpedir.updateExecutionContext hm hstore
  · cases h
    exact hm

theorem Conserva.writeMemInstruction
    {param1 param2 : List Char} {retorno : Retorno}
    (hpedir : Conserva pedir I)
    (hm : I m)
    (h : writeMemInstruction pedir param1 param2 c m = some (m', c', retorno)) :
    I m' ∧ c' = c := by
  obtain ⟨⟨m₁, physicalDirection⟩, htranslate, h⟩ := Option.bind_eq_some_iff.mp h
  have hm₁ := hpedir.translateAddress hm htranslate
  simp only at h
  split_ifs at h
  · cases h
    exact ⟨hm₁, rfl⟩
  · obtain ⟨⟨m₂, r⟩, hreq, h⟩ := Option.bind_eq_some_iff.mp h
    cases h
    exact ⟨hpedir hm₁ rfl hreq, rfl⟩

theorem Conserva.readMemInstruction
    {param1 param2 : List Char} {retorno : Retorno}
    (hpedir : Conserva pedir I)
    (hm : I m)
    (h : readMemInstruction pedir param1 param2 c m = some (m', c', retorno)) :
    I m' ∧ c'.pid = c.pid ∧ c'.tid = c.tid := by
  obtain ⟨⟨m₁, physicalDirection⟩, htranslate, h⟩ := Option.bind_eq_some_iff.mp h
  have hm₁ := hpedir.translateAddress hm htranslate
  simp only at h
  split_ifs at h
  · cases h
    exact ⟨hm₁, rfl, rfl⟩
  · obtain ⟨⟨m₂, r⟩, hreq, h⟩ := Option.bind_eq_some_iff.mp h
    obtain ⟨valor, _, h⟩ := Option.bind_eq_some_iff.mp h
    cases h
    exact ⟨hpedir hm₁ rfl hreq, rfl, rfl⟩

theorem Conserva.execute
    {accion : Accion} {decodeValue : Int}
    (hpedir : Conserva pedir I)
    (hm : I s.memoria)
    (h : accion.execute pedir c s = some (s', c', decodeValue)) :
    I s'.memoria ∧ c'.pid = c.pid ∧ c'.tid = c.tid := by
  cases accion with
  | registros r =>
      cases h
      exact ⟨hm, rfl, rfl⟩
  | readMem param1 param2 =>
      obtain ⟨⟨m, c₁, retorno⟩, hread, h⟩ := Option.bind_eq_some_iff.mp h
      cases h
      exact hpedir.readMemInstruction hm hread
  | writeMem param1 param2 =>
      obtain ⟨⟨m, c₁, retorno⟩, hwrite, h⟩ := Option.bind_eq_some_iff.mp h
      cases h
      obtain ⟨hm', rfl⟩ := hpedir.writeMemInstruction hm hwrite
      exact ⟨hm', rfl, rfl⟩
  | syscall mensaje =>
      obtain ⟨m, hstore, h⟩ := Option.bind_eq_some_iff.mp h
      cases h
      exact ⟨hpedir.updateExecutionContext hm hstore, rfl, rfl⟩
  | desconocida =>
      cases h
      exact ⟨hm, rfl, rfl⟩

/-- A round reaches memoria by requests only, and works for the same thread. -/
theorem Conserva.vuelta
    {interrupcion : Bool} {r : Option ExecutionContext}
    (hpedir : Conserva pedir I)
    (hm : I s.memoria)
    (h : vuelta pedir interrupcion c s = some (s', r)) :
    I s'.memoria ∧ ∀ c' ∈ r, c'.pid = c.pid ∧ c'.tid = c.tid := by
  obtain ⟨⟨s₁, c₁, linea⟩, hfetch, hresto⟩ := Option.bind_eq_some_iff.mp h
  obtain ⟨⟨m₁, respuesta⟩, hreq, hlinea⟩ := Option.bind_eq_some_iff.mp hfetch
  obtain ⟨_, _, hget⟩ := Option.bind_eq_some_iff.mp hlinea
  cases hget
  obtain ⟨⟨s₂, c₂, decodeValue⟩, hdecode, hfin⟩ := Option.bind_eq_some_iff.mp hresto
  obtain ⟨instruction, _, haccion⟩ := Option.bind_eq_some_iff.mp hdecode
  obtain ⟨accion, _, hexecute⟩ := Option.bind_eq_some_iff.mp haccion
  obtain ⟨hm₂, hpid, htid⟩ := hpedir.execute (hpedir hm rfl hreq) hexecute
  simp only at hfin
  split_ifs at hfin
  · cases hfin
    exact ⟨hm₂, by simp⟩
  · cases hfin
    exact ⟨hm₂, by simp⟩
  · obtain ⟨m, hstore, hfin⟩ := Option.bind_eq_some_iff.mp hfin
    cases hfin
    exact ⟨hpedir.updateExecutionContext hm₂ hstore, by simp⟩
  · cases hfin
    refine ⟨hm₂, fun c' hc' => ?_⟩
    obtain rfl := Option.some.inj hc'
    exact ⟨hpid, htid⟩

end Invariant

end Cpu
end SinIdeas
