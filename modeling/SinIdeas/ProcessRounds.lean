import SinIdeas.Cpu.ContextSwitch
import SinIdeas.Lib.ProcessMachine
import SinIdeas.Memoria.ProcessEntry

/-!
# A round of the CPU and the region of the process

One round of the instruction loop, READ_MEM and WRITE_MEM included, for a thread whose
addresses fit in the size of its process or are answered with SEG_FAULT: it is one
instruction on the registers of the thread and on the bytes of its region, and no other
byte changes.
-/

namespace SinIdeas

open Lib Memoria Cpu

/-- What a line means to a process: an instruction on registers, a word read or
written, or a syscall. -/
def instruccionDe (linea : List Char) : Option (ProcessMachine.Instr Registro) := do
  let instruction ← parseInstruction linea
  match instruction.name with
  | .readMem => do
      let destiny ← registroDe (← instruction.param 0)
      let address ← registroDe (← instruction.param 1)
      some (.load destiny address)
  | .writeMem => do
      let address ← registroDe (← instruction.param 0)
      let origin ← registroDe (← instruction.param 1)
      some (.store address origin)
  | .threadExit | .processExit => some (.base .skip)
  | _ => (instrDe linea).map .base

/-- The instruction at a line of a script. -/
def codigoDe (cfg : Config) (filePath : List Char) (i : Nat) :
    Option (ProcessMachine.Instr Registro) := do
  let lineas ← cfg.scripts filePath
  let linea ← lineas[i]?
  instruccionDe linea

/-- An address that belongs to the process, or that the CPU answers with SEG_FAULT. -/
def AccesoPropio (p : MemPcb) (direccionLogica : UInt32) : Prop :=
  p.limite ≤ direccionLogica ∨ direccionLogica.toNat + 4 ≤ p.size.toNat

instance (p : MemPcb) (direccionLogica : UInt32) : Decidable (AccesoPropio p direccionLogica) :=
  inferInstanceAs (Decidable (_ ∨ _))

/-- The line is an instruction, and what it addresses is the process's own. -/
def LineaCorrecta (p : MemPcb) (r : Register) (linea : List Char) : Prop :=
  ∃ i ∈ instruccionDe linea, ∀ a ∈ i.address?, AccesoPropio p (getRegisterValue r a.name)

instance (p : MemPcb) (r : Register) (linea : List Char) : Decidable (LineaCorrecta p r linea) :=
  inferInstanceAs (Decidable (∃ i ∈ instruccionDe linea,
    ∀ a ∈ i.address?, AccesoPropio p (getRegisterValue r a.name)))

/-- The bytes of the region of a process. -/
def ventana (memoriaUsuario : List UInt8) (p : MemPcb) : List UInt8 :=
  (memoriaUsuario.drop p.base.toNat).take p.size.toNat

section Rounds

variable {cfg : Config} {c : ExecutionContext} {s : Conexiones Globals} {linea : List Char}
  {instruction : Instruction} {r : Register} {interrupcion : Bool}

/-- A round leaves the thread with the registers `r` and the user memory with `bytes`:
the CPU goes on with them, or memoria has them. -/
def RondaHace
    (cfg : Config) (interrupcion : Bool) (c : ExecutionContext) (s : Conexiones Globals)
    (r : Register) (bytes : List UInt8) :
    Prop :=
  vuelta (handleClient cfg) interrupcion c s =
      some ({ s with memoria := { s.memoria with memoriaUsuario := bytes } },
        some { c with registers := r }) ∨
    ∃ kernel, vuelta (handleClient cfg) interrupcion c s =
      some ({ memoria :=
                actualizarRegistros { s.memoria with memoriaUsuario := bytes } c.pid c.tid r
              kernel }, none)

/-- The context after the fetch. -/
abbrev trasFetch (c : ExecutionContext) : ExecutionContext :=
  { c with registers := avanzar c.registers }

variable (hlinea : obtenerLineaPseudocodigo cfg s.memoria c.pid c.tid c.registers.pc = some linea)

include hlinea

/-- An instruction after which the loop goes on, unless it is interrupted. -/
theorem rondaHace_continua
    {bytes : List UInt8}
    (hexec : decodeAndExecute (handleClient cfg) linea (trasFetch c) s =
      some ({ s with memoria := { s.memoria with memoriaUsuario := bytes } },
        { c with registers := r }, Retorno.continueInstruction.codigo)) :
    RondaHace cfg interrupcion c s r bytes := by
  have hfetch := fetch_handleClient hlinea
  cases interrupcion with
  | false =>
      exact Or.inl (by simp [vuelta, hfetch, hexec, Retorno.codigo])
  | true =>
      refine Or.inr ⟨s.kernel ++ [.kernelInterruption c.tid c.pid], ?_⟩
      simp [vuelta, hfetch, hexec, Retorno.codigo, updateExecutionContext_handleClient,
        sendDispatchReturn]

/-- An instruction that has stored the context and ends the loop. -/
theorem rondaHace_termina
    (retorno : Retorno) (kernel : List (Mensaje UInt32))
    (hretorno : retorno ≠ .continueInstruction)
    (hexec : decodeAndExecute (handleClient cfg) linea (trasFetch c) s =
      some ({ memoria := actualizarRegistros s.memoria c.pid c.tid (avanzar c.registers), kernel },
        trasFetch c, retorno.codigo)) :
    RondaHace cfg interrupcion c s (avanzar c.registers) s.memoria.memoriaUsuario := by
  have hfetch := fetch_handleClient hlinea
  cases retorno with
  | continueInstruction =>
      exact absurd rfl hretorno
  | syscallInstruction =>
      exact Or.inr ⟨kernel, by simp [vuelta, hfetch, hexec, Retorno.codigo]⟩
  | segFault =>
      refine Or.inr ⟨kernel ++ [.segmentationFault c.tid c.pid], ?_⟩
      simp [vuelta, hfetch, hexec, Retorno.codigo, sendDispatchReturn]

variable (hparse : parseInstruction linea = some instruction)

include hparse

theorem rondaHace_registros
    (hdecode : decode instruction (trasFetch c) = some (.registros r)) :
    RondaHace cfg interrupcion c s r s.memoria.memoriaUsuario :=
  rondaHace_continua hlinea (by simp [decodeAndExecute, hparse, hdecode, Accion.execute])

theorem rondaHace_syscall
    {mensaje : Mensaje UInt32}
    (hdecode : decode instruction (trasFetch c) = some (.syscall mensaje)) :
    RondaHace cfg interrupcion c s (avanzar c.registers) s.memoria.memoriaUsuario := by
  refine rondaHace_termina hlinea .syscallInstruction (s.kernel ++ [mensaje]) (by decide) ?_
  simp [decodeAndExecute, hparse, hdecode, Accion.execute, updateExecutionContext_handleClient]

end Rounds

section Region

theorem setValue_region (r : Register) (value : UInt32) (a : RegisterName) :
    (setValue r value a).base = r.base ∧ (setValue r value a).limite = r.limite := by
  cases a <;> exact ⟨rfl, rfl⟩

theorem jnzInstruction_region (param1 param2 : List Char) (r : Register) :
    (jnzInstruction param1 param2 r).base = r.base ∧
      (jnzInstruction param1 param2 r).limite = r.limite := by
  unfold jnzInstruction
  split_ifs <;> exact ⟨rfl, rfl⟩

/-- No instruction on registers changes the region of the process. -/
theorem decode_region
    {instruction : Instruction} {c : ExecutionContext} {r : Register}
    (hdecode : decode instruction c = some (.registros r)) :
    r.base = c.registers.base ∧ r.limite = c.registers.limite := by
  unfold decode at hdecode
  split at hdecode <;>
    simp only [Option.bind_eq_bind, Option.bind_eq_some_iff, Option.some.injEq, reduceCtorEq,
      and_false, exists_false, Accion.registros.injEq] at hdecode
  · obtain ⟨param1, -, param2, -, rfl⟩ := hdecode
    exact setValue_region _ _ _
  · obtain ⟨param1, -, param2, -, rfl⟩ := hdecode
    exact setValue_region _ _ _
  · obtain ⟨param1, -, param2, -, rfl⟩ := hdecode
    exact setValue_region _ _ _
  · obtain ⟨param1, -, rfl⟩ := hdecode
    exact ⟨rfl, rfl⟩
  · obtain ⟨param1, -, param2, -, rfl⟩ := hdecode
    exact jnzInstruction_region _ _ _

end Region

section Accesses

variable (cfg : Config) (c : ExecutionContext) (g : Globals) {p : MemPcb} {direccion : UInt32}

theorem getRegisterValue_avanzar (r : Register) (a : Registro) :
    getRegisterValue (avanzar r) a.name = getRegisterValue r a.name := by
  cases a <;> rfl

variable (hbase : c.registers.base = p.base) (hlimite : c.registers.limite = p.limite)

include hlimite

/-- From the end of the region on the context is stored and the answer is SEG_FAULT. -/
theorem translateAddress_segFault
    (hle : p.limite ≤ direccion) :
    translateAddress (handleClient cfg) c direccion g =
      some (actualizarRegistros g c.pid c.tid c.registers, segFault) := by
  rw [translateAddress, hlimite, if_pos hle, updateExecutionContext_handleClient]
  rfl

include hbase

/-- Below it an address of the process is translated without overflow, and never to the
number of SEG_FAULT. -/
theorem AccesoPropio.translateAddress
    (h : AccesoPropio p direccion)
    (hlt : ¬ p.limite ≤ direccion)
    (hexacto : p.Exacto) :
    direccion.toNat + 4 ≤ p.size.toNat ∧
      ∃ fisica : UInt32, fisica.toNat = p.base.toNat + direccion.toNat ∧
        fisica.toInt32 ≠ segFault ∧
        translateAddress (handleClient cfg) c direccion g = some (g, fisica.toInt32) := by
  have hfits := h.resolve_left hlt
  have htop := p.limite.toNat_lt
  rw [MemPcb.Exacto] at hexacto
  have hadd : (p.base + direccion).toNat = p.base.toNat + direccion.toNat := by
    rw [UInt32.toNat_add]
    omega
  refine ⟨hfits, p.base + direccion, hadd, ?_, ?_⟩
  · rw [ne_eq, toInt32_eq_segFault, ← UInt32.toNat_inj, hadd]
    simp only [UInt32.reduceToNat]
    omega
  · rw [Cpu.translateAddress, hlimite, if_neg hlt, hbase]

omit hlimite hbase

/-- The user memory as words of four bytes. -/
theorem escribirEnMemoria_eq_putWord (valor : UInt32) (buffer : List UInt8) (posicion : UInt32) :
    escribirEnMemoria valor buffer posicion =
      ProcessMachine.putWord 4 buffer posicion.toNat valor.toNat :=
  rfl

theorem leerUint32EnBuffer_eq_wordIn (posicion : UInt32) (buffer : List UInt8) :
    (leerUint32EnBuffer posicion buffer).map UInt32.toNat =
      ProcessMachine.wordIn 4 buffer posicion.toNat := by
  have hlen : 4 ≤ (buffer.drop posicion.toNat).length ↔ posicion.toNat + 4 ≤ buffer.length := by
    rw [List.length_drop]
    omega
  rw [leerUint32EnBuffer, decode32, ProcessMachine.wordIn]
  by_cases h : posicion.toNat + 4 ≤ buffer.length
  · have hlt := leValue_lt ((buffer.drop posicion.toNat).take 4)
    have hfour : ((buffer.drop posicion.toNat).take 4).length = 4 := by
      rw [List.length_take, Nat.min_eq_left (hlen.mpr h)]
    rw [hfour] at hlt
    rw [if_pos h, if_pos (hlen.mpr h), Option.map_some, UInt32.toNat_ofNat_of_lt' hlt]
  · rw [if_neg h, if_neg (fun hfits => h (hlen.mp hfits)), Option.map_none]

end Accesses

/-- A round of a thread of `p` does what the instruction `i` does to its registers and to
the bytes of its region, and keeps both in their place. -/
structure RondaDe
    (cfg : Config) (interrupcion : Bool) (p : MemPcb) (c : ExecutionContext)
    (s : Conexiones Globals) (i : ProcessMachine.Instr Registro) (r : Register)
    (bytes : List UInt8) :
    Prop where
  hace : RondaHace cfg interrupcion c s r bytes
  efecto : (vista r, ventana bytes p) =
    i.apply 32 4 (vista c.registers) (ventana s.memoria.memoriaUsuario p)
  region : r.base = c.registers.base ∧ r.limite = c.registers.limite
  escribe : bytes = s.memoria.memoriaUsuario ∨ ∃ dir valor, Dentro p dir ∧
    escribirEnMemoria valor s.memoria.memoriaUsuario dir = some bytes

section Effects

variable {cfg : Config} {c : ExecutionContext} {s : Conexiones Globals} {p : MemPcb}
  {linea param1 param2 : List Char} {instruction : Instruction} {interrupcion : Bool}

variable (hlinea : obtenerLineaPseudocodigo cfg s.memoria c.pid c.tid c.registers.pc = some linea)
  (hparse : parseInstruction linea = some instruction)

include hlinea hparse

/-- Instructions on registers and syscalls. -/
theorem rondaDe_of_decodeComo
    {i : RegisterMachine.Instr Registro}
    (h : DecodeComo instruction c i) :
    ∃ r, RondaDe cfg interrupcion p c s (.base i) r s.memoria.memoriaUsuario := by
  obtain ⟨accion, hdecode, hefecto⟩ := h
  rcases hefecto with ⟨r, rfl, hvista⟩ | ⟨rfl, mensaje, rfl⟩
  · exact ⟨r, rondaHace_registros hlinea hparse hdecode, congrArg (·, _) hvista,
      decode_region (c := trasFetch c) hdecode, Or.inl rfl⟩
  · exact ⟨avanzar c.registers, rondaHace_syscall hlinea hparse hdecode,
      congrArg (·, _) (vista_avanzar _), ⟨rfl, rfl⟩, Or.inl rfl⟩

variable {a b : Registro} (hexacto : p.Exacto)
  (hdentro : p.limite.toNat ≤ s.memoria.memoriaUsuario.length)
  (hbase : c.registers.base = p.base) (hlimite : c.registers.limite = p.limite)
  (ha : registroDe param1 = some a) (hb : registroDe param2 = some b)

include hexacto hdentro hbase hlimite ha hb

/-- READ_MEM at an address of the process. -/
theorem rondaDe_readMem
    (hdecode : decode instruction (trasFetch c) = some (.readMem param1 param2))
    (hacceso : AccesoPropio p (getRegisterValue c.registers b.name)) :
    ∃ r, RondaDe cfg interrupcion p c s (.load a b) r s.memoria.memoriaUsuario := by
  have hregs : (vista c.registers).regs b = (getRegisterValue c.registers b.name).toNat :=
    regs_vista _ _
  by_cases hle : p.limite ≤ getRegisterValue c.registers b.name
  · have htranslate := translateAddress_segFault cfg (trasFetch c) s.memoria hlimite hle
    refine ⟨avanzar c.registers, ?_, ?_, ⟨rfl, rfl⟩, Or.inl rfl⟩
    · refine rondaHace_termina hlinea .segFault s.kernel (by decide) ?_
      simp [decodeAndExecute, hparse, hdecode, Accion.execute, readMemInstruction,
        returnRegister_of_registroDe hb, getRegisterValue_avanzar, htranslate]
    · have hout := UInt32.le_iff_toNat_le.mp hle
      rw [hexacto, ← hregs] at hout
      have hno : ProcessMachine.wordIn 4 (ventana s.memoria.memoriaUsuario p)
          ((vista c.registers).regs b) = none := by
        refine if_neg ?_
        rw [ventana, List.length_take]
        omega
      simp only [ProcessMachine.Instr.apply, hno, vista_avanzar]
      rfl
  · obtain ⟨hfits, fisica, hfisica, hne, htranslate⟩ := hacceso.translateAddress cfg
      (trasFetch c) s.memoria hbase hlimite hle hexacto
    have hsize : p.base.toNat + p.size.toNat ≤ s.memoria.memoriaUsuario.length := by
      rw [← hexacto]
      exact hdentro
    have hword := ProcessMachine.wordIn_window hfits hsize
    rw [← hfisica, ← leerUint32EnBuffer_eq_wordIn fisica, ← hregs] at hword
    obtain ⟨valor, hvalor⟩ : ∃ valor, leerUint32EnBuffer fisica s.memoria.memoriaUsuario =
        some valor := by
      rw [leerUint32EnBuffer, decode32, if_pos]
      · exact ⟨_, rfl⟩
      · rw [List.length_drop, hfisica]
        omega
    refine ⟨setValue (avanzar c.registers) valor a.name, ?_, ?_, setValue_region _ _ _, Or.inl rfl⟩
    · refine rondaHace_continua hlinea ?_
      simp [decodeAndExecute, hparse, hdecode, Accion.execute, readMemInstruction,
        returnRegister_of_registroDe ha, returnRegister_of_registroDe hb, getRegisterValue_avanzar,
        htranslate, hne, handleClient, hvalor, datoDe, Retorno.codigo]
    · rw [hvalor, Option.map_some] at hword
      rw [vista_setValue, vista_avanzar]
      simp only [ProcessMachine.Instr.apply, ventana, hword]
      rfl

/-- WRITE_MEM at an address of the process. -/
theorem rondaDe_writeMem
    (hdecode : decode instruction (trasFetch c) = some (.writeMem param1 param2))
    (hacceso : AccesoPropio p (getRegisterValue c.registers a.name)) :
    ∃ bytes, RondaDe cfg interrupcion p c s (.store a b) (avanzar c.registers) bytes := by
  have hregs : (vista c.registers).regs a = (getRegisterValue c.registers a.name).toNat :=
    regs_vista _ _
  by_cases hle : p.limite ≤ getRegisterValue c.registers a.name
  · have htranslate := translateAddress_segFault cfg (trasFetch c) s.memoria hlimite hle
    refine ⟨s.memoria.memoriaUsuario, ?_, ?_, ⟨rfl, rfl⟩, Or.inl rfl⟩
    · refine rondaHace_termina hlinea .segFault s.kernel (by decide) ?_
      simp [decodeAndExecute, hparse, hdecode, Accion.execute, writeMemInstruction,
        returnRegister_of_registroDe ha, getRegisterValue_avanzar, htranslate]
    · have hout := UInt32.le_iff_toNat_le.mp hle
      rw [hexacto, ← hregs] at hout
      have hno : ProcessMachine.putWord 4 (ventana s.memoria.memoriaUsuario p)
          ((vista c.registers).regs a) ((vista c.registers).regs b) = none := by
        refine if_neg ?_
        rw [ventana, List.length_take]
        omega
      simp only [ProcessMachine.Instr.apply, hno, vista_avanzar]
      rfl
  · obtain ⟨hfits, fisica, hfisica, hne, htranslate⟩ := hacceso.translateAddress cfg
      (trasFetch c) s.memoria hbase hlimite hle hexacto
    have hsize : p.base.toNat + p.size.toNat ≤ s.memoria.memoriaUsuario.length := by
      rw [← hexacto]
      exact hdentro
    have hword := ProcessMachine.putWord_window
      (getRegisterValue c.registers b.name).toNat hfits hsize
    rw [← hfisica, ← escribirEnMemoria_eq_putWord _ _ fisica, ← hregs] at hword
    obtain ⟨bytes, hbytes⟩ : ∃ bytes, escribirEnMemoria (getRegisterValue c.registers b.name)
        s.memoria.memoriaUsuario fisica = some bytes := by
      rw [escribirEnMemoria, if_pos]
      · exact ⟨_, rfl⟩
      · rw [hfisica]
        omega
    refine ⟨bytes, ?_, ?_, ⟨rfl, rfl⟩, Or.inr ⟨fisica, _, ⟨?_, ?_⟩, hbytes⟩⟩
    · refine rondaHace_continua hlinea ?_
      simp [decodeAndExecute, hparse, hdecode, Accion.execute, writeMemInstruction,
        returnRegister_of_registroDe ha, returnRegister_of_registroDe hb, getRegisterValue_avanzar,
        htranslate, hne, handleClient, hbytes, Retorno.codigo]
    · rw [hbytes, Option.map_some] at hword
      rw [vista_avanzar]
      simp only [ProcessMachine.Instr.apply, ventana, regs_vista c.registers b, hword]
      rfl
    · rw [hfisica]
      omega
    · rw [hfisica, hexacto]
      omega

omit ha hb hparse in
/-- Every correct line. -/
theorem exists_rondaDe
    (interrupcion : Bool) {i : ProcessMachine.Instr Registro}
    (hi : instruccionDe linea = some i)
    (hacceso : ∀ a ∈ i.address?, AccesoPropio p (getRegisterValue c.registers a.name)) :
    ∃ r bytes, RondaDe cfg interrupcion p c s i r bytes := by
  obtain ⟨instruction, hparse, hname⟩ := Option.bind_eq_some_iff.mp hi
  have hbase' : ∀ j, (instrDe linea).map ProcessMachine.Instr.base = some j →
      ∃ r bytes, RondaDe cfg interrupcion p c s j r bytes := by
    intro j hj
    obtain ⟨k, hk, rfl⟩ := Option.map_eq_some_iff.mp hj
    obtain ⟨instruction', hparse', hcomo⟩ := decode_of_instrDe hk c
    obtain ⟨r, hr⟩ := rondaDe_of_decodeComo hlinea hparse' hcomo
    exact ⟨r, _, hr⟩
  have hskip : ∀ mensaje, decode instruction (trasFetch c) = some (.syscall mensaje) →
      ∃ r bytes, RondaDe cfg interrupcion p c s (.base .skip) r bytes := by
    intro mensaje hdecode
    obtain ⟨r, hr⟩ := rondaDe_of_decodeComo (p := p) hlinea hparse (DecodeComo.syscall hdecode)
    exact ⟨r, _, hr⟩
  cases hop : instruction.name <;> simp only [hop] at hname
  case readMem =>
      simp only [Option.bind_eq_bind, Option.bind_eq_some_iff, Option.some.injEq] at hname
      obtain ⟨param1, h1, a, ha, param2, h2, b, hb, rfl⟩ := hname
      have hdecode : decode instruction (trasFetch c) = some (.readMem param1 param2) := by
        simp [decode, hop, h1, h2]
      obtain ⟨r, hr⟩ := rondaDe_readMem hlinea hparse hexacto hdentro hbase hlimite ha hb hdecode
        (hacceso b rfl)
      exact ⟨r, _, hr⟩
  case writeMem =>
      simp only [Option.bind_eq_bind, Option.bind_eq_some_iff, Option.some.injEq] at hname
      obtain ⟨param1, h1, a, ha, param2, h2, b, hb, rfl⟩ := hname
      have hdecode : decode instruction (trasFetch c) = some (.writeMem param1 param2) := by
        simp [decode, hop, h1, h2]
      obtain ⟨bytes, hr⟩ := rondaDe_writeMem hlinea hparse hexacto hdentro hbase hlimite ha hb
        hdecode (hacceso a rfl)
      exact ⟨_, bytes, hr⟩
  case threadExit =>
      obtain rfl := Option.some.inj hname
      exact hskip (.threadExit c.tid) (by simp only [decode, hop])
  case processExit =>
      obtain rfl := Option.some.inj hname
      exact hskip (.processExit c.tid) (by simp only [decode, hop])
  all_goals
    exact hbase' i hname

end Effects

end SinIdeas
