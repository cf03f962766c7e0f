import SinIdeas.Memoria.Tiling
import SinIdeas.Cpu.Instructions

/-!
# Memory isolation

READ_MEM and WRITE_MEM on the CPU against the regions that memoria assigns. The
CPU compares the logical address with LIMITE, which is an absolute address, and
looks at the first byte only; this module says for which logical addresses the
access stays in the region of the process all the same, and what that gives for
the other processes.
-/

namespace SinIdeas

open Lib Memoria Cpu

/-- The address of a request that reads or writes the user memory. -/
def Memoria.Peticion.direccion? : Peticion → Option UInt32
  | .readMemRequest physicalAddress => some physicalAddress
  | .writeMemRequest physicalAddress _ => some physicalAddress
  | _ => none

/-- A port that keeps the requests it receives. -/
def registrar (log : List Peticion) (p : Peticion) : Option (List Peticion × Respuesta) :=
  some (log ++ [p], .dato 0)

/-- The four bytes at `a` lie in the region `[base, limite)` of the process. -/
def Dentro (p : MemPcb) (a : UInt32) : Prop :=
  p.base.toNat ≤ a.toNat ∧ a.toNat + 4 ≤ p.limite.toNat

/-- No process but `p` was given one of the four bytes from `a`. -/
def SinOtroDuenio (g : Globals) (p : MemPcb) (a : Nat) : Prop :=
  ∀ q ∈ g.memoryProcessList, q.pid ≠ p.pid → a + 4 ≤ q.base.toNat ∨ q.limite.toNat ≤ a

/-- The four bytes at `a` are bytes of the region of the process and of no other, and
of the user memory. -/
structure Aislado (tamMemoria : UInt32) (g : Globals) (p : MemPcb) (a : UInt32) : Prop where
  region : Dentro p a
  memoria : a.toNat + 4 ≤ tamMemoria.toNat
  ajenos : SinOtroDuenio g p a.toNat

/-- If the instruction is not answered with SEG_FAULT, every address it asks memoria
to read or write satisfies `P`. -/
def Accesos
    (instruccion :
      ExecutionContext → List Peticion →
        Option (List Peticion × ExecutionContext × Retorno))
    (P : UInt32 → Prop) (c : ExecutionContext) : Prop :=
  ∀ log c' retorno, instruccion c [] = some (log, c', retorno) →
    retorno ≠ .segFault →
      ∀ q ∈ log, ∀ a ∈ q.direccion?, P a

/-- The logical addresses that are safe for a process: those answered with
SEG_FAULT, and those whose four bytes fit in its size. -/
def AccesoSeguro (p : MemPcb) (direccionLogica : UInt32) : Prop :=
  p.limite ≤ direccionLogica ∨
    p.base + direccionLogica = 4294967294 ∨
    (direccionLogica.toNat + 4 ≤ p.size.toNat ∧ p.base.toNat + p.size.toNat < 2 ^ 32)

/-- The logical addresses that are safe for a process and for all the others: those
answered with SEG_FAULT, and those whose four bytes fit in its size and in the user
memory and were given to no other process. -/
def AccesoAislado (tamMemoria : UInt32) (g : Globals) (p : MemPcb)
    (direccionLogica : UInt32) : Prop :=
  p.limite ≤ direccionLogica ∨
    p.base + direccionLogica = 4294967294 ∨
    ((direccionLogica.toNat + 4 ≤ p.size.toNat ∧ p.base.toNat + p.size.toNat < 2 ^ 32) ∧
      p.base.toNat + direccionLogica.toNat + 4 ≤ tamMemoria.toNat ∧
      SinOtroDuenio g p (p.base.toNat + direccionLogica.toNat))

/-- The context comes back with the region of its process. -/
def RegionDevuelta (g : Globals) : Peticion → Prop
  | .executionContextUpdate pid _ r =>
      ∀ p ∈ buscarProcesoPorPid g pid, r.base = p.base ∧ r.limite = p.limite
  | _ => True

/-- The configured memory holds what it is divided into. -/
def Memoria.Config.Valida (cfg : Config) : Prop :=
  0 < cfg.tamMemoria ∧
    (cfg.esquema = .fijas → bytesConfigurados cfg.particiones ≤ cfg.tamMemoria.toNat)

/-- Every region ends where the size of its process says. -/
def Limites (g : Globals) : Prop :=
  ∀ p ∈ g.memoryProcessList, p.limite = p.base + p.size

/-- Every region is inside the user memory and apart from those of the other
processes. -/
structure Aislada (tamMemoria : UInt32) (g : Globals) : Prop where
  dentro : ∀ p ∈ g.memoryProcessList, p.limite.toNat ≤ tamMemoria.toNat
  aparte : ∀ p ∈ g.memoryProcessList, ∀ q ∈ g.memoryProcessList,
    q.pid ≠ p.pid → p.limite.toNat ≤ q.base.toNat ∨ q.limite.toNat ≤ p.base.toNat

section Regions

variable {cfg : Config} {g : Globals}

theorem regionDevuelta_of_regular
    {p : Peticion}
    (h : Regular g p) :
    RegionDevuelta g p := by
  cases p with
  | executionContextUpdate pid tid r => exact h
  | _ => trivial

variable (hsort : StableFor ordenarPorBase (cfg.listSort ordenarPorBase))

include hsort

/-- One request keeps the ends of the regions, under every scheme. -/
theorem Limites.step
    {g' : Globals} {p : Peticion}
    (h : Limites g)
    (hreg : RegionDevuelta g p)
    (hstep : atiende cfg g p = some g') :
    Limites g' := by
  obtain ⟨l, hefecto, hl⟩ := efectoTabla_of_atiende hsort.perm hstep
  intro q hq
  refine hefecto.limites h ?_ q (hl.subset hq)
  rintro pid tid r rfl
  exact hreg

omit hsort in
/-- Disjoint partitions in order are apart both ways. -/
theorem aparte_of_pairwise
    {l : List MemPartition} {p q : MemPartition}
    (h : l.Pairwise (fun p q => p.hi ≤ q.lo))
    (hp : p ∈ l)
    (hq : q ∈ l)
    (hne : p ≠ q) :
    p.hi ≤ q.lo ∨ q.hi ≤ p.lo := by
  have hpair : l.Pairwise (fun p q => p.hi ≤ q.lo ∨ q.hi ≤ p.lo) :=
    h.imp Or.inl
  have hsymm : Std.Symm (fun p q : MemPartition => p.hi ≤ q.lo ∨ q.hi ≤ p.lo) :=
    ⟨fun _ _ => Or.symm⟩
  exact hpair.forall hp hq hne

omit hsort in
theorem aislada_of_ordenada
    (h : Ordenada cfg.tamMemoria g) :
    Aislada cfg.tamMemoria g where
  dentro p hp := (h.packed.mem_bounds (List.mem_map_of_mem hp)).2.2
  aparte p hp q hq hpid := by
    refine aparte_of_pairwise h.packed.pairwise (List.mem_map_of_mem hp)
      (List.mem_map_of_mem hq) (fun heq => hpid ?_)
    exact (congrArg MemPartition.pid heq).symm

omit hsort in
/-- Configured partitions that fit in `tam` bytes isolate their processes there. -/
theorem aislada_of_fijada
    {tam : UInt32}
    (hfit : bytesConfigurados cfg.particiones ≤ tam.toNat)
    (h : Fijada cfg g) :
    Aislada tam g := by
  have hpacked : Packed MemPartition.lo MemPartition.hi 0 tam.toNat
      (g.partitionList.map liberarParticion) := by
    rw [h.marco]
    have hfit' : (0 : UInt32).toNat + bytesConfigurados cfg.particiones ≤ tam.toNat := by
      simpa using hfit
    have hstatic := packed_staticPartitions hfit'
    exact hstatic
  -- a process ends before its partition does
  have hends : ∀ p ∈ g.memoryProcessList, ∀ q ∈ g.partitionList, Aloja q p →
      p.limite.toNat ≤ q.hi := by
    intro p hp q hq hal
    have hmem : liberarParticion q ∈ buildStaticPartitionList cfg.particiones := by
      rw [← h.marco]
      exact List.mem_map_of_mem hq
    have hq' : q.limite = q.base + q.size :=
      limite_of_mem_staticPartitions (q := liberarParticion q) hmem
    obtain ⟨_, hle, hbound⟩ := hpacked.mem_bounds (List.mem_map_of_mem hq)
    have htam : tam.toNat < 4294967296 := tam.toNat_lt
    have hsize := UInt32.le_iff_toNat_le.mp hal.size
    simp only [MemPartition.lo, MemPartition.hi, liberarParticion] at hle hbound ⊢
    rw [hq', UInt32.toNat_add] at hle hbound ⊢
    rw [h.limites p hp, UInt32.toNat_add, ← hal.base]
    have hb := q.base.toNat_lt
    have hs := q.size.toNat_lt
    omega
  refine ⟨fun p hp => ?_, fun p hp q hq hpid => ?_⟩
  · obtain ⟨r, hr, hal⟩ := h.alojado p hp
    exact (hends p hp r hr hal).trans (hpacked.mem_bounds (List.mem_map_of_mem hr)).2.2
  · obtain ⟨r, hr, hal⟩ := h.alojado p hp
    obtain ⟨s, hs, has⟩ := h.alojado q hq
    have hne : r ≠ s := by
      rintro rfl
      exact hpid (has.pid.symm.trans hal.pid)
    have hpair := hpacked.pairwise
    rw [List.pairwise_map] at hpair
    rcases aparte_of_pairwise hpair hr hs hne with hrs | hsr
    · refine Or.inl ((hends p hp r hr hal).trans ?_)
      rw [← has.base]
      exact hrs
    · refine Or.inr ((hends q hq s hs has).trans ?_)
      rw [← hal.base]
      exact hsr

end Regions

section Accesses

variable {p : MemPcb} {c : ExecutionContext} {param1 param2 : List Char}

/-- The translated address is taken for SEG_FAULT only at `2 ^ 32 - 2`. -/
theorem toInt32_eq_segFault
    {a : UInt32} :
    a.toInt32 = segFault ↔ a = 4294967294 := by
  constructor
  · intro h
    have h' := congrArg Int32.toUInt32 h
    rw [UInt32.toUInt32_toInt32] at h'
    exact h'.trans (by decide)
  · rintro rfl
    decide

/-- When the bytes at the translated address are inside the region. -/
theorem dentro_iff
    {direccionLogica : UInt32}
    (hlimite : p.limite = p.base + p.size)
    (hlt : ¬ p.limite ≤ direccionLogica) :
    Dentro p (p.base + direccionLogica) ↔
      direccionLogica.toNat + 4 ≤ p.size.toNat ∧ p.base.toNat + p.size.toNat < 2 ^ 32 := by
  have hb := p.base.toNat_lt
  have hs := p.size.toNat_lt
  have hd := direccionLogica.toNat_lt
  rw [UInt32.le_iff_toNat_le, hlimite, UInt32.toNat_add] at hlt
  rw [Dentro, hlimite, UInt32.toNat_add, UInt32.toNat_add]
  omega

/-- What WRITE_MEM asks memoria for when the logical address is below LIMITE. -/
theorem writeMem_registrar
    {direccionFisica : UInt32}
    (hlt : ¬ c.registers.limite ≤ getRegisterValue c.registers (returnRegister param1))
    (hdir : c.registers.base + getRegisterValue c.registers (returnRegister param1) =
      direccionFisica) :
    writeMemInstruction registrar param1 param2 c [] =
      if direccionFisica = 4294967294 then
        some ([], c, .segFault)
      else
        some ([.writeMemRequest direccionFisica
          (getRegisterValue c.registers (returnRegister param2))], c, .continueInstruction) := by
  simp only [writeMemInstruction, translateAddress, if_neg hlt, hdir, Option.bind_eq_bind,
    Option.bind_some, toInt32_eq_segFault, registrar, UInt32.toUInt32_toInt32, List.nil_append]

/-- What READ_MEM asks memoria for when the logical address is below LIMITE. -/
theorem readMem_registrar
    {direccionFisica : UInt32}
    (hlt : ¬ c.registers.limite ≤ getRegisterValue c.registers (returnRegister param2))
    (hdir : c.registers.base + getRegisterValue c.registers (returnRegister param2) =
      direccionFisica) :
    readMemInstruction registrar param1 param2 c [] =
      if direccionFisica = 4294967294 then
        some ([], c, .segFault)
      else
        some ([.readMemRequest direccionFisica],
          { c with registers := setValue c.registers 0 (returnRegister param1) },
          .continueInstruction) := by
  simp only [readMemInstruction, translateAddress, if_neg hlt, hdir, Option.bind_eq_bind,
    Option.bind_some, toInt32_eq_segFault, registrar, UInt32.toUInt32_toInt32, List.nil_append,
    datoDe]

/-- When the bytes at the translated address are the process's alone. -/
theorem aislado_iff
    {tamMemoria : UInt32} {g : Globals} {direccionLogica : UInt32}
    (hlimite : p.limite = p.base + p.size)
    (hlt : ¬ p.limite ≤ direccionLogica) :
    Aislado tamMemoria g p (p.base + direccionLogica) ↔
      (direccionLogica.toNat + 4 ≤ p.size.toNat ∧ p.base.toNat + p.size.toNat < 2 ^ 32) ∧
        p.base.toNat + direccionLogica.toNat + 4 ≤ tamMemoria.toNat ∧
        SinOtroDuenio g p (p.base.toNat + direccionLogica.toNat) := by
  -- an address that fits does not wrap around
  have hadd : direccionLogica.toNat + 4 ≤ p.size.toNat ∧ p.base.toNat + p.size.toNat < 2 ^ 32 →
      (p.base + direccionLogica).toNat = p.base.toNat + direccionLogica.toNat := by
    intro hfits
    rw [UInt32.toNat_add]
    omega
  constructor
  · intro h
    have hfits := (dentro_iff hlimite hlt).mp h.region
    rw [← hadd hfits]
    exact ⟨hfits, h.memoria, h.ajenos⟩
  · rintro ⟨hfits, hmem, hajenos⟩
    rw [← hadd hfits] at hmem hajenos
    exact ⟨(dentro_iff hlimite hlt).mpr hfits, hmem, hajenos⟩

variable (hbase : c.registers.base = p.base) (hlim : c.registers.limite = p.limite)
variable {P : UInt32 → Prop}
include hbase hlim

/-- The only address that WRITE_MEM asks memoria for. -/
theorem accesos_write_iff :
    Accesos (writeMemInstruction registrar param1 param2) P c ↔
      p.limite ≤ getRegisterValue c.registers (returnRegister param1) ∨
        p.base + getRegisterValue c.registers (returnRegister param1) = 4294967294 ∨
        P (p.base + getRegisterValue c.registers (returnRegister param1)) := by
  unfold Accesos
  by_cases hle : p.limite ≤ getRegisterValue c.registers (returnRegister param1)
  · simp [writeMemInstruction, translateAddress, hlim, hle, updateExecutionContext, registrar]
  · rw [writeMem_registrar (hlim ▸ hle)
      (congrArg (· + getRegisterValue c.registers (returnRegister param1)) hbase)]
    split_ifs with hseg
    · simp [hseg]
    · simp [hle, hseg, Peticion.direccion?]

/-- The only address that READ_MEM asks memoria for. -/
theorem accesos_read_iff :
    Accesos (readMemInstruction registrar param1 param2) P c ↔
      p.limite ≤ getRegisterValue c.registers (returnRegister param2) ∨
        p.base + getRegisterValue c.registers (returnRegister param2) = 4294967294 ∨
        P (p.base + getRegisterValue c.registers (returnRegister param2)) := by
  unfold Accesos
  by_cases hle : p.limite ≤ getRegisterValue c.registers (returnRegister param2)
  · simp [readMemInstruction, translateAddress, hlim, hle, updateExecutionContext, registrar]
  · rw [readMem_registrar (hlim ▸ hle)
      (congrArg (· + getRegisterValue c.registers (returnRegister param2)) hbase)]
    split_ifs with hseg
    · simp [hseg]
    · simp [hle, hseg, Peticion.direccion?]

end Accesses

/-- An access that the MMU lets through stays in the region exactly at the safe
addresses. -/
theorem accesoSeguro_iff
    {p : MemPcb}
    (hlimite : p.limite = p.base + p.size)
    (dir : UInt32) :
    (p.limite ≤ dir ∨ p.base + dir = 4294967294 ∨ Dentro p (p.base + dir)) ↔
      AccesoSeguro p dir := by
  unfold AccesoSeguro
  by_cases hle : p.limite ≤ dir
  · simp [hle]
  · rw [dentro_iff hlimite hle]

/-- An access that the MMU lets through is isolated exactly at the isolated addresses. -/
theorem accesoAislado_iff
    {tamMemoria : UInt32} {g : Globals} {p : MemPcb}
    (hlimite : p.limite = p.base + p.size)
    (dir : UInt32) :
    (p.limite ≤ dir ∨ p.base + dir = 4294967294 ∨ Aislado tamMemoria g p (p.base + dir)) ↔
      AccesoAislado tamMemoria g p dir := by
  unfold AccesoAislado
  by_cases hle : p.limite ≤ dir
  · simp [hle]
  · rw [aislado_iff hlimite hle]

/-- The run of requests that leads memoria from its start to `g`. -/
abbrev Alcanza
    (cfg : Config) (ok : Globals → Peticion → Prop)
    (peticiones : List Peticion) (g : Globals) : Prop :=
  Run (fun g p g' => atiende cfg g p = some g') ok (inicializar cfg) peticiones g

/-- Under a valid configuration the regions of distinct processes are apart. -/
theorem aislada_of_alcanza
    {cfg : Config} {peticiones : List Peticion} {g : Globals}
    (hsort : StableFor ordenarPorBase (cfg.listSort ordenarPorBase))
    (hcfg : cfg.Valida)
    (hrun : Alcanza cfg Regular peticiones g) :
    Aislada cfg.tamMemoria g := by
  cases hesq : cfg.esquema with
  | fijas =>
      have hfij : Fijada cfg g :=
        hrun.invariant (fijada_inicializar hesq)
          (fun h hreg hstep => h.step hesq hreg hstep)
      exact aislada_of_fijada (hcfg.2 hesq) hfij
  | dinamicas =>
      have hord : Ordenada cfg.tamMemoria g :=
        hrun.invariant (ordenada_inicializar hcfg.1 hesq)
          (fun h hreg hstep => h.step hsort hcfg.1 hesq hreg hstep)
      exact aislada_of_ordenada hord
  | otro =>
      have hnil : g.memoryProcessList = [] := by
        refine hrun.invariant (I := fun g => g.memoryProcessList = []) rfl ?_
        intro a b e ha _ hstep
        cases efecto_of_atiende hstep with
        | processCreate pid size =>
            simp [verificarEspacioYCrearProceso, hesq, ha]
        | processExit pid =>
            simp [eliminarProcesoMem, buscarProcesoPorPid, ha]
        | threadCreate pid tid filePath =>
            simp [verificarYAgregarHilo, buscarProcesoPorPid, ha]
        | threadExit pid tid =>
            simp [eliminarHiloMem, buscarProcesoPorPid, ha]
        | executionContextUpdate pid tid r =>
            simp [actualizarRegistros, modificarProceso, modifyFirst, ha]
        | consulta p g' hprocs hlist =>
            rw [hprocs, ha]
      constructor <;> simp [hnil]

/-- Memory that is divided into partitions whose sizes add up to an address gives no
byte to two processes. -/
theorem sinOtroDuenio_of_alcanza
    {cfg : Config} {peticiones : List Peticion} {g : Globals}
    (hsort : StableFor ordenarPorBase (cfg.listSort ordenarPorBase))
    (hcfg : cfg.esquema = .fijas → bytesConfigurados cfg.particiones < 2 ^ 32)
    (hrun : Alcanza cfg Regular peticiones g)
    {p : MemPcb}
    (hp : p ∈ g.memoryProcessList)
    {a : Nat}
    (hlo : p.base.toNat ≤ a)
    (hhi : a + 4 ≤ p.limite.toNat)
    (htam : a + 4 ≤ cfg.tamMemoria.toNat) :
    SinOtroDuenio g p a := by
  obtain ⟨tam, hais⟩ : ∃ tam, Aislada tam g := by
    by_cases hesq : cfg.esquema = .fijas
    · have hfij : Fijada cfg g :=
        hrun.invariant (fijada_inicializar hesq)
          (fun h hreg hstep => h.step hesq hreg hstep)
      refine ⟨4294967295, aislada_of_fijada ?_ hfij⟩
      have hlt := hcfg hesq
      simp only [UInt32.reduceToNat]
      omega
    · refine ⟨cfg.tamMemoria, aislada_of_alcanza hsort ⟨?_, fun h => absurd h hesq⟩ hrun⟩
      rw [UInt32.lt_iff_toNat_lt, UInt32.toNat_zero]
      omega
  intro q hq hpid
  rcases hais.aparte p hp q hq hpid with h | h
  · exact Or.inl (hhi.trans h)
  · exact Or.inr (h.trans hlo)

/-- In every reachable state and for all register values, an access of a thread of `p`
stays in the region of `p` exactly when its logical address is safe, and reaches no byte
of another process and none outside the user memory exactly when the address is isolated
too. No byte has two owners unless the sizes of the fixed partitions wrap around. -/
theorem mmu_isolation_iff
    (cfg : Config)
    (hsort : StableFor ordenarPorBase (cfg.listSort ordenarPorBase))
    {peticiones : List Peticion} {g : Globals}
    (hrun : Alcanza cfg RegionDevuelta peticiones g)
    {pid tid : UInt32} {p : MemPcb} {r : Register}
    (hp : buscarProcesoPorPid g pid = some p)
    (hr : obtenerRegistrosTcb g pid tid = some r)
    (c : ExecutionContext)
    (hbase : c.registers.base = r.base)
    (hlimite : c.registers.limite = r.limite)
    (param1 param2 : List Char) :
    ((Accesos (writeMemInstruction registrar param1 param2) (Dentro p) c ↔
        AccesoSeguro p (getRegisterValue c.registers (returnRegister param1))) ∧
      (Accesos (readMemInstruction registrar param1 param2) (Dentro p) c ↔
        AccesoSeguro p (getRegisterValue c.registers (returnRegister param2)))) ∧
    ((Accesos (writeMemInstruction registrar param1 param2) (Aislado cfg.tamMemoria g p) c ↔
        AccesoAislado cfg.tamMemoria g p
          (getRegisterValue c.registers (returnRegister param1))) ∧
      (Accesos (readMemInstruction registrar param1 param2) (Aislado cfg.tamMemoria g p) c ↔
        AccesoAislado cfg.tamMemoria g p
          (getRegisterValue c.registers (returnRegister param2)))) ∧
    (Alcanza cfg Regular peticiones g →
      (cfg.esquema = .fijas → bytesConfigurados cfg.particiones < 2 ^ 32) →
      ∀ a, Dentro p a → a.toNat + 4 ≤ cfg.tamMemoria.toNat → SinOtroDuenio g p a.toNat) := by
  have hmem : p ∈ g.memoryProcessList := List.mem_of_find?_eq_some hp
  have hlim : p.limite = p.base + p.size := by
    have hlimites : Limites g :=
      hrun.invariant (by simp [Limites, inicializar]) (fun h => h.step hsort)
    exact hlimites p hmem
  -- the context was handed out with the region of `p`
  have hregion : r.base = p.base ∧ r.limite = p.limite := by
    simp only [obtenerRegistrosTcb, hp, Option.bind_eq_bind, Option.bind_some,
      Option.bind_eq_some_iff] at hr
    obtain ⟨hilo, _, hreg⟩ := hr
    obtain rfl := Option.some.inj hreg
    exact ⟨rfl, rfl⟩
  have hcb := hbase.trans hregion.1
  have hcl := hlimite.trans hregion.2
  refine ⟨⟨?_, ?_⟩, ⟨?_, ?_⟩, ?_⟩
  · exact (accesos_write_iff hcb hcl).trans (accesoSeguro_iff hlim _)
  · exact (accesos_read_iff hcb hcl).trans (accesoSeguro_iff hlim _)
  · exact (accesos_write_iff hcb hcl).trans (accesoAislado_iff hlim _)
  · exact (accesos_read_iff hcb hcl).trans (accesoAislado_iff hlim _)
  · intro hreg hcfg a ha htam
    exact sinOtroDuenio_of_alcanza hsort hcfg hreg hmem ha.1 ha.2 htam

/-- Three processes of 16 bytes, one after the other, and a thread of the second. -/
def tresProcesos : List Peticion :=
  [.processCreate 0 16, .processCreate 1 16, .processCreate 2 16, .threadCreate 1 0 ['a']]

/-- The memory after `tresProcesos`. -/
def memoriaDeTres : Globals :=
  (execute (atiende configDinamicas) (inicializar configDinamicas) tresProcesos).get
    (by decide)

theorem alcanza_memoriaDeTres :
    Alcanza configDinamicas Regular tresProcesos memoriaDeTres :=
  run_of_isSome (atiende configDinamicas) (fun h => h) (by decide) _

/-- The second process, resident in `[16, 32)`. -/
def segundoProceso : MemPcb :=
  { nuevoProceso 1 16 32 16 with threads := [nuevoHilo 0 ['a']] }

/-- The context of its thread, with a logical address in AX. -/
def contextoConAX (direccionLogica : UInt32) : ExecutionContext :=
  contextoDe 1 0 { registrosDe segundoProceso (nuevoHilo 0 ['a']) with ax := direccionLogica }

/-- Logical address 8 of the second process is isolated. -/
theorem mmu_isolation_at_8 :
    Accesos (writeMemInstruction registrar "AX".toList "BX".toList)
      (Aislado 64 memoriaDeTres segundoProceso) (contextoConAX 8) := by
  have hp : buscarProcesoPorPid memoriaDeTres 1 = some segundoProceso := by
    decide
  have hr : obtenerRegistrosTcb memoriaDeTres 1 0 =
      some (registrosDe segundoProceso (nuevoHilo 0 ['a'])) := by
    decide
  refine (mmu_isolation_iff configDinamicas estable_configDinamicas
    (alcanza_memoriaDeTres.mono regionDevuelta_of_regular) hp hr
    (contextoConAX 8) rfl rfl _ _).2.1.1.mpr (Or.inr (Or.inr ⟨by decide, by decide, ?_⟩))
  unfold SinOtroDuenio
  decide

/-- Logical address 16 of the second process is below its LIMITE of 32: the write
goes to the first byte of the third process and changes it. -/
theorem mmu_isolation_fails_at_16 :
    Alcanza configDinamicas Regular tresProcesos memoriaDeTres ∧
    buscarProcesoPorPid memoriaDeTres 1 = some segundoProceso ∧
    obtenerRegistrosTcb memoriaDeTres 1 0 =
      some (registrosDe segundoProceso (nuevoHilo 0 ['a'])) ∧
    ¬ Accesos (writeMemInstruction registrar "AX".toList "BX".toList)
      (Dentro segundoProceso) (contextoConAX 16) ∧
    Dentro (nuevoProceso 2 32 48 16) 32 ∧
    buscarProcesoPorPid memoriaDeTres 2 = some (nuevoProceso 2 32 48 16) := by
  refine ⟨alcanza_memoriaDeTres, by decide, by decide, ?_, ⟨by decide, by decide⟩, by decide⟩
  intro h
  have hdentro := h [.writeMemRequest 32 0] (contextoConAX 16) .continueInstruction
    (by decide) (by decide) (.writeMemRequest 32 0) (by decide) 32 (by decide)
  exact absurd hdentro.2 (by decide)

end SinIdeas
