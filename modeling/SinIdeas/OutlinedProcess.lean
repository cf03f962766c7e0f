import Mathlib.Tactic.IntervalCases
import SinIdeas.Lib.Outlines
import SinIdeas.PrivateProcess

/-!
# Scripts with a proof outline

A process whose scripts have a sound outline keeps it in the machine with all the other
processes: whatever the kernel dispatches and interrupts, every one of its threads is at
a line whose assertion holds, and the words that it reads and writes are its own. Nothing
is asked of its own rounds.
-/

namespace SinIdeas

open Lib Memoria Cpu
open ProcessMachine (Outline Annotated Sound Starts)

/-- An outline for the scripts of a configuration: it is sound, the lines where it holds
are instructions, and the words that they address are in the memory. -/
structure Esquematizado (cfg : Config) (A : Outline Registro UInt32 (List Char)) : Prop where
  sound : Sound 32 4 (codigoDe cfg) A
  lineas : ∀ {id program line regs bytes lineas}, A id program line regs bytes →
    cfg.scripts program = some lineas → line < lineas.length →
    (codigoDe cfg program line).isSome
  accesos : ∀ {id program line regs bytes i}, codigoDe cfg program line = some i →
    A id program line regs bytes → ∀ a ∈ i.address?, regs a + 4 ≤ bytes.length

/-- What the rest of the system does to the process `pid`: its threads are created where
the outline starts, it is not ended, and the other processes are correct. -/
def AjenoCorrecto (cfg : Config) (A : Outline Registro UInt32 (List Char)) (pid : UInt32)
    (s : Maquina) (e : Hecho) : Prop :=
  (∀ tid, hechoDe pid e ≠ some (.run tid)) →
    Correcto cfg s e ∧ e ≠ .pedido (.processExit pid) ∧
      ∀ d v, hechoDe pid e = some d → vistaProceso s pid = some v → Starts A v d

section Outlined

variable {cfg : Config} {A : Outline Registro UInt32 (List Char)} {s s' : Maquina}
  {pid tid : UInt32} {v : ProcessMachine.State Registro UInt32 (List Char)}

/-- The thread that the CPU runs, as the process sees it. -/
theorem Representa.enCpu
    {c : ExecutionContext}
    (h : Representa cfg c.pid s v) (hcpu : s.cpu = some c) :
    ∃ p hilo, buscarProcesoPorPid s.memoria c.pid = some p ∧
      p.threads.find? (fun hilo => hilo.tid == c.tid) = some hilo ∧
      v.bytes = ventana s.memoria.memoriaUsuario p ∧
      { id := c.tid, program := hilo.filePath, state := Cpu.vista c.registers } ∈
        v.threads := by
  obtain ⟨p, hilo, hp, hhilo, -, -⟩ := h.coherente.cpu c hcpu
  have hvista := h.vista
  rw [vistaProceso, hp, Option.map_some, Option.some.injEq] at hvista
  subst hvista
  refine ⟨p, hilo, hp, hhilo, rfl, ?_⟩
  have hpid := buscarProcesoPorPid_pid hp
  have hmod : (conRegistros c.tid c.registers p.threads).find? (fun hilo => hilo.tid == c.tid) =
      some { hilo with regs := MemRegister.ofRegister c.registers } := by
    rw [conRegistros, find?_modifyFirst, hhilo]
    · rfl
    · exact fun _ => rfl
  have hthreads : (procesoVisto s.cpu p).threads = conRegistros c.tid c.registers p.threads := by
    rw [hcpu]
    exact (threads_tras_update p c.pid).trans (if_pos hpid.symm)
  have htid : hilo.tid = c.tid := by simpa using List.find?_some hhilo
  refine List.mem_map.mpr ⟨_, hthreads ▸ List.mem_of_find?_eq_some hmod, ?_⟩
  rw [← htid]
  rfl

theorem vuelta_of_hechoDe
    {e : Hecho}
    (h : hechoDe pid e = some (.run tid)) :
    ∃ interrupcion, e = .vuelta pid tid interrupcion := by
  cases e with
  | dispatch p q =>
      cases h
  | vuelta p q interrupcion =>
      simp only [hechoDe, Option.ite_none_right_eq_some, Option.some.injEq,
        ProcessMachine.Event.run.injEq] at h
      obtain ⟨rfl, rfl⟩ := h
      exact ⟨interrupcion, rfl⟩
  | pedido peticion =>
      cases peticion <;> simp [hechoDe] at h

/-- The own rounds of an outlined process are correct. -/
theorem Esquematizado.correcto
    {interrupcion : Bool}
    (hA : Esquematizado cfg A)
    (h : Representa cfg pid s v) (hv : Annotated A v)
    (hstep : pasoMaquina cfg s (.vuelta pid tid interrupcion) = some s') :
    Correcto cfg s (.vuelta pid tid interrupcion) := by
  obtain ⟨c, hcpu, hres⟩ := Option.bind_eq_some_iff.mp hstep
  split_ifs at hres with hquien
  obtain ⟨rfl, rfl⟩ := hquien
  obtain ⟨p, hilo, hp, hhilo, hbytes, hmem⟩ := h.enCpu hcpu
  have hholds := hv.holds _ hmem
  intro c' hc' p' hp' linea hlinea
  obtain rfl := Option.some.inj (hcpu.symm.trans hc')
  obtain rfl := Option.some.inj (hp.symm.trans hp')
  simp only [obtenerLineaPseudocodigo, hp, hhilo, Option.bind_eq_bind, Option.bind_some,
    Option.mem_def, Option.bind_eq_some_iff] at hlinea
  obtain ⟨lineas, hlineas, hget⟩ := hlinea
  obtain ⟨hlt, -⟩ := List.getElem?_eq_some_iff.mp hget
  obtain ⟨i, hi⟩ := Option.isSome_iff_exists.mp (hA.lineas hholds hlineas hlt)
  have hget' : lineas[(vista c.registers).pc]? = some linea := hget
  have hinstruccion : instruccionDe linea = some i := by
    simpa only [codigoDe, hlineas, hget', Option.bind_eq_bind, Option.bind_some] using hi
  refine ⟨i, hinstruccion, fun a ha => Or.inr ?_⟩
  have hacceso := hA.accesos hi hholds a ha
  rw [regs_vista] at hacceso
  have hlength : v.bytes.length ≤ p.size.toNat := by
    rw [hbytes, ventana, List.length_take]
    exact Nat.min_le_left _ _
  omega

variable (hsort : StableFor ordenarPorBase (cfg.listSort ordenarPorBase)) (hcfg : cfg.Valida)

include hsort hcfg

/-- Every machine that is reached is coherent. -/
theorem coherente_of_corre
    {hechos : List Hecho}
    (hrun : Corre cfg (Correcto cfg) (Maquina.inicio cfg) hechos s) :
    Coherente cfg s :=
  hrun.invariant (coherente_inicio cfg) (fun h hok hstep => h.step hsort hcfg hok hstep)

/-- A step of the system keeps an outlined process. -/
theorem Esquematizado.step
    {e : Hecho}
    (hA : Esquematizado cfg A)
    (h : Representa cfg pid s v) (hv : Annotated A v)
    (hajeno : AjenoCorrecto cfg A pid s e) (hstep : pasoMaquina cfg s e = some s') :
    Representa cfg pid s' ((hechoDe pid e).elim v (v.step 32 4 (codigoDe cfg))) ∧
      Annotated A ((hechoDe pid e).elim v (v.step 32 4 (codigoDe cfg))) := by
  by_cases hpropia : ∃ tid, hechoDe pid e = some (.run tid)
  · -- a round of its own
    obtain ⟨tid, htid⟩ := hpropia
    obtain ⟨interrupcion, rfl⟩ := vuelta_of_hechoDe htid
    have hok := hA.correcto h hv hstep
    refine ⟨h.step hsort hcfg hok (by simp) hstep, ?_⟩
    rw [htid]
    exact hv.step hA.sound (ProcessMachine.starts_run A v tid)
  · -- what the rest does
    obtain ⟨hok, hvive, hempieza⟩ := hajeno (fun tid htid => hpropia ⟨tid, htid⟩)
    refine ⟨h.step hsort hcfg hok hvive hstep, ?_⟩
    cases hd : hechoDe pid e with
    | none =>
        exact hv
    | some d =>
        exact hv.step hA.sound (hempieza d v hd h.vista)

theorem Esquematizado.run
    {hechos : List Hecho} {t : Maquina}
    (hA : Esquematizado cfg A)
    (h : Representa cfg pid s v) (hv : Annotated A v)
    (hrun : Corre cfg (AjenoCorrecto cfg A pid) s hechos t) :
    Representa cfg pid t ((hechos.filterMap (hechoDe pid)).foldl
        (ProcessMachine.State.step 32 4 (codigoDe cfg)) v) ∧
      Annotated A ((hechos.filterMap (hechoDe pid)).foldl
        (ProcessMachine.State.step 32 4 (codigoDe cfg)) v) :=
  Run.projects (fun a m => Representa cfg pid a m ∧ Annotated A m) hrun (hechoDe pid)
    (ProcessMachine.State.step 32 4 (codigoDe cfg)) ⟨h, hv⟩
    (fun ha hajeno hstep => hA.step hsort hcfg ha.1 ha.2 hajeno hstep)

end Outlined

/-- A process with an outline keeps it. In every run of memoria and the CPU in which the
other processes are correct and its threads are created where the outline starts, the
process is what its own private machine computes and every one of its threads is at a
line whose assertion holds, for any dispatches and interruptions. -/
theorem outlined_process_is_correct
    (cfg : Config)
    (hsort : StableFor ordenarPorBase (cfg.listSort ordenarPorBase))
    (hcfg : cfg.Valida)
    {A : Outline Registro UInt32 (List Char)} {hechos₀ hechos : List Hecho} {s t : Maquina}
    {pid : UInt32} {v : ProcessMachine.State Registro UInt32 (List Char)}
    (hA : Esquematizado cfg A)
    (hreach : Corre cfg (Correcto cfg) (Maquina.inicio cfg) hechos₀ s)
    (hv : vistaProceso s pid = some v) (hannotated : Annotated A v)
    (hrun : Corre cfg (AjenoCorrecto cfg A pid) s hechos t) :
    ∃ v', vistaProceso t pid = some v' ∧ Annotated A v' ∧
      v' = (hechos.filterMap (hechoDe pid)).foldl
        (ProcessMachine.State.step 32 4 (codigoDe cfg)) v := by
  obtain ⟨hrepresenta, hend⟩ := hA.run hsort hcfg
    ⟨coherente_of_corre hsort hcfg hreach, hv⟩ hannotated hrun
  exact ⟨_, hrepresenta.vista, hend, rfl⟩

/-- The first of the two neighbours reads back what it wrote. -/
def esquemaVecinos : Outline Registro UInt32 (List Char) := fun id program line regs bytes =>
  id = 0 ∧ program = ['a'] ∧ bytes.length = 8 ∧
    match line with
    | 0 => True
    | 1 => regs .ax = 4
    | 2 => regs .ax = 4 ∧ ProcessMachine.wordIn 4 bytes 4 = some 4
    | 3 => regs .bx = 4
    | _ => False

theorem codigoDe_vecinos (line : Nat) :
    codigoDe cfgVecinos ['a'] line =
      [.base (.set .ax 4), .store .ax .ax, .load .bx .ax][line]? := by
  match line with
  | 0 => decide
  | 1 => decide
  | 2 => decide
  | _ + 3 => rfl

theorem esquematizado_vecinos : Esquematizado cfgVecinos esquemaVecinos where
  sound := by
    refine ⟨?_, ?_⟩
    · rintro id program line regs bytes i hi ⟨rfl, rfl, hlength, h⟩
      rw [codigoDe_vecinos] at hi
      have hline : line < 3 := (List.getElem?_eq_some_iff.mp hi).1
      interval_cases line
      · obtain rfl := Option.some.inj hi
        exact ⟨rfl, rfl, hlength, Function.update_self Registro.ax 4 regs⟩
      · obtain rfl := Option.some.inj hi
        obtain ⟨bytes', hput⟩ := ProcessMachine.exists_putWord (regs .ax)
          (show regs .ax + 4 ≤ bytes.length by rw [h, hlength])
        rw [ProcessMachine.wp_store hput]
        refine ⟨rfl, rfl, (ProcessMachine.length_putWord hput).trans hlength, h, ?_⟩
        rw [h] at hput
        exact ProcessMachine.wordIn_putWord hput
      · obtain rfl := Option.some.inj hi
        rw [ProcessMachine.wp_load (show ProcessMachine.wordIn 4 bytes (regs .ax) = some 4 by
          rw [h.1]; exact h.2)]
        exact ⟨rfl, rfl, hlength, Function.update_self Registro.bx 4 regs⟩
    · rintro id program line regs bytes i id' program' line' regs' hne - ⟨rfl, -⟩ ⟨rfl, -⟩
      exact absurd rfl hne
  lineas := by
    rintro id program line regs bytes lineas ⟨rfl, rfl, -⟩ hlineas hlt
    obtain rfl := Option.some.inj hlineas
    rw [codigoDe_vecinos, List.getElem?_eq_getElem (by exact hlt)]
    rfl
  accesos := by
    rintro id program line regs bytes i hi ⟨rfl, rfl, hlength, h⟩ a ha
    rw [codigoDe_vecinos] at hi
    have hline : line < 3 := (List.getElem?_eq_some_iff.mp hi).1
    interval_cases line
    all_goals obtain rfl := Option.some.inj hi
    · cases ha
    · obtain rfl := Option.some.inj ha
      rw [hlength, h]
    · obtain rfl := Option.some.inj ha
      rw [hlength, h.1]

theorem outlined_process_is_correct_vecinos :
    ∃ (hinicio : (execute (pasoMaquina cfgVecinos) (Maquina.inicio cfgVecinos)
        inicioVecinos).isSome = true) (t : Maquina)
      (v : ProcessMachine.State Registro UInt32 (List Char)),
      execute (pasoMaquina cfgVecinos) ((execute (pasoMaquina cfgVecinos)
        (Maquina.inicio cfgVecinos) inicioVecinos).get hinicio) hechosVecinos = some t ∧
      vistaProceso t 0 = some v ∧ Annotated esquemaVecinos v := by
  have hsort : StableFor ordenarPorBase (cfgVecinos.listSort ordenarPorBase) := by
    rw [ordenarPorBase_eq]
    exact stableFor_insertionSortBy
  have hguard : ∀ {a : Maquina} {e : Hecho},
      (Correcto cfgVecinos a e ∧ e ≠ .pedido (.processExit 0) ∧
        (hechoDe 0 e = none ∨ hechoDe 0 e = some (.run 0))) →
      AjenoCorrecto cfgVecinos esquemaVecinos 0 a e := by
    rintro a e ⟨hok, hvive, hpropio⟩ hno
    refine ⟨hok, hvive, fun d v hd hv => ?_⟩
    rcases hpropio with hpropio | hpropio
    · rw [hpropio] at hd
      cases hd
    · exact absurd hpropio (hno 0)
  have hannotated : Annotated esquemaVecinos
      { threads := [hiloVisto (nuevoHilo 0 ['a'])], bytes := List.replicate 8 0 } := by
    refine ⟨by simp, fun t ht => ?_⟩
    obtain rfl := List.mem_singleton.mp ht
    exact ⟨rfl, rfl, rfl, trivial⟩
  refine ⟨by decide, ?_⟩
  have hfin : (execute (pasoMaquina cfgVecinos) ((execute (pasoMaquina cfgVecinos)
      (Maquina.inicio cfgVecinos) inicioVecinos).get (by decide)) hechosVecinos).isSome = true := by
    decide
  obtain ⟨v, hv, hholds, -⟩ := outlined_process_is_correct cfgVecinos hsort ⟨by decide, by decide⟩
    esquematizado_vecinos (run_of_isSome (pasoMaquina cfgVecinos) id (by decide) (by decide)) rfl
    hannotated ((run_of_isSome (pasoMaquina cfgVecinos) id (by decide) hfin).mono hguard)
  exact ⟨_, v, (Option.some_get hfin).symm, hv, hholds⟩

end SinIdeas
