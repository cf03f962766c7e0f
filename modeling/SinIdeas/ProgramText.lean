import SinIdeas.Cpu.ContextSwitch
import SinIdeas.Cpu.ParseLine
import SinIdeas.Memoria.ScriptFiles
import SinIdeas.WireCycle

/-!
# From a script file to the instruction

A script is a text with one instruction a line. Memoria opens the file and reads it
line by line, cuts the line and sends it in a package, and the CPU receives a string and
parses it: what the CPU decodes at the program counter `i` is the instruction that was
written in line `i`.
-/

namespace SinIdeas

open Lib Utils Memoria Cpu

/-- A script as it is written. The last line may lack its end. -/
structure Programa where
  lineas : List Linea
  eol : Bool
  sinSaltos : ∀ l ∈ lineas, '\n' ∉ l.texto

/-- The text of the file. -/
def Programa.texto (programa : Programa) : List Char :=
  unlines programa.eol (programa.lineas.map Linea.texto)

/-- The instruction that a line says. -/
def Cpu.Linea.instruccion (l : Linea) : Instruction where
  name := stringToOpCode l.name.val
  params := l.textos

/-- The files of scripts: characters of one byte, and less than two gigabytes. -/
def Archivados (archivos : List Char → Option (List Char)) : Prop :=
  ∀ path file, archivos path = some file →
    (∀ ch ∈ file, ch.toNat < 256) ∧ 9 + file.length < 2 ^ 31

section Text

variable {file : List Char}

theorem legible_of_archivados
    (cfg : Config) {archivos : List Char → Option (List Char)}
    (h : Archivados archivos) :
    Legible (cfg.conArchivos archivos) := by
  intro path lineas hlineas linea hmem
  obtain ⟨file, hfile, rfl⟩ := Option.map_eq_some_iff.mp hlineas
  obtain ⟨line, hline, rfl⟩ := List.mem_map.mp hmem
  obtain ⟨hchars, hsmall⟩ := h path file hfile
  have hsub : (line.takeWhile (fun c => c != '\x00')).Sublist file :=
    (List.takeWhile_sublist _).trans (sublist_of_mem_lines hline)
  refine ⟨fun ch hch => ⟨?_, hchars ch (hsub.subset hch)⟩, ?_⟩
  · have hnul : ch ≠ '\x00' := by simpa using List.mem_takeWhile_imp hch
    exact Nat.pos_of_ne_zero (fun hzero => hnul (Char.toNat_inj.mp hzero))
  · have hle := hsub.length_le
    omega

theorem Cpu.Linea.nul_notMem_texto (l : Linea) : '\x00' ∉ l.texto := by
  simp only [Linea.texto, spaced, List.mem_append, List.mem_replicate, List.mem_flatMap,
    List.mem_map, not_or, not_exists, not_and]
  refine ⟨by simp, l.name.property.2.2, ?_, by simp⟩
  rintro piece ⟨param, -, rfl⟩
  exact ⟨by simp, param.2.property.2.2⟩

theorem Cpu.Linea.texto_ne_nil (l : Linea) : l.texto ≠ [] := by
  intro h
  simp only [Linea.texto, List.append_eq_nil_iff] at h
  exact l.name.property.1 h.2.1

/-- The lines of the file are the lines of the script. -/
theorem Programa.lineasDe_texto (programa : Programa) :
    lineasDe programa.texto = programa.lineas.map Linea.texto := by
  have hlines : lines programa.texto = programa.lineas.map Linea.texto := by
    refine lines_unlines programa.eol ?_
    intro line hline
    obtain ⟨l, hl, rfl⟩ := List.mem_map.mp hline
    exact ⟨programa.sinSaltos l hl, l.texto_ne_nil⟩
  rw [lineasDe, hlines, List.map_map]
  refine List.map_congr_left (fun l _ => ?_)
  refine List.takeWhile_eq_self_iff.mpr (fun ch hch => ?_)
  simpa using fun heq : ch = '\x00' => l.nul_notMem_texto (heq ▸ hch)

end Text

/-- What the CPU decodes is what was written. For every script, wherever a thread that
runs it is, the CPU gets over the wire a line that `parse_instruction` reads, in memory
of its own, as the operation and the parameters of the line at the program counter; past
the last line it waits for ever. -/
theorem program_text_is_decoded
    {cfg : Config} {archivos : List Char → Option (List Char)} {p : MemPcb} {hilo : MemTcb}
    (programa : Programa) (fs : List UInt8 → UInt32) (cx c : ExecutionContext)
    (s : Conexiones Globals)
    (harchivos : Archivados archivos)
    (hfile : archivos hilo.filePath = some programa.texto)
    (hp : buscarProcesoPorPid s.memoria c.pid = some p)
    (hhilo : p.threads.find? (fun hilo => hilo.tid == c.tid) = some hilo) :
    (∀ l, programa.lineas[c.registers.pc.toNat]? = some l →
      ∃ linea, fetch (pedirPorRed (cfg.conArchivos archivos) fs cx) c
          (s.map Enlace.limpio) =
          some (s.map Enlace.limpio, { c with registers := avanzar c.registers }, linea) ∧
        ∀ input e, e.heap.cstring '\x00' input = some linea →
          ∃ e' enMemoria, parseInstructionEn input e = some (e', enMemoria) ∧
            Cpu.Representa e e' enMemoria l.instruccion) ∧
    (programa.lineas.length ≤ c.registers.pc.toNat →
      fetch (pedirPorRed (cfg.conArchivos archivos) fs cx) c (s.map Enlace.limpio) = none) := by
  have hred := (respondenIgual_red fs cx (legible_of_archivados cfg harchivos)).fetch c s
  have hlinea : obtenerLineaPseudocodigo (cfg.conArchivos archivos) s.memoria c.pid c.tid
      c.registers.pc = (programa.lineas[c.registers.pc.toNat]?).map Linea.texto := by
    simp only [obtenerLineaPseudocodigo, hp, hhilo, Config.conArchivos, hfile, Option.map_some,
      Option.bind_eq_bind, Option.bind_some, programa.lineasDe_texto, List.getElem?_map]
  constructor
  · intro l hl
    rw [hl, Option.map_some] at hlinea
    refine ⟨l.texto, ?_, ?_⟩
    · rw [hred, fetch_handleClient hlinea]
      rfl
    · intro input e hinput
      have hparse := parseInstructionEn_eq hinput
      rw [l.parseInstruction_texto] at hparse
      exact hparse
  · intro hlength
    rw [List.getElem?_eq_none hlength, Option.map_none] at hlinea
    rw [hred, fetch, handleClient, hlinea]
    rfl

/-- `LOG AX` after `SET AX 1`, without an end of line. -/
def programaCorto : Programa where
  lineas :=
    [{ antes := 0
       name := ⟨['S', 'E', 'T'], by simp⟩
       params := [(0, ⟨['A', 'X'], by simp⟩), (0, ⟨['1'], by simp⟩)]
       despues := 0 },
     { antes := 0
       name := ⟨['L', 'O', 'G'], by simp⟩
       params := [(0, ⟨['A', 'X'], by simp⟩)]
       despues := 0 }]
  eol := false
  sinSaltos := by decide

theorem program_text_is_decoded_log :
    ∃ linea, fetch (pedirPorRed (cfgContador.conArchivos (fun _ => some programaCorto.texto))
          (fun _ => 0) unContexto) (contextoDe 0 0 ⟨1, 0, 0, 0, 0, 0, 0, 0, 0, 0, 16⟩)
          { memoria := Enlace.limpio memoriaContador, kernel := [] } =
        some ({ memoria := Enlace.limpio memoriaContador, kernel := [] },
          contextoDe 0 0 ⟨2, 0, 0, 0, 0, 0, 0, 0, 0, 0, 16⟩, linea) ∧
      ∀ input e, e.heap.cstring '\x00' input = some linea →
        ∃ e' enMemoria, parseInstructionEn input e = some (e', enMemoria) ∧
          Cpu.Representa e e' enMemoria { name := .log, params := [['A', 'X']] } := by
  have htexto : programaCorto.texto =
      ['S', 'E', 'T', ' ', 'A', 'X', ' ', '1', '\n', 'L', 'O', 'G', ' ', 'A', 'X'] := rfl
  have hp : buscarProcesoPorPid memoriaContador 0 =
      some { nuevoProceso 0 0 16 16 with threads := [nuevoHilo 0 ['a']] } := by
    decide
  refine (program_text_is_decoded programaCorto (fun _ => 0) unContexto
    (contextoDe 0 0 ⟨1, 0, 0, 0, 0, 0, 0, 0, 0, 0, 16⟩)
    { memoria := memoriaContador, kernel := [] } ?_ rfl hp rfl).1 _ rfl
  intro path file hfile
  obtain rfl := Option.some.inj hfile
  rw [htexto]
  exact ⟨by simp, by simp⟩

end SinIdeas
