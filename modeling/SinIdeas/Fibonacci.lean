import Mathlib.Data.Nat.Fib.Basic
import SinIdeas.Cpu.ParseLine
import SinIdeas.DumpFiles
import SinIdeas.Memoria.ScriptFiles
import SinIdeas.OutlinedProcess

/-!
# The FIBO scripts

`FIBO_10` to `FIBO_47` write the Fibonacci numbers one after another in the memory of
their process, two in every round of a loop, dump the memory and exit. They are one
script with a number of rounds. The outline of the script says what holds at every line;
so whatever else the machine runs, a process that has executed enough lines of it has the
Fibonacci numbers in its memory.
-/

namespace SinIdeas

open Lib Memoria Cpu
open ProcessMachine (Instr Assertion Outline Annotated wordIn putWord)

/-- The lines of a script with `n` rounds. -/
def fibo (n : Nat) : List (List Char) :=
  ["SET AX 0".toList, "SET BX 1".toList, "SET CX 0".toList,
    "SET DX ".toList ++ Nat.toDigits 10 n, "SET EX 4".toList, "SET FX 1".toList,
    "WRITE_MEM CX AX".toList, "LOG AX".toList, "SUM AX BX".toList, "SUM CX EX".toList,
    "WRITE_MEM CX BX".toList, "LOG BX".toList, "SUM BX AX".toList, "SUM CX EX".toList,
    "SUB DX FX".toList, "JNZ DX 6".toList, "DUMP_MEMORY".toList, "PROCESS_EXIT".toList]

/-- The file of a script: the last line lacks its end. -/
def fiboArchivo (n : Nat) : List Char := unlines false (fibo n)

example : (fibo 23)[3]? = some "SET DX 23".toList := by decide

/-- What the lines mean. -/
def fiboPrograma (n : Nat) : List (Instr Registro) :=
  [.base (.set .ax 0), .base (.set .bx 1), .base (.set .cx 0), .base (.set .dx n),
    .base (.set .ex 4), .base (.set .fx 1), .store .cx .ax, .base .skip, .base (.sum .ax .bx),
    .base (.sum .cx .ex), .store .cx .bx, .base .skip, .base (.sum .bx .ax),
    .base (.sum .cx .ex), .base (.sub .dx .fx), .base (.jnz .dx 6), .base .skip, .base .skip]

section Text

theorem valorDecimal_eq
    {acc : Nat} {l : List Char}
    (hl : ∀ c ∈ l, c.isDigit = true) :
    valorDecimal acc l = Nat.ofDigitChars 10 l acc := by
  induction l generalizing acc with
  | nil =>
      rfl
  | cons c l ih =>
      rw [valorDecimal, if_pos (hl c List.mem_cons_self), Nat.ofDigitChars_cons,
        ih (fun d hd => hl d (List.mem_cons_of_mem c hd))]

theorem isDigit_toDigits (n : Nat) : ∀ c ∈ Nat.toDigits 10 n, c.isDigit = true :=
  fun _ hc => Nat.isDigit_of_mem_toDigits (by decide) (by decide) hc

theorem notMem_toDigits
    (n : Nat) {d : Char}
    (hd : d.isDigit = false) :
    d ∉ Nat.toDigits 10 n := by
  intro hmem
  rw [isDigit_toDigits n d hmem] at hd
  cases hd

/-- A number that is printed is read back. -/
theorem strtoul_toDigits
    {n : Nat}
    (hn : n < 2 ^ 64) :
    strtoul (Nat.toDigits 10 n) = n := by
  have hvalor : valorDecimal 0 (Nat.toDigits 10 n) = n := by
    rw [valorDecimal_eq (isDigit_toDigits n), Nat.ofDigitChars_ten_toDigits]
  have hdigits := isDigit_toDigits n
  cases htext : Nat.toDigits 10 n with
  | nil =>
      exact absurd htext Nat.toDigits_ne_nil
  | cons c l =>
      rw [htext] at hvalor hdigits
      have hc := hdigits c List.mem_cons_self
      have hno : ∀ d, d.isDigit = false → c ≠ d := by
        rintro d hd rfl
        rw [hc] at hd
        cases hd
      have hblanco : esBlanco c = false := by
        simp only [esBlanco, Bool.or_eq_false_iff, decide_eq_false_iff_not]
        exact ⟨⟨⟨⟨⟨hno _ rfl, hno _ rfl⟩, hno _ rfl⟩, hno _ rfl⟩, hno _ rfl⟩, hno _ rfl⟩
      have hdrop : (c :: l).dropWhile esBlanco = c :: l := by
        rw [List.dropWhile_cons, hblanco]
        rfl
      unfold strtoul
      rw [hdrop]
      split
      · rename_i heq
        exact absurd (List.cons.inj heq).1 (hno _ rfl)
      · rename_i heq
        exact absurd (List.cons.inj heq).1 (hno _ rfl)
      · rw [hvalor]
        omega

/-- The lines of the file. -/
theorem lineasDe_fiboArchivo (n : Nat) : lineasDe (fiboArchivo n) = fibo n := by
  have hfibo : ∀ linea ∈ fibo n, linea ∈ fibo 0 ∨
      linea = "SET DX ".toList ++ Nat.toDigits 10 n := by
    intro linea hlinea
    rw [show fibo n = (fibo 0).set 3 ("SET DX ".toList ++ Nat.toDigits 10 n) from rfl] at hlinea
    exact List.mem_or_eq_of_mem_set hlinea
  have htexto : ∀ linea ∈ fibo n, ('\n' ∉ linea ∧ '\x00' ∉ linea) ∧ linea ≠ [] := by
    intro linea hlinea
    rcases hfibo linea hlinea with hlinea | rfl
    · have hzero : ∀ linea ∈ fibo 0, ('\n' ∉ linea ∧ '\x00' ∉ linea) ∧ linea ≠ [] := by
        decide +kernel
      exact hzero linea hlinea
    · simp only [List.mem_append, not_or]
      exact ⟨⟨⟨by decide, notMem_toDigits n rfl⟩, by decide, notMem_toDigits n rfl⟩, by simp⟩
  have hlines : lines (fiboArchivo n) = fibo n :=
    lines_unlines false (fun linea hlinea => ⟨(htexto linea hlinea).1.1, (htexto linea hlinea).2⟩)
  rw [lineasDe, hlines]
  refine (List.map_congr_left (g := id) (fun linea hlinea => ?_)).trans (List.map_id _)
  refine List.takeWhile_eq_self_iff.mpr (fun ch hch => ?_)
  simpa using fun heq : ch = '\x00' => (htexto linea hlinea).1.2 (heq ▸ hch)

theorem instruccionDe_setDx
    {n : Nat}
    (hn : n < 2 ^ 32) :
    instruccionDe ("SET DX ".toList ++ Nat.toDigits 10 n) = some (.base (.set .dx n)) := by
  obtain ⟨linea, hlinea⟩ : ∃ linea : Linea, linea = {
      antes := 0
      name := ⟨"SET".toList, by decide⟩
      params := [(0, ⟨"DX".toList, by decide⟩),
        (0, ⟨Nat.toDigits 10 n, Nat.toDigits_ne_nil, notMem_toDigits n rfl, notMem_toDigits n rfl⟩)]
      despues := 0 } := ⟨_, rfl⟩
  have htexto : linea.texto = "SET DX ".toList ++ Nat.toDigits 10 n := by
    subst hlinea
    simp [Linea.texto, spaced]
  have hparse := linea.parseInstruction_texto
  rw [htexto] at hparse
  have hsalto : quitarSalto (Nat.toDigits 10 n) = Nat.toDigits 10 n := by
    refine if_neg (fun hlast => ?_)
    exact notMem_toDigits n (by decide : '\n'.isDigit = false) (List.mem_of_getLast? hlast)
  subst hlinea
  have hcast : (castingCharToUint32 (Nat.toDigits 10 n)).toNat = n := by
    rw [castingCharToUint32, strtoul_toDigits (by omega)]
    exact UInt32.toNat_ofNat_of_lt' hn
  have hname : stringToOpCode "SET".toList = .set := by decide
  have hdx : registroDe (quitarSalto "DX".toList) = some .dx := by decide
  simp only [instruccionDe, instrDe, hparse, Linea.textos, hname, Instruction.param,
    List.map_cons, List.map_nil, List.getElem?_cons_zero, List.getElem?_cons_succ, Option.map_some,
    Option.bind_eq_bind, Option.bind_some, hdx, hsalto, hcast]

/-- The script is its program. -/
theorem map_instruccionDe_fibo
    {n : Nat}
    (hn : n < 2 ^ 32) :
    (fibo n).map instruccionDe = (fiboPrograma n).map some := by
  have hzero : (fibo 0).map instruccionDe = (fiboPrograma 0).map some := by decide +kernel
  calc (fibo n).map instruccionDe
      = ((fibo 0).map instruccionDe).set 3
          (instruccionDe ("SET DX ".toList ++ Nat.toDigits 10 n)) := rfl
    _ = ((fiboPrograma 0).map some).set 3 (some (.base (.set .dx n))) := by
          rw [hzero, instruccionDe_setDx hn]
    _ = (fiboPrograma n).map some := rfl

end Text

/-- The first `m` words of the memory are the first `m` Fibonacci numbers, in 32 bits. -/
def Escritos (m : Nat) (bytes : List UInt8) : Prop :=
  ∀ i < m, wordIn 4 bytes (4 * i) = some (Nat.fib i % 2 ^ 32)

/-- A place in the loop: the Fibonacci numbers that AX and BX have, the word that CX
addresses, the rounds that DX counts and the words that are written. -/
structure EnVuelta (a b c d m : Nat) (regs : Registro → Nat) (bytes : List UInt8) : Prop where
  ax : regs .ax = Nat.fib a % 2 ^ 32
  bx : regs .bx = Nat.fib b % 2 ^ 32
  cx : regs .cx = 4 * c
  dx : regs .dx = d
  ex : regs .ex = 4
  fx : regs .fx = 1
  escritos : Escritos m bytes

/-- What holds at every line of the script with `n` rounds, in a memory with room for
them. -/
def anotacion (n : Nat) : Assertion Registro := fun line regs bytes =>
  8 * n ≤ bytes.length ∧
    match line with
    | 0 => True
    | 1 => regs .ax = 0
    | 2 => regs .ax = 0 ∧ regs .bx = 1
    | 3 => regs .ax = 0 ∧ regs .bx = 1 ∧ regs .cx = 0
    | 4 => regs .ax = 0 ∧ regs .bx = 1 ∧ regs .cx = 0 ∧ regs .dx = n
    | 5 => regs .ax = 0 ∧ regs .bx = 1 ∧ regs .cx = 0 ∧ regs .dx = n ∧ regs .ex = 4
    | 6 => ∃ j < n, EnVuelta (2 * j) (2 * j + 1) (2 * j) (n - j) (2 * j) regs bytes
    | 7 | 8 => ∃ j < n, EnVuelta (2 * j) (2 * j + 1) (2 * j) (n - j) (2 * j + 1) regs bytes
    | 9 => ∃ j < n, EnVuelta (2 * j + 2) (2 * j + 1) (2 * j) (n - j) (2 * j + 1) regs bytes
    | 10 =>
        ∃ j < n, EnVuelta (2 * j + 2) (2 * j + 1) (2 * j + 1) (n - j) (2 * j + 1) regs bytes
    | 11 | 12 =>
        ∃ j < n, EnVuelta (2 * j + 2) (2 * j + 1) (2 * j + 1) (n - j) (2 * j + 2) regs bytes
    | 13 => ∃ j < n, EnVuelta (2 * j + 2) (2 * j + 3) (2 * j + 1) (n - j) (2 * j + 2) regs bytes
    | 14 => ∃ j < n, EnVuelta (2 * j + 2) (2 * j + 3) (2 * j + 2) (n - j) (2 * j + 2) regs bytes
    | 15 =>
        ∃ j < n, EnVuelta (2 * j + 2) (2 * j + 3) (2 * j + 2) (n - j - 1) (2 * j + 2) regs bytes
    | _ => Escritos (2 * n) bytes

section Outline

variable {n a b c d m line : Nat} {regs : Registro → Nat} {bytes bytes' : List UInt8}

theorem Escritos.escribe
    (h : Escritos m bytes)
    (hput : putWord 4 bytes (4 * m) (Nat.fib m % 2 ^ 32) = some bytes') :
    Escritos (m + 1) bytes' := by
  intro i hi
  rcases Nat.lt_succ_iff_lt_or_eq.mp hi with hi | rfl
  · rw [ProcessMachine.wordIn_putWord_of_apart hput (by omega)]
    exact h i hi
  · rw [ProcessMachine.wordIn_putWord hput]
    simp

/-- The sum of two Fibonacci numbers that follow one another, in a register. -/
theorem fib_mod_add (k : Nat) :
    (Nat.fib k % 2 ^ 32 + Nat.fib (k + 1) % 2 ^ 32) % 2 ^ 32 = Nat.fib (k + 2) % 2 ^ 32 := by
  rw [Nat.fib_add_two, Nat.add_mod (Nat.fib k)]

theorem EnVuelta.conAx
    {a' v : Nat}
    (h : EnVuelta a b c d m regs bytes) (hv : v = Nat.fib a' % 2 ^ 32) :
    EnVuelta a' b c d m (Function.update regs .ax v) bytes where
  ax := by simpa using hv
  bx := by simpa [Function.update] using h.bx
  cx := by simpa [Function.update] using h.cx
  dx := by simpa [Function.update] using h.dx
  ex := by simpa [Function.update] using h.ex
  fx := by simpa [Function.update] using h.fx
  escritos := h.escritos

theorem EnVuelta.conBx
    {b' v : Nat}
    (h : EnVuelta a b c d m regs bytes) (hv : v = Nat.fib b' % 2 ^ 32) :
    EnVuelta a b' c d m (Function.update regs .bx v) bytes where
  ax := by simpa [Function.update] using h.ax
  bx := by simpa using hv
  cx := by simpa [Function.update] using h.cx
  dx := by simpa [Function.update] using h.dx
  ex := by simpa [Function.update] using h.ex
  fx := by simpa [Function.update] using h.fx
  escritos := h.escritos

theorem EnVuelta.conCx
    {c' v : Nat}
    (h : EnVuelta a b c d m regs bytes) (hv : v = 4 * c') :
    EnVuelta a b c' d m (Function.update regs .cx v) bytes where
  ax := by simpa [Function.update] using h.ax
  bx := by simpa [Function.update] using h.bx
  cx := by simpa using hv
  dx := by simpa [Function.update] using h.dx
  ex := by simpa [Function.update] using h.ex
  fx := by simpa [Function.update] using h.fx
  escritos := h.escritos

theorem EnVuelta.conDx
    {d' v : Nat}
    (h : EnVuelta a b c d m regs bytes) (hv : v = d') :
    EnVuelta a b c d' m (Function.update regs .dx v) bytes where
  ax := by simpa [Function.update] using h.ax
  bx := by simpa [Function.update] using h.bx
  cx := by simpa [Function.update] using h.cx
  dx := by simpa using hv
  ex := by simpa [Function.update] using h.ex
  fx := by simpa [Function.update] using h.fx
  escritos := h.escritos

/-- CX goes to the next word. -/
theorem EnVuelta.avanza
    (h : EnVuelta a b c d m regs bytes) (hsmall : 4 * c + 4 < 2 ^ 32) :
    EnVuelta a b (c + 1) d m
      (Function.update regs .cx ((regs .cx + regs .ex) % 2 ^ 32)) bytes := by
  refine h.conCx ?_
  rw [h.cx, h.ex, Nat.mod_eq_of_lt hsmall]
  omega

/-- A register is stored in the word that CX addresses. -/
theorem EnVuelta.escribe
    {r : Registro}
    (h : EnVuelta a b m d m regs bytes) (hr : regs r = Nat.fib m % 2 ^ 32)
    (hfits : 4 * m + 4 ≤ bytes.length) :
    ∃ bytes', putWord 4 bytes (regs .cx) (regs r) = some bytes' ∧
      bytes'.length = bytes.length ∧ EnVuelta a b m d (m + 1) regs bytes' := by
  obtain ⟨bytes', hput⟩ := ProcessMachine.exists_putWord (regs r)
    (show regs .cx + 4 ≤ bytes.length by rw [h.cx]; exact hfits)
  have hput' := hput
  rw [h.cx, hr] at hput'
  exact ⟨bytes', hput, ProcessMachine.length_putWord hput,
    { h with escritos := h.escritos.escribe hput' }⟩

/-- Every line takes its annotation to the next one. -/
theorem anotacion_correcta
    {i : Instr Registro}
    (hpos : 0 < n) (hn : 8 * n < 2 ^ 32)
    (hi : (fiboPrograma n)[line]? = some i) (h : anotacion n line regs bytes) :
    i.wp 32 4 (anotacion n) line regs bytes := by
  have hline : line < 18 := (List.getElem?_eq_some_iff.mp hi).1
  obtain ⟨hlength, h⟩ := h
  interval_cases line
  all_goals
    simp only [fiboPrograma, List.getElem?_cons_zero, List.getElem?_cons_succ,
      Option.some.injEq] at hi
    subst hi
  · -- SET AX 0
    simp [anotacion, hlength]
  · -- SET BX 1
    simpa [anotacion, hlength, Function.update] using h
  · -- SET CX 0
    simpa [anotacion, hlength, Function.update] using h
  · -- SET DX n
    simpa [anotacion, hlength, Function.update] using h
  · -- SET EX 4
    simpa [anotacion, hlength, Function.update] using h
  · -- SET FX 1
    obtain ⟨hax, hbx, hcx, hdx, hex⟩ := h
    have hvuelta : EnVuelta 0 1 0 n 0 (Function.update regs .fx 1) bytes :=
      ⟨by simpa [Function.update] using hax, by simpa [Function.update] using hbx,
        by simpa [Function.update] using hcx, by simpa [Function.update] using hdx,
        by simpa [Function.update] using hex, by simp, fun i hi => absurd hi (Nat.not_lt_zero i)⟩
    simp only [ProcessMachine.wp_set]
    exact ⟨hlength, 0, hpos, hvuelta⟩
  · -- WRITE_MEM CX AX
    obtain ⟨j, hj, h⟩ := h
    obtain ⟨bytes', hput, hlength', h'⟩ := h.escribe h.ax (by omega)
    rw [ProcessMachine.wp_store hput]
    exact ⟨hlength'.symm ▸ hlength, j, hj, h'⟩
  · -- LOG AX
    obtain ⟨j, hj, h⟩ := h
    exact ⟨hlength, j, hj, h⟩
  · -- SUM AX BX
    obtain ⟨j, hj, h⟩ := h
    have hsum := fib_mod_add (2 * j)
    rw [← h.ax, ← h.bx] at hsum
    exact ⟨hlength, j, hj, h.conAx hsum⟩
  · -- SUM CX EX
    obtain ⟨j, hj, h⟩ := h
    exact ⟨hlength, j, hj, h.avanza (by omega)⟩
  · -- WRITE_MEM CX BX
    obtain ⟨j, hj, h⟩ := h
    obtain ⟨bytes', hput, hlength', h'⟩ := h.escribe h.bx (by omega)
    rw [ProcessMachine.wp_store hput]
    exact ⟨hlength'.symm ▸ hlength, j, hj, h'⟩
  · -- LOG BX
    obtain ⟨j, hj, h⟩ := h
    exact ⟨hlength, j, hj, h⟩
  · -- SUM BX AX
    obtain ⟨j, hj, h⟩ := h
    have hsum := fib_mod_add (2 * j + 1)
    rw [← h.ax, ← h.bx] at hsum
    exact ⟨hlength, j, hj, h.conBx hsum⟩
  · -- SUM CX EX
    obtain ⟨j, hj, h⟩ := h
    exact ⟨hlength, j, hj, h.avanza (by omega)⟩
  · -- SUB DX FX
    obtain ⟨j, hj, h⟩ := h
    have hresta : regs .dx - regs .fx = n - j - 1 := by rw [h.dx, h.fx]
    exact ⟨hlength, j, hj, h.conDx hresta⟩
  · -- JNZ DX 6
    obtain ⟨j, hj, h⟩ := h
    simp only [ProcessMachine.wp_jnz, h.dx]
    by_cases hlast : n - j - 1 = 0
    · have hn' : 2 * n = 2 * j + 2 := by omega
      rw [if_neg (by omega)]
      exact ⟨hlength, hn' ▸ h.escritos⟩
    · rw [if_pos hlast]
      exact ⟨hlength, j + 1, by omega, h⟩
  · -- DUMP_MEMORY
    exact ⟨hlength, h⟩
  · -- PROCESS_EXIT
    exact ⟨hlength, h⟩

/-- CX is the only register that addresses the memory, in two lines. -/
theorem direccion_fibo
    {i : Instr Registro} {r : Registro}
    (hi : (fiboPrograma n)[line]? = some i) (hr : r ∈ i.address?) :
    r = .cx ∧ (line = 6 ∨ line = 10) := by
  have hline : line < 18 := (List.getElem?_eq_some_iff.mp hi).1
  interval_cases line
  all_goals
    obtain rfl := Option.some.inj hi
    simp only [Instr.address?, Option.mem_def, Option.some.injEq, reduceCtorEq] at hr
  all_goals
    subst hr
    simp

theorem accesos_fibo
    {i : Instr Registro} {r : Registro}
    (hi : (fiboPrograma n)[line]? = some i) (hr : r ∈ i.address?)
    (h : anotacion n line regs bytes) :
    regs r + 4 ≤ bytes.length := by
  obtain ⟨hlength, h⟩ := h
  obtain ⟨rfl, rfl | rfl⟩ := direccion_fibo hi hr
  · obtain ⟨j, hj, h⟩ := h
    rw [h.cx]
    omega
  · obtain ⟨j, hj, h⟩ := h
    rw [h.cx]
    omega

/-- The lines that are left until the loop ends. -/
def restantes (n line : Nat) (regs : Registro → Nat) : Nat :=
  if line < 6 then 6 - line + 10 * n
  else if line < 15 then 10 * regs .dx - (line - 6)
  else if line = 15 then 10 * regs .dx + 1
  else 0

/-- Inside of the loop a round is being executed. -/
theorem anotacion_dx
    (h : anotacion n line regs bytes) (hfirst : 6 ≤ line) (hlast : line ≤ 14) :
    0 < regs .dx ∧ regs .fx = 1 := by
  obtain ⟨-, h⟩ := h
  interval_cases line
  all_goals
    obtain ⟨j, hj, h⟩ := h
    exact ⟨by rw [h.dx]; omega, h.fx⟩

theorem restantes_baja
    {i : Instr Registro}
    (hi : (fiboPrograma n)[line]? = some i) (h : anotacion n line regs bytes) :
    restantes n (i.apply 32 4 ⟨line, regs⟩ bytes).1.pc (i.apply 32 4 ⟨line, regs⟩ bytes).1.regs ≤
      restantes n line regs - 1 := by
  have hline : line < 18 := (List.getElem?_eq_some_iff.mp hi).1
  have hdx := anotacion_dx h
  obtain ⟨-, h⟩ := h
  interval_cases line
  all_goals
    simp only [fiboPrograma, List.getElem?_cons_zero, List.getElem?_cons_succ,
      Option.some.injEq] at hi
    subst hi
    simp [restantes, Instr.apply, RegisterMachine.Instr.apply, RegisterMachine.State.write]
  case «5» => exact Nat.le_of_eq h.2.2.2.1
  case «15» => split_ifs <;> simp_all
  all_goals
    have hround := hdx (by decide) (by decide)
    omega

end Outline

/-- The outline of a process whose only thread runs the script with `n` rounds. -/
def esquemaFibo (n : Nat) (tid : UInt32) (path : List Char) :
    Outline Registro UInt32 (List Char) := fun id program line regs bytes =>
  id = tid ∧ program = path ∧ anotacion n line regs bytes

/-- What the rest of the system does to the process `pid`, which has the threads that it
has: it is not ended, and the other processes are correct. -/
def AjenoSinHilos (cfg : Config) (pid : UInt32) (s : Maquina) (e : Hecho) : Prop :=
  (∀ tid, hechoDe pid e ≠ some (.run tid)) →
    Correcto cfg s e ∧ e ≠ .pedido (.processExit pid) ∧ hechoDe pid e = none

section Process

variable {cfg : Config} {path : List Char} {n : Nat} {tid : UInt32}

theorem AjenoSinHilos.ajeno
    {A : Outline Registro UInt32 (List Char)} {pid : UInt32} {s : Maquina} {e : Hecho}
    (h : AjenoSinHilos cfg pid s e) :
    AjenoCorrecto cfg A pid s e := by
  intro hno
  obtain ⟨hok, hvive, hnone⟩ := h hno
  refine ⟨hok, hvive, fun d v hd => ?_⟩
  rw [hnone] at hd
  cases hd

theorem AjenoSinHilos.propio
    {pid : UInt32} {s : Maquina} {e : Hecho}
    (h : AjenoSinHilos cfg pid s e) :
    ∀ d, hechoDe pid e = some d → ∃ tid, d = .run tid := by
  intro d hd
  by_contra hno
  have hnone := (h (fun tid htid => hno ⟨tid, Option.some.inj (hd.symm.trans htid)⟩)).2.2
  rw [hnone] at hd
  cases hd

theorem codigoDe_fibo
    (hscript : cfg.scripts path = some (fibo n)) (hn : 8 * n < 2 ^ 32) (i : Nat) :
    codigoDe cfg path i = (fiboPrograma n)[i]? := by
  have hmap := congrArg (fun l => l[i]?) (map_instruccionDe_fibo (n := n) (by omega))
  simp only [List.getElem?_map] at hmap
  rw [codigoDe, hscript, Option.bind_eq_bind, Option.bind_some]
  cases hl : (fibo n)[i]? <;> cases hp : (fiboPrograma n)[i]? <;> simp_all

theorem esquematizado_fibo
    (hscript : cfg.scripts path = some (fibo n)) (hpos : 0 < n) (hn : 8 * n < 2 ^ 32) :
    Esquematizado cfg (esquemaFibo n tid path) where
  sound := by
    refine ⟨?_, ?_⟩
    · rintro id program line regs bytes i hi ⟨rfl, rfl, h⟩
      rw [codigoDe_fibo hscript hn] at hi
      exact ⟨rfl, rfl, anotacion_correcta hpos hn hi h⟩
    · rintro id program line regs bytes i id' program' line' regs' hne - ⟨rfl, -⟩ ⟨rfl, -⟩
      exact absurd rfl hne
  lineas := by
    rintro id program line regs bytes lineas ⟨rfl, rfl, -⟩ hlineas hlt
    obtain rfl := Option.some.inj (hscript.symm.trans hlineas)
    rw [codigoDe_fibo hscript hn, List.getElem?_eq_getElem (by exact hlt)]
    rfl
  accesos := by
    rintro id program line regs bytes i hi ⟨rfl, rfl, h⟩ r hr
    rw [codigoDe_fibo hscript hn] at hi
    exact accesos_fibo hi hr h

theorem variante_fibo
    (hscript : cfg.scripts path = some (fibo n)) (hn : 8 * n < 2 ^ 32) :
    ProcessMachine.Variant 32 4 (codigoDe cfg) (esquemaFibo n tid path)
      (fun _ => restantes n) where
  decreases := by
    rintro id program line regs bytes i hi ⟨rfl, rfl, h⟩
    rw [codigoDe_fibo hscript hn] at hi
    exact restantes_baja hi h
  ends := by
    rintro id program line regs bytes hi ⟨rfl, rfl, -⟩
    rw [codigoDe_fibo hscript hn] at hi
    have hline : 18 ≤ line := List.getElem?_eq_none_iff.mp hi
    rw [restantes, if_neg (by omega), if_neg (by omega), if_neg (by omega)]

/-- Where the loop has ended. -/
theorem anotacion_final
    {line : Nat} {regs : Registro → Nat} {bytes : List UInt8}
    (h : anotacion n line regs bytes) (hfin : restantes n line regs = 0) :
    Escritos (2 * n) bytes := by
  have hdx := anotacion_dx h
  have hline : 16 ≤ line := by
    unfold restantes at hfin
    split_ifs at hfin <;> omega
  obtain ⟨line, rfl⟩ := Nat.exists_eq_add_of_le' hline
  exact h.2

/-- What `outlined` and its variant say of a process that runs the script. -/
theorem fibo_en_memoria
    {hechos : List Hecho} {s t : Maquina} {pid : UInt32} {bytes : List UInt8}
    (hsort : StableFor ordenarPorBase (cfg.listSort ordenarPorBase)) (hcfg : cfg.Valida)
    (hscript : cfg.scripts path = some (fibo n)) (hpos : 0 < n) (hn : 8 * n < 2 ^ 32)
    (h : Representa cfg pid s
      { threads := [{ id := tid, program := path, state := RegisterMachine.start }],
        bytes := bytes })
    (hroom : 8 * n ≤ bytes.length)
    (hrun : Corre cfg (AjenoSinHilos cfg pid) s hechos t)
    (henough : 6 + 10 * n ≤ (hechos.filterMap (hechoDe pid)).count (.run tid)) :
    ∃ v, Representa cfg pid t v ∧ Escritos (2 * n) v.bytes := by
  have hA : Esquematizado cfg (esquemaFibo n tid path) := esquematizado_fibo hscript hpos hn
  have hannotated : Annotated (esquemaFibo n tid path)
      { threads := [{ id := tid, program := path, state := RegisterMachine.start }],
        bytes := bytes } := by
    refine ⟨List.nodup_singleton _, fun u hu => ?_⟩
    obtain rfl := List.mem_singleton.mp hu
    exact ⟨rfl, rfl, hroom, trivial⟩
  obtain ⟨hrepresenta, hend⟩ := hA.run hsort hcfg h hannotated (hrun.mono AjenoSinHilos.ajeno)
  refine ⟨_, hrepresenta, ?_⟩
  -- the thread is there, and the loop has ended
  have hruns : ∀ e ∈ hechos.filterMap (hechoDe pid), ∃ id, e = .run id := by
    intro d hd
    obtain ⟨e, he, hd⟩ := List.mem_filterMap.mp hd
    exact hrun.forall_labels AjenoSinHilos.propio e he d hd
  obtain ⟨u, hu, -, hfin⟩ := hannotated.ends hA.sound (variante_fibo hscript hn) hruns
    (List.mem_singleton_self tid)
    (by simpa [ProcessMachine.rank, restantes, RegisterMachine.start] using henough)
  obtain ⟨-, -, hanotacion⟩ := hend.holds u hu
  exact anotacion_final hanotacion hfin

/-- What memoria has of the process is what the process sees. -/
theorem Representa.memoriaDe
    {s : Maquina} {pid : UInt32} {v : ProcessMachine.State Registro UInt32 (List Char)}
    (h : Representa cfg pid s v) :
    SinIdeas.memoriaDe s.memoria pid = some v.bytes := by
  obtain ⟨p, hp, hvista⟩ := Option.map_eq_some_iff.mp h.vista
  rw [SinIdeas.memoriaDe, hp, Option.map_some, ← hvista]
  rfl

end Process

/-- A process that runs one of the scripts has the Fibonacci numbers in its memory. In
every run of memoria and the CPU with any other correct processes, for any dispatches and
interruptions, once its thread has executed the `6 + 10 n` lines of the loop the first
`2 n` words of the process are the first `2 n` Fibonacci numbers in 32 bits; and they are
what the file holds when a dump of it is answered `OK`. -/
theorem fibo_scripts_write_fibonacci
    (cfg : Config) (archivos : List Char → Option (List Char))
    (hsort : StableFor ordenarPorBase (cfg.listSort ordenarPorBase))
    (hcfg : cfg.Valida)
    {n : Nat} {path : List Char} {hechos₀ hechos : List Hecho} {s t : Maquina}
    {pid tid : UInt32} {bytes : List UInt8}
    (hpos : 0 < n) (hn : 8 * n < 2 ^ 32)
    (hfile : archivos path = some (fiboArchivo n))
    (hreach : Corre (cfg.conArchivos archivos) (Correcto (cfg.conArchivos archivos))
      (Maquina.inicio (cfg.conArchivos archivos)) hechos₀ s)
    (hv : vistaProceso s pid = some
      { threads := [{ id := tid, program := path, state := RegisterMachine.start }], bytes })
    (hroom : 8 * n ≤ bytes.length)
    (hrun : Corre (cfg.conArchivos archivos) (AjenoSinHilos (cfg.conArchivos archivos) pid) s
      hechos t)
    (henough : 6 + 10 * n ≤ (hechos.filterMap (hechoDe pid)).count (.run tid)) :
    ∃ datos, memoriaDe t.memoria pid = some datos ∧ Escritos (2 * n) datos ∧
      ∀ {f : FileSystem.Formato} {x : FileSystem.Entorno} {fs fs' : FileSystem.Proceso f},
        f.Exacto → FileSystem.Durable fs →
        (∀ p, buscarProcesoPorPid t.memoria pid = some p →
          BaseAlineada cfg p ∧ FileSystem.TamanioLegible f p.size) →
        volcar f x t.memoria fs { pid, tid } = some (fs', Utils.OpCode.ok.code) →
        fs'.disco.leer f (FileSystem.metadatosPath f
          (FileSystem.generarNombreArchivo pid tid x.timestamp)) = some datos := by
  have hscript : (cfg.conArchivos archivos).scripts path = some (fibo n) := by
    simp only [Config.conArchivos, hfile, Option.map_some, lineasDe_fiboArchivo]
  have hsort' : StableFor ordenarPorBase
      ((cfg.conArchivos archivos).listSort ordenarPorBase) := hsort
  have hcfg' : (cfg.conArchivos archivos).Valida := hcfg
  have hcoherente := coherente_of_corre hsort' hcfg' hreach
  obtain ⟨v, hrepresenta, hescritos⟩ := fibo_en_memoria hsort' hcfg' hscript hpos hn
    ⟨hcoherente, hv⟩ hroom hrun henough
  obtain ⟨p, hp, -⟩ := Option.map_eq_some_iff.mp hrepresenta.vista
  have hdatos := hrepresenta.memoriaDe
  refine ⟨v.bytes, hdatos, hescritos, ?_⟩
  intro f x fs fs' hf hfs hlegible hvolcar
  have hrecinto := hrepresenta.coherente.recinto hsort' hcfg'
  obtain ⟨hbase, hsize⟩ := hlegible p hp
  have hfile' := (volcar_spec (s := { memoria := t.memoria, fs := fs }) hf hrecinto.regiones
    hrecinto.entera hfs hp hbase (Or.inr hsize) hvolcar).2
  rw [hfile', if_pos rfl, Function.update_self]
  exact hdatos

/-- A memory of 16 bytes, without scripts of its own. -/
def cfgFibo : Config where
  esquema := .dinamicas
  algoritmoBusqueda := .first
  tamMemoria := 16
  particiones := []
  scripts := fun _ => none
  listSort := fun _ => insertionSortBy claveBase

/-- The script with one round, at every path. -/
def archivosFibo : List Char → Option (List Char) := fun _ => some (fiboArchivo 1)

/-- A process of eight bytes for a script with one round. -/
def inicioFibo : List Hecho :=
  [.pedido (.processCreate 0 8), .pedido (.threadCreate 0 0 ['f'])]

/-- The script with an interruption in its loop, and another process created meanwhile. -/
def hechosFibo : List Hecho :=
  .dispatch 0 0 :: List.replicate 8 (.vuelta 0 0 false) ++
    [.vuelta 0 0 true, .pedido (.processCreate 1 4), .dispatch 0 0] ++
    List.replicate 7 (.vuelta 0 0 false)

theorem fibo_scripts_write_fibonacci_unaVuelta :
    ∃ (hinicio : (execute (pasoMaquina (cfgFibo.conArchivos archivosFibo))
        (Maquina.inicio (cfgFibo.conArchivos archivosFibo))
        inicioFibo).isSome = true) (t : Maquina) (datos : List UInt8),
      execute (pasoMaquina (cfgFibo.conArchivos archivosFibo))
        ((execute (pasoMaquina (cfgFibo.conArchivos archivosFibo))
          (Maquina.inicio (cfgFibo.conArchivos archivosFibo))
          inicioFibo).get hinicio) hechosFibo = some t ∧
      memoriaDe t.memoria 0 = some datos ∧ Escritos 2 datos := by
  have hsort : StableFor ordenarPorBase (cfgFibo.listSort ordenarPorBase) := by
    rw [ordenarPorBase_eq]
    exact stableFor_insertionSortBy
  have hguard : ∀ {a : Maquina} {e : Hecho},
      ((Correcto (cfgFibo.conArchivos archivosFibo) a e ∧
        e ≠ .pedido (.processExit 0) ∧ hechoDe 0 e = none) ∨ hechoDe 0 e = some (.run 0)) →
      AjenoSinHilos (cfgFibo.conArchivos archivosFibo) 0 a e := by
    rintro a e (hajeno | hpropio) hno
    · exact hajeno
    · exact absurd hpropio (hno 0)
  refine ⟨by decide, ?_⟩
  have hfin : (execute (pasoMaquina (cfgFibo.conArchivos archivosFibo))
      ((execute (pasoMaquina (cfgFibo.conArchivos archivosFibo))
        (Maquina.inicio (cfgFibo.conArchivos archivosFibo))
        inicioFibo).get (by decide)) hechosFibo).isSome = true := by
    decide +kernel
  have hvista : vistaProceso ((execute (pasoMaquina (cfgFibo.conArchivos archivosFibo))
      (Maquina.inicio (cfgFibo.conArchivos archivosFibo)) inicioFibo).get (by decide)) 0 =
      some { threads := [{ id := 0, program := ['f'], state := RegisterMachine.start }],
             bytes := List.replicate 8 0 } := by
    rw [← hiloVisto_nuevoHilo]
    rfl
  obtain ⟨datos, hdatos, hescritos, -⟩ := fibo_scripts_write_fibonacci cfgFibo
    archivosFibo hsort ⟨by decide, by decide⟩ (by decide) (by decide) rfl
    (run_of_isSome (pasoMaquina _) id (by decide) (by decide)) hvista (by decide)
    ((run_of_isSome (pasoMaquina _) id (by decide +kernel) hfin).mono hguard) (by decide)
  exact ⟨_, datos, (Option.some_get hfin).symm, hdatos, hescritos⟩

end SinIdeas
