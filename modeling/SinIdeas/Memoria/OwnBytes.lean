import SinIdeas.Memoria.ProcessTable
import SinIdeas.Memoria.Tiling
import SinIdeas.Memoria.Replies

/-!
# The bytes of a process in its dump

`obtener_memoria_proceso` divides the base of the process by the size of a word and
copies from that word on, while the regions, the reads and the writes are counted in
bytes. The copy is the region of the process when the base is a multiple of four; no
request makes it one.
-/

namespace SinIdeas
namespace Memoria

open Lib

/-- The user memory has its size, and a memory without room for a word is never
written. -/
structure MemoriaEntera (cfg : Config) (g : Globals) : Prop where
  longitud : g.memoriaUsuario.length = cfg.tamMemoria.toNat
  ceros : cfg.tamMemoria.toNat < 4 →
    g.memoriaUsuario = List.replicate cfg.tamMemoria.toNat 0

/-- A WRITE_MEM request. -/
def EsEscritura (_ : Globals) (p : Peticion) : Prop :=
  ∃ dir valor, p = .writeMemRequest dir valor

/-- The dump of the process is its own bytes: its region is in the user memory, the copy
is that region, as long as the process, and a word written in the region is in the copy
where it is in the region. -/
structure VolcadoPropio (cfg : Config) (g : Globals) (p : MemPcb) : Prop where
  dentro : p.base.toNat + p.size.toNat ≤ g.memoriaUsuario.length
  largo : p.limite - p.base = p.size
  copia : obtenerMemoriaProceso g p.pid =
    some (some ((g.memoriaUsuario.drop p.base.toNat).take p.size.toNat))
  palabra : ∀ (dir valor : UInt32) (g' : Globals), p.base.toNat ≤ dir.toNat →
    dir.toNat + 4 ≤ p.base.toNat + p.size.toNat →
    atiende cfg g (.writeMemRequest dir valor) = some g' →
    ∃ datos, obtenerMemoriaProceso g' p.pid = some (some datos) ∧
      (datos.drop (dir.toNat - p.base.toNat)).take 4 = encode32 valor

/-- The region is in the user memory, and it is empty, starts at a word, or no word fits
in the memory. -/
def BaseAlineada (cfg : Config) (p : MemPcb) : Prop :=
  p.base.toNat + p.size.toNat ≤ cfg.tamMemoria.toNat ∧
    (p.size = 0 ∨ p.base.toNat % 4 = 0 ∨ cfg.tamMemoria.toNat < 4)

section Words

variable {valor posicion : UInt32} {buffer buffer' : List UInt8}

/-- A word is written in place. -/
theorem escribirEnMemoria_spec
    (h : escribirEnMemoria valor buffer posicion = some buffer') :
    posicion.toNat + 4 ≤ buffer.length ∧ buffer'.length = buffer.length ∧
      (buffer'.drop posicion.toNat).take 4 = encode32 valor := by
  unfold escribirEnMemoria at h
  split_ifs at h with hfits
  obtain rfl := Option.some.inj h
  have htake : (buffer.take posicion.toNat).length = posicion.toNat := by
    rw [List.length_take]
    omega
  refine ⟨hfits, ?_, ?_⟩
  · simp only [List.length_append, htake, length_encode32, List.length_drop]
    omega
  · rw [List.append_assoc, List.drop_left' htake, List.take_left' (length_encode32 valor)]

/-- A word of a part of the memory is that word of the memory. -/
theorem take_drop_take_drop
    {base size k : Nat}
    (hk : k + 4 ≤ size) :
    (((buffer.drop base).take size).drop k).take 4 = (buffer.drop (base + k)).take 4 := by
  rw [List.drop_take, List.take_take, List.drop_drop]
  congr 1
  omega

end Words

section Tables

variable {cfg : Config} {g g' : Globals}

/-- The process with a PID is the one that is found. -/
theorem Regiones.buscar
    {p : MemPcb}
    (h : Regiones g)
    (hp : p ∈ g.memoryProcessList) :
    buscarProcesoPorPid g p.pid = some p :=
  (find?_key_iff h.pids).mpr ⟨hp, rfl⟩

/-- The region of a process is as long as the process, whatever wraps around. -/
theorem Regiones.largo
    {p : MemPcb}
    (h : Regiones g)
    (hp : p ∈ g.memoryProcessList) :
    p.limite - p.base = p.size := by
  rw [h.limites p hp, UInt32.add_comm, UInt32.add_sub_cancel]

/-- The user memory changes only when a word is written to it. -/
theorem memoriaUsuario_of_atiende
    {p : Peticion}
    (hstep : atiende cfg g p = some g') :
    g'.memoriaUsuario = g.memoriaUsuario ∨
      ∃ dir valor, escribirEnMemoria valor g.memoriaUsuario dir = some g'.memoriaUsuario := by
  cases p with
  | processCreate pid size =>
      obtain rfl := Option.some.inj hstep
      left
      unfold verificarEspacioYCrearProceso
      split
      · rfl
      · split
        · rfl
        · rfl
      · split
        · rfl
        · rfl
  | processExit pid =>
      obtain rfl := Option.some.inj hstep
      left
      unfold eliminarProcesoMem
      split_ifs
      · simp only
        split
        · rfl
        · rfl
        · rfl
      · rfl
  | threadCreate pid tid filePath =>
      obtain rfl := Option.some.inj hstep
      left
      unfold verificarYAgregarHilo
      split
      · rfl
      · rfl
  | threadExit pid tid =>
      obtain rfl := Option.some.inj hstep
      left
      unfold eliminarHiloMem
      split
      · rfl
      · split_ifs
        · rfl
        · rfl
        · rfl
  | executionContextUpdate pid tid r =>
      obtain rfl := Option.some.inj hstep
      exact Or.inl rfl
  | _ =>
      rcases atiende_consulta rfl hstep with rfl | ⟨dir, valor, buffer, hbuffer, rfl⟩
      · exact Or.inl rfl
      · exact Or.inr ⟨dir, valor, hbuffer⟩

/-- One request keeps the size of the user memory. -/
theorem MemoriaEntera.step
    {p : Peticion}
    (h : MemoriaEntera cfg g)
    (hstep : atiende cfg g p = some g') :
    MemoriaEntera cfg g' := by
  rcases memoriaUsuario_of_atiende hstep with heq | ⟨dir, valor, hwrite⟩
  · exact ⟨heq ▸ h.longitud, heq ▸ h.ceros⟩
  · obtain ⟨hfits, hlength, _⟩ := escribirEnMemoria_spec hwrite
    refine ⟨hlength.trans h.longitud, ?_⟩
    intro hsmall
    rw [h.longitud] at hfits
    omega

theorem memoriaEntera_inicializar (cfg : Config) : MemoriaEntera cfg (inicializar cfg) :=
  ⟨by simp [inicializar], fun _ => rfl⟩

/-- A write of a word that is in the memory is answered. -/
theorem atiende_escritura
    {dir : UInt32}
    (cfg : Config) (valor : UInt32)
    (hfits : dir.toNat + 4 ≤ g.memoriaUsuario.length) :
    ∃ g', atiende cfg g (.writeMemRequest dir valor) = some g' ∧
      g'.memoryProcessList = g.memoryProcessList ∧
      escribirEnMemoria valor g.memoriaUsuario dir = some g'.memoriaUsuario := by
  simp [atiende, handleClient, escribirEnMemoria, hfits]

/-- A write leaves the table alone. -/
theorem memoryProcessList_of_escritura
    {dir valor : UInt32}
    (hstep : atiende cfg g (.writeMemRequest dir valor) = some g') :
    g'.memoryProcessList = g.memoryProcessList ∧
      escribirEnMemoria valor g.memoriaUsuario dir = some g'.memoriaUsuario := by
  simp only [atiende, handleClient, Option.bind_eq_bind, Option.map_bind,
    Option.bind_eq_some_iff] at hstep
  obtain ⟨buffer, hbuffer, hg⟩ := hstep
  obtain rfl := Option.some.inj hg
  exact ⟨rfl, hbuffer⟩

end Tables

section Copies

variable {cfg : Config} {g g' : Globals} {p : MemPcb}

/-- The copy for a resident process: as many bytes as its size, from a word on. -/
theorem obtenerMemoriaProceso_eq
    (hreg : Regiones g)
    (hp : p ∈ g.memoryProcessList) :
    obtenerMemoriaProceso g p.pid =
      if p.base.toNat / 4 * 4 + p.size.toNat ≤ g.memoriaUsuario.length then
        some (some ((g.memoriaUsuario.drop (p.base.toNat / 4 * 4)).take p.size.toNat))
      else
        none := by
  have husada := hreg.largo hp
  have hno : ¬ p.size < p.size := UInt32.lt_irrefl _
  simp only [obtenerMemoriaProceso, hreg.buscar hp, husada, if_neg hno, UInt32.toNat_div]
  rfl

/-- The copy of a region that starts at a word, is empty, or cannot be written. -/
theorem BaseAlineada.copia
    (h : BaseAlineada cfg p)
    (hreg : Regiones g)
    (hmem : MemoriaEntera cfg g)
    (hp : p ∈ g.memoryProcessList) :
    obtenerMemoriaProceso g p.pid =
      some (some ((g.memoriaUsuario.drop p.base.toNat).take p.size.toNat)) := by
  obtain ⟨hdentro, hbase⟩ := h
  have hfits : p.base.toNat / 4 * 4 + p.size.toNat ≤ g.memoriaUsuario.length := by
    rw [hmem.longitud]
    omega
  rw [obtenerMemoriaProceso_eq hreg hp, if_pos hfits]
  congr 2
  rcases hbase with hzero | halign | hsmall
  · rw [hzero]
    simp
  · have hword : p.base.toNat / 4 * 4 = p.base.toNat := by omega
    rw [hword]
  · rw [hmem.ceros hsmall, List.drop_replicate, List.drop_replicate, List.take_replicate,
      List.take_replicate]
    congr 1
    omega

theorem BaseAlineada.volcadoPropio
    (h : BaseAlineada cfg p)
    (hreg : Regiones g)
    (hmem : MemoriaEntera cfg g)
    (hp : p ∈ g.memoryProcessList) :
    VolcadoPropio cfg g p := by
  refine ⟨?_, ?_, h.copia hreg hmem hp, ?_⟩
  · rw [hmem.longitud]
    exact h.1
  · exact hreg.largo hp
  · intro dir valor g' hlo hhi hstep
    obtain ⟨htable, hwrite⟩ := memoryProcessList_of_escritura hstep
    have hreg' : Regiones g' := hreg.perm (List.Perm.of_eq htable)
    refine ⟨_, h.copia hreg' (hmem.step hstep) (htable ▸ hp), ?_⟩
    obtain ⟨_, _, hword⟩ := escribirEnMemoria_spec hwrite
    rw [take_drop_take_drop (by omega), Nat.add_sub_cancel' hlo, hword]

/-- Where the base is not at a word, some write tells the two copies apart. -/
theorem exists_escritura_distinta
    (hreg : Regiones g)
    (hmem : MemoriaEntera cfg g)
    (hp : p ∈ g.memoryProcessList)
    (hdentro : p.base.toNat + p.size.toNat ≤ cfg.tamMemoria.toNat)
    (hno : ¬ BaseAlineada cfg p) :
    ∃ dir valor g', atiende cfg g (.writeMemRequest dir valor) = some g' ∧
      ¬ VolcadoPropio cfg g' p := by
  have hbase : ¬ (p.size = 0 ∨ p.base.toNat % 4 = 0 ∨ cfg.tamMemoria.toNat < 4) :=
    fun h => hno ⟨hdentro, h⟩
  simp only [not_or] at hbase
  obtain ⟨hsize, halign, hroom⟩ := hbase
  have hpos : 0 < p.size.toNat := by
    rw [Nat.pos_iff_ne_zero]
    exact fun hzero => hsize (UInt32.toNat_inj.mp hzero)
  have htam := cfg.tamMemoria.toNat_lt
  -- a word that has both bytes, the first of the region and the first of the copy
  obtain ⟨dir, hlo, hhi, hfits⟩ : ∃ dir : UInt32, dir.toNat ≤ p.base.toNat / 4 * 4 ∧
      p.base.toNat < dir.toNat + 4 ∧ dir.toNat + 4 ≤ cfg.tamMemoria.toNat := by
    refine ⟨UInt32.ofNat (min (p.base.toNat / 4 * 4) (cfg.tamMemoria.toNat - 4)), ?_⟩
    have hdir : (UInt32.ofNat (min (p.base.toNat / 4 * 4) (cfg.tamMemoria.toNat - 4))).toNat =
        min (p.base.toNat / 4 * 4) (cfg.tamMemoria.toNat - 4) :=
      UInt32.toNat_ofNat_of_lt' (by simp only [UInt32.size]; omega)
    rw [hdir]
    omega
  obtain ⟨g', hstep, htable, hwrite⟩ := atiende_escritura cfg 50462976
    (show dir.toNat + 4 ≤ g.memoriaUsuario.length from hmem.longitud ▸ hfits)
  refine ⟨dir, 50462976, g', hstep, ?_⟩
  intro hpropio
  have hreg' : Regiones g' := hreg.perm (List.Perm.of_eq htable)
  have hcopia := hpropio.copia
  rw [obtenerMemoriaProceso_eq hreg' (htable ▸ hp)] at hcopia
  split_ifs at hcopia
  simp only [Option.some.injEq] at hcopia
  have hbytes : g'.memoriaUsuario[p.base.toNat / 4 * 4]? = g'.memoriaUsuario[p.base.toNat]? := by
    have hfirst := congrArg (fun l => l[0]?) hcopia
    simpa [List.getElem?_take, hpos] using hfirst
  obtain ⟨_, _, hword⟩ := escribirEnMemoria_spec hwrite
  have hvalor : encode32 50462976 = [0, 1, 2, 3] := by decide
  rw [hvalor] at hword
  have hbyte : ∀ k, k < 4 → g'.memoriaUsuario[dir.toNat + k]? = [0, 1, 2, 3][k]? := by
    intro k hk
    have hget := congrArg (fun l => l[k]?) hword
    simpa [List.getElem?_take, hk] using hget
  -- the bytes of the word are all different
  have hdistinct : ∀ j < 4, ∀ i < j,
      ([0, 1, 2, 3] : List UInt8)[i]? ≠ ([0, 1, 2, 3] : List UInt8)[j]? := by
    decide
  have hcopied := hbyte (p.base.toNat / 4 * 4 - dir.toNat) (by omega)
  have hown := hbyte (p.base.toNat - dir.toNat) (by omega)
  rw [Nat.add_sub_cancel' (by omega)] at hcopied hown
  exact hdistinct (p.base.toNat - dir.toNat) (by omega) (p.base.toNat / 4 * 4 - dir.toNat)
    (by omega) (hcopied.symm.trans (hbytes.trans hown))

end Copies

/-- After every sequence of requests the dump of a resident process is its own bytes, now
and after every write, exactly when its region is in the user memory and it is empty or
starts at a word. -/
theorem dump_copies_own_bytes_iff
    (cfg : Config)
    (hperm : ∀ l, (cfg.listSort ordenarPorBase l).Perm l)
    {peticiones : List Peticion} {g : Globals}
    (hrun : Run (fun g p g' => atiende cfg g p = some g') Regular
      (inicializar cfg) peticiones g)
    {p : MemPcb}
    (hp : p ∈ g.memoryProcessList) :
    (∀ escrituras g', Run (fun g p g' => atiende cfg g p = some g') EsEscritura
      g escrituras g' → VolcadoPropio cfg g' p) ↔ BaseAlineada cfg p := by
  obtain ⟨hreg, hmem⟩ : Regiones g ∧ MemoriaEntera cfg g :=
    hrun.invariant (I := fun g => Regiones g ∧ MemoriaEntera cfg g)
      ⟨regiones_inicializar cfg, memoriaEntera_inicializar cfg⟩
      (fun h hreg hstep => ⟨h.1.step hperm hreg hstep, h.2.step hstep⟩)
  constructor
  · intro h
    by_contra hno
    have hdentro : p.base.toNat + p.size.toNat ≤ cfg.tamMemoria.toNat := by
      rw [← hmem.longitud]
      exact (h [] g Run.nil).dentro
    obtain ⟨dir, valor, g', hstep, hdistinta⟩ :=
      exists_escritura_distinta hreg hmem hp hdentro hno
    exact hdistinta (h [.writeMemRequest dir valor] g'
      (Run.snoc Run.nil ⟨dir, valor, rfl⟩ hstep))
  · intro hbase escrituras g' hwrites
    -- a write changes neither the table nor the size of the memory
    obtain ⟨htable, hmem'⟩ : g'.memoryProcessList = g.memoryProcessList ∧ MemoriaEntera cfg g' :=
      hwrites.invariant
        (I := fun s => s.memoryProcessList = g.memoryProcessList ∧ MemoriaEntera cfg s)
        ⟨rfl, hmem⟩ (by
          rintro a b e ⟨htable, hentera⟩ ⟨dir, valor, rfl⟩ hstep
          exact ⟨(memoryProcessList_of_escritura hstep).1.trans htable, hentera.step hstep⟩)
    exact hbase.volcadoPropio (hreg.perm (List.Perm.of_eq htable)) hmem' (htable ▸ hp)

/-- A process that starts after one of eight bytes. -/
theorem dump_copies_own_bytes_eight :
    ∃ h : (execute (atiende configDinamicas) (inicializar configDinamicas)
        [.processCreate 0 8, .processCreate 1 8, .writeMemRequest 8 7]).isSome = true,
      VolcadoPropio configDinamicas ((execute (atiende configDinamicas) (inicializar configDinamicas)
        [.processCreate 0 8, .processCreate 1 8, .writeMemRequest 8 7]).get h)
        (nuevoProceso 1 8 16 8) := by
  refine ⟨by decide, ?_⟩
  refine (dump_copies_own_bytes_iff configDinamicas estable_configDinamicas.perm
    (run_of_isSome (atiende configDinamicas) (fun h => h) (by decide) _)
    (by decide)).mpr ?_ [] _ Run.nil
  exact ⟨by decide, Or.inr (Or.inl (by decide))⟩

/-- The dump of a process that starts after one of three bytes begins with the bytes of
the other one. -/
theorem dump_starts_at_word :
    ¬ ∀ (cfg : Config) (peticiones : List Peticion) (g : Globals) (p : MemPcb),
        (∀ l, (cfg.listSort ordenarPorBase l).Perm l) →
        Run (fun g p g' => atiende cfg g p = some g') Regular (inicializar cfg) peticiones g →
        p ∈ g.memoryProcessList →
        VolcadoPropio cfg g p := by
  intro hclaim
  have hrun : Run (fun g p g' => atiende configDinamicas g p = some g') Regular
      (inicializar configDinamicas) [.processCreate 0 3, .processCreate 1 8, .writeMemRequest 3 7] _ :=
    run_of_isSome (atiende configDinamicas) id (by decide) (by decide)
  have hpropio := hclaim configDinamicas _ _ (nuevoProceso 1 3 11 8) estable_configDinamicas.perm hrun
    (by decide)
  exact absurd hpropio.copia (by decide)

end Memoria
end SinIdeas
