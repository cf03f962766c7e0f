import SinIdeas.Lib.History
import SinIdeas.FileSystem.Store
import SinIdeas.Memoria.OwnBytes
import SinIdeas.Memoria.Summary
import SinIdeas.Sessions

/-!
# From the memory of a process to its file

A DUMP_MEMORY goes through three modules: memoria copies the bytes of the process and
sends them in a package, the file system deserializes it, names a file and creates it,
and its answer comes back as the answer to the kernel. Here memoria and the file system
run together, with any requests of the CPU and the kernel between the dumps and with the
file system stopping and starting again, and the files are at every moment the log of
the dumps that were answered `OK`.
-/

namespace SinIdeas

open Lib Utils

namespace FileSystem

/-- What a dump finds outside the module: the text of the clock, whether the name opens in
the working directory, and whether the metadata file can be opened. -/
structure Entorno where
  timestamp : List Char
  existe : Bool
  abre : Bool
  deriving DecidableEq

/-- `generar_nombre_archivo`: `"%d-%d-%s.dmp"` in an array of 256 characters. -/
def generarNombreArchivo (pid tid : UInt32) (timestamp : List Char) : List Char :=
  snprintf 256 (Memoria.decimal pid ++ ['-'] ++ Memoria.decimal tid ++ ['-'] ++ timestamp ++
    ['.', 'd', 'm', 'p'])

/-- The call of `crear_archivo` for a dump. -/
def creacionDe (x : Entorno) (c : DumpContext)
    (h : c.datos.length = c.tamanioProceso.toNat) : Creacion where
  nombre := generarNombreArchivo c.pid c.tid x.timestamp
  size := c.tamanioProceso
  datos := c.datos
  length_datos := h
  existe := x.existe
  abre := x.abre

/-- Whether `crear_archivo` returns 0. -/
def devuelveCero (f : Formato) (bitmap : Bitmap f.bitmapSize) (c : Creacion) : Bool :=
  !c.existe && decide (c.size ≠ 0) && (asignar f bitmap c.size c.datos).indice.isSome && c.abre

/-- `execute_dump_memory`; `none` for data shorter than the size says. -/
def executeDumpMemory (f : Formato) (x : Entorno) (c : DumpContext) (s : Proceso f) :
    Option (Proceso f × OpCode) :=
  if h : c.datos.length = c.tamanioProceso.toNat then do
    let s' ← pasoFs f s (.crea (creacionDe x c h))
    some (s', if devuelveCero f s.bitmap (creacionDe x c h) then .ok else .error)
  else
    none

/-- `handle_client` and `ejecutar_dump_memory` on a package, with the bytes that are sent
back. -/
def atenderVolcado (f : Formato) (x : Entorno) (paquete : List UInt8) (s : Proceso f) :
    Option (Proceso f × List UInt8) := do
  let (codOp, conexion) ← receiveOperationCode (Conexion.abierta paquete)
  let (lista, _) ← receivePackage conexion
  let op ← Utils.OpCode.ofInt codOp
  let contextos ← manejador op lista[0]? []
  let contexto ← contextos.head?
  let (s, codigo) ← executeDumpMemory f x contexto s
  some (s, encode32 codigo.code)

section Dumps

variable {f : Formato} {x : Entorno} {s : Proceso f}

/-- The value that `crear_archivo` returns. -/
theorem crearArchivo_snd
    (f : Formato) (c : Creacion) (fs : Fs f) :
    (crearArchivo f c fs).2 = devuelveCero f fs.bitmap c := by
  unfold crearArchivo devuelveCero
  by_cases hexiste : c.existe = true
  · simp [hexiste]
  by_cases hsize : c.size = 0
  · simp [hexiste, hsize]
  simp only [if_neg hexiste, if_neg hsize, asignarBloques]
  cases (asignar f fs.bitmap c.size c.datos).indice with
  | none =>
      simp
  | some indice =>
      cases c.abre <;> simp [hexiste, hsize]

/-- A call returns 0 when there is room and the metadata file opens. -/
theorem devuelveCero_iff
    {c : Creacion}
    (hok : SeLee f c) :
    devuelveCero f s.bitmap c = true ↔ (almacenDe f s).TieneLugar f c ∧ c.abre = true := by
  have hasigna : c.existe = false → c.size ≠ 0 →
      ((asignar f s.bitmap c.size c.datos).indice.isSome = true ↔
        f.bloquesPara c.size < s.bitmap.libres.length) := by
    intro hexiste hsize
    obtain ⟨_, _, _, hsum⟩ := hok.resto hexiste hsize
    have hn := bloquesNecesarios_of_le hsum
    constructor
    · intro h
      by_contra hno
      rw [(asignar_sinBloques c.datos (by omega)).1] at h
      cases h
    · intro h
      obtain ⟨indice, ds, htomados⟩ := exists_tomados c.size
        (show f.bloquesNecesarios c.size < s.bitmap.libres.length by omega)
      rw [(asignar_eq c.datos htomados).1]
      rfl
  unfold devuelveCero Almacen.TieneLugar
  cases hexiste : c.existe with
  | true =>
      simp
  | false =>
      by_cases hsize : c.size = 0
      · simp [hsize]
      · simp [hsize, hasigna hexiste hsize, almacenDe]

/-- A dump is a file with its bytes exactly when it is answered `OK`; an `ERROR` leaves the
files as they were. -/
theorem executeDumpMemory_spec
    {c : DumpContext} {s' : Proceso f} {op : OpCode}
    (hf : f.Exacto) (hs : Durable s)
    (hsize : c.tamanioProceso = 0 ∨ TamanioLegible f c.tamanioProceso)
    (h : executeDumpMemory f x c s = some (s', op)) :
    Durable s' ∧
      (op = .ok ∧ s'.disco.leer f = Function.update (s.disco.leer f)
          (metadatosPath f (generarNombreArchivo c.pid c.tid x.timestamp)) (some c.datos) ∨
        op = .error ∧ s'.disco.leer f = s.disco.leer f) := by
  by_cases hdatos : c.datos.length = c.tamanioProceso.toNat
  swap
  · rw [executeDumpMemory, dif_neg hdatos] at h
    cases h
  rw [executeDumpMemory, dif_pos hdatos] at h
  obtain ⟨s₁, hpaso, h⟩ := Option.bind_eq_some_iff.mp h
  have hok : SeLee f (creacionDe x c hdatos) := Or.inr hsize
  have hiff := devuelveCero_iff (s := s) hok
  obtain ⟨hdurable, hstore⟩ := hs.crea hf hok hpaso
  have hleer : s₁.disco.leer f = ((almacenDe f s).paso f (.crea (creacionDe x c hdatos))).archivos :=
    congrArg Almacen.archivos hstore
  rw [Almacen.paso] at hleer
  split_ifs at hleer with hlugar habre
  · rw [if_pos (hiff.mpr ⟨hlugar, habre⟩)] at h
    cases h
    exact ⟨hdurable, Or.inl ⟨rfl, hleer⟩⟩
  · rw [if_neg (fun hcero => habre (hiff.mp hcero).2)] at h
    cases h
    exact ⟨hdurable, Or.inr ⟨rfl, hleer⟩⟩
  · rw [if_neg (fun hcero => hlugar (hiff.mp hcero).1)] at h
    cases h
    exact ⟨hdurable, Or.inr ⟨rfl, hleer⟩⟩

/-- The process starts again between two calls. -/
theorem Durable.reinicia
    {s' : Proceso f}
    (hs : Durable s) (hf : f.Exacto) (h : reiniciar f s.disco = some s') :
    Durable s' ∧ s'.disco.leer f = s.disco.leer f := by
  obtain ⟨guardado, hbytes, hsalvo⟩ := hs.enPie.enDisco
  have henPie := Guardado.reinicia ⟨guardado, hbytes, hsalvo⟩ h
  rw [reiniciar_guardado hf hbytes hs.largo] at h
  cases h
  exact ⟨⟨henPie, hs.largo, hs.caben⟩, rfl⟩

end Dumps

end FileSystem

open Memoria FileSystem

/-- DUMP_MEMORY in memoria: the package for the file system, and the code that
`wait_for_response` reads. -/
def volcar (f : Formato) (x : Entorno) (g : Globals) (s : Proceso f) (d : DumpMemory) :
    Option (Proceso f × UInt32) := do
  let paquete ← pedirDump g d
  let (s, respuesta) ← atenderVolcado f x paquete s
  let (codigo, _) ← waitForResponse (Conexion.abierta respuesta)
  some (s, codigo)

/-- Memoria and the file system. -/
structure MemoriaYDisco (f : Formato) where
  memoria : Globals
  fs : Proceso f

/-- A request to memoria, a dump, or a stop of the file system between two dumps. -/
inductive SucesoVolcado where
  | pide (p : Peticion)
  | vuelca (d : DumpMemory) (x : Entorno)
  | reinicia
  deriving DecidableEq

/-- One step of memoria and the file system. -/
def pasoVolcado (cfg : Config) (f : Formato) (s : MemoriaYDisco f) :
    SucesoVolcado → Option (MemoriaYDisco f)
  | .pide p => (atiende cfg s.memoria p).map (fun g => { s with memoria := g })
  | .vuelca d x => (volcar f x s.memoria s.fs d).map (fun r => { s with fs := r.1 })
  | .reinicia => (reiniciar f s.fs.disco).map (fun fs => { s with fs := fs })

/-- Processes are created with new PIDs, and the processes that are dumped start at a word
and have a size whose contents come back. -/
def VuelcaEntero (cfg : Config) {f : Formato} (s : MemoriaYDisco f) : SucesoVolcado → Prop
  | .pide p => Regular s.memoria p
  | .vuelca d _ => ∀ p, buscarProcesoPorPid s.memoria d.pid = some p →
      BaseAlineada cfg p ∧ (p.size = 0 ∨ TamanioLegible f p.size)
  | .reinicia => True

/-- The bytes of the process with the PID. -/
def memoriaDe (g : Globals) (pid : UInt32) : Option (List UInt8) :=
  (buscarProcesoPorPid g pid).map
    (fun p => (g.memoriaUsuario.drop p.base.toNat).take p.size.toNat)

/-- The log of the dumps: a dump that is answered `OK` leaves the bytes that the process
has at that moment under its path. -/
def registrarVolcado {f : Formato} (registro : List Char → Option (List UInt8))
    (s : MemoriaYDisco f) : SucesoVolcado → List Char → Option (List UInt8)
  | .vuelca d x =>
      if (volcar f x s.memoria s.fs d).map Prod.snd = some Utils.OpCode.ok.code then
        Function.update registro
          (metadatosPath f (generarNombreArchivo d.pid d.tid x.timestamp))
          (memoriaDe s.memoria d.pid)
      else registro
  | _ => registro

section Packages

/-- The buffer of a dump with its data. -/
theorem serializeDumpContext_eq
    {v : DumpContext}
    (hdatos : v.datos.length = v.tamanioProceso.toNat)
    (hsmall : 12 + v.tamanioProceso.toNat < 2 ^ 32) :
    ∃ b, serializeDumpContext v = some b ∧ b.size.toNat = b.stream.length ∧
      b.stream.length = 12 + v.tamanioProceso.toNat ∧
      ∃ visited, deserializeDumpContext.run b.stream = some (v, visited) := by
  have hword : (4 + 4 + 4 + v.tamanioProceso).toNat = 12 + v.tamanioProceso.toNat := by
    rw [UInt32.toNat_add]
    exact Nat.mod_eq_of_lt hsmall
  have hfields : [encode32 v.pid, encode32 v.tid, encode32 v.tamanioProceso,
      v.datos].flatten.length = 12 + v.tamanioProceso.toNat := by
    simp only [List.flatten_cons, List.flatten_nil, List.length_append, length_encode32, hdatos,
      List.length_nil]
    omega
  obtain ⟨b, hb, hcontent, -⟩ := Block.copyAll_fresh (4 + 4 + 4 + v.tamanioProceso).toNat
    [encode32 v.pid, encode32 v.tid, encode32 v.tamanioProceso, v.datos] (by omega) (by omega)
  have hrun := (decodes_dumpContext hdatos.symm).run []
  rw [List.append_nil, ← hcontent] at hrun
  have hlength : b.content.length = 12 + v.tamanioProceso.toNat := hcontent ▸ hfields
  refine ⟨{ size := 4 + 4 + 4 + v.tamanioProceso, stream := b.content, escritos := b.written },
    ?_, hword.trans hlength.symm, hlength, _, hrun⟩
  rw [serializeDumpContext, copiaDe_length hdatos.symm, Option.bind_eq_bind, Option.bind_some,
    serializarEn, hb]
  rfl

/-- A dump is sent in a package that the file system reads back. -/
theorem sendDumpMemory_llega
    {v : DumpContext} {paquete : List UInt8}
    (hdatos : v.datos.length = v.tamanioProceso.toNat)
    (h : sendDumpMemory v = some paquete) (f : Formato) (x : Entorno) (s : Proceso f) :
    atenderVolcado f x paquete s =
      (executeDumpMemory f x v s).map (fun r => (r.1, encode32 r.2.code)) := by
  obtain ⟨_, hsmall⟩ := (sendDumpMemory_iff v).mp ⟨paquete, h⟩
  obtain ⟨b, hb, hsize, hlength, visited, hrun⟩ := serializeDumpContext_eq hdatos (by omega)
  rw [sendDumpMemory, hb, enviarBuffer_eq hsize (by omega)] at h
  obtain ⟨conexion, hcode, hpackage⟩ :=
    receive_envio (e := { operationCode := .dumpMemory, values := [b.stream] }) [] (by
      simp only [Envio.tamanio, List.map_cons, List.map_nil, List.sum_cons, List.sum_nil]
      omega)
  rw [List.append_nil, Option.some.inj h] at hcode
  have hmanejador : FileSystem.manejador Utils.OpCode.dumpMemory (some b.stream) [] = some [v] := by
    simp [FileSystem.manejador, hrun]
  rw [atenderVolcado, hcode, Option.bind_eq_bind, Option.bind_some]
  simp only [hpackage, ofInt_code, List.getElem?_cons_zero, hmanejador, List.head?_cons,
    Option.bind_eq_bind, Option.bind_some]
  cases executeDumpMemory f x v s with
  | none =>
      rfl
  | some r =>
      rfl

end Packages

section Steps

variable {cfg : Config} {f : Formato} {s s' : MemoriaYDisco f} {d : DumpMemory} {x : Entorno}
  {p : MemPcb}

/-- A dump of a process that starts at a word: its bytes arrive, and the file is there
exactly when the answer is `OK`. -/
theorem volcar_spec
    {fs : Proceso f} {codigo : UInt32}
    (hf : f.Exacto)
    (hreg : Regiones s.memoria) (hmem : MemoriaEntera cfg s.memoria) (hfs : Durable s.fs)
    (hp : buscarProcesoPorPid s.memoria d.pid = some p)
    (hbase : BaseAlineada cfg p) (hsize : p.size = 0 ∨ TamanioLegible f p.size)
    (h : volcar f x s.memoria s.fs d = some (fs, codigo)) :
    Durable fs ∧
    fs.disco.leer f =
      if codigo = Utils.OpCode.ok.code then
        Function.update (s.fs.disco.leer f)
          (metadatosPath f (generarNombreArchivo d.pid d.tid x.timestamp))
          (memoriaDe s.memoria d.pid)
      else s.fs.disco.leer f := by
  have hpid : p.pid = d.pid := by simpa using List.find?_some hp
  have hmember : p ∈ s.memoria.memoryProcessList := List.mem_of_find?_eq_some hp
  have hcopia := hbase.copia hreg hmem hmember
  rw [hpid] at hcopia
  obtain ⟨paquete, hpaquete, h⟩ := Option.bind_eq_some_iff.mp h
  obtain ⟨⟨fs', respuesta⟩, hatendido, h⟩ := Option.bind_eq_some_iff.mp h
  obtain ⟨⟨codigo', c⟩, hcodigo, h⟩ := Option.bind_eq_some_iff.mp h
  cases h
  -- the package
  rw [pedirDump, hp, Option.bind_eq_bind, Option.bind_some, hcopia, Option.bind_eq_bind,
    Option.bind_some, Option.getD_some] at hpaquete
  have hdatos : ((s.memoria.memoriaUsuario.drop p.base.toNat).take p.size.toNat).length =
      p.size.toNat := by
    have hdentro := hbase.1
    rw [List.length_take, List.length_drop, hmem.longitud]
    omega
  rw [sendDumpMemory_llega hdatos hpaquete] at hatendido
  obtain ⟨⟨fs', op⟩, hexecute, hrespuesta⟩ := Option.map_eq_some_iff.mp hatendido
  cases hrespuesta
  -- the answer
  have hcode := waitForResponse_code op.code
  rw [enviarRespuestaAntePeticion, hcodigo] at hcode
  cases hcode
  -- the file
  obtain ⟨hdurable, ⟨rfl, hleer⟩ | ⟨rfl, hleer⟩⟩ := executeDumpMemory_spec hf hfs hsize hexecute
  · rw [if_pos rfl, memoriaDe, hp]
    exact ⟨hdurable, hleer⟩
  · rw [if_neg (by decide)]
    exact ⟨hdurable, hleer⟩

/-- A dump of a process that fits a package is answered. -/
theorem exists_volcar
    (fs : Proceso f)
    (hreg : Regiones s.memoria) (hmem : MemoriaEntera cfg s.memoria)
    (hp : buscarProcesoPorPid s.memoria d.pid = some p)
    (hbase : BaseAlineada cfg p) (hsmall : 24 + p.size.toNat < 2 ^ 31) :
    ∃ r, volcar f x s.memoria fs d = some r := by
  have hpid : p.pid = d.pid := by simpa using List.find?_some hp
  have hmember : p ∈ s.memoria.memoryProcessList := List.mem_of_find?_eq_some hp
  have hcopia := hbase.copia hreg hmem hmember
  rw [hpid] at hcopia
  have hdentro := hbase.1
  have hdatos : ((s.memoria.memoriaUsuario.drop p.base.toNat).take p.size.toNat).length =
      p.size.toNat := by
    rw [List.length_take, List.length_drop, hmem.longitud]
    omega
  have hvolcable : Volcable s.memoria p := by
    refine ⟨hsmall, Or.inl ⟨hreg.largo hmember, ?_⟩⟩
    rw [hmem.longitud, UInt32.toNat_div]
    have hword : p.base.toNat / (4 : UInt32).toNat * 4 ≤ p.base.toNat := Nat.div_mul_le_self _ 4
    omega
  obtain ⟨paquete, hpaquete⟩ := (sendDump_iff_volcable hp).mpr hvolcable
  have hsent := hpaquete
  rw [pedirDump, hp, Option.bind_eq_bind, Option.bind_some, hcopia, Option.bind_eq_bind,
    Option.bind_some, Option.getD_some] at hsent
  rw [volcar, hpaquete, Option.bind_eq_bind, Option.bind_some,
    sendDumpMemory_llega hdatos hsent, executeDumpMemory, dif_pos hdatos]
  simp only [pasoFs, Option.bind_eq_bind, Option.bind_some, Option.map_some]
  rw [← enviarRespuestaAntePeticion, waitForResponse_code]
  exact ⟨_, rfl⟩

/-- What holds of memoria, the file system and the log of the dumps. -/
structure Registrado (cfg : Config) (registro : List Char → Option (List UInt8))
    (s : MemoriaYDisco f) : Prop where
  regiones : Regiones s.memoria
  entera : MemoriaEntera cfg s.memoria
  durable : Durable s.fs
  archivos : s.fs.disco.leer f = registro

/-- A step keeps the files the log of the dumps. -/
theorem Registrado.paso
    {registro : List Char → Option (List UInt8)} {e : SucesoVolcado}
    (hf : f.Exacto)
    (hperm : ∀ l, (cfg.listSort ordenarPorBase l).Perm l)
    (hs : Registrado cfg registro s) (hok : VuelcaEntero cfg s e)
    (h : pasoVolcado cfg f s e = some s') :
    Registrado cfg (registrarVolcado registro s e) s' := by
  cases e with
  | pide p =>
      obtain ⟨g, hg, rfl⟩ := Option.map_eq_some_iff.mp h
      exact ⟨hs.regiones.step hperm hok hg, hs.entera.step hg, hs.durable, hs.archivos⟩
  | vuelca d x =>
      obtain ⟨⟨fs, codigo⟩, hvolcar, rfl⟩ := Option.map_eq_some_iff.mp h
      cases hp : buscarProcesoPorPid s.memoria d.pid with
      | none =>
          simp [volcar, pedirDump, hp] at hvolcar
      | some p =>
          obtain ⟨hbase, hsize⟩ := hok p hp
          obtain ⟨hdurable, hleer⟩ := volcar_spec hf hs.regiones hs.entera hs.durable hp hbase
            hsize hvolcar
          refine ⟨hs.regiones, hs.entera, hdurable, ?_⟩
          rw [hleer, hs.archivos, registrarVolcado, hvolcar]
          simp only [Option.map_some, Option.some.injEq]
  | reinicia =>
      obtain ⟨fs, hfs, rfl⟩ := Option.map_eq_some_iff.mp h
      obtain ⟨hdurable, hleer⟩ := hs.durable.reinicia hf hfs
      exact ⟨hs.regiones, hs.entera, hdurable, hleer.trans hs.archivos⟩

end Steps

/-- The files are the log of the dumps. In every run of memoria and the file system, with
any requests between the dumps and the file system starting again at any moment between
them, what is read under every path is the memory that the process had when the last dump
with that path was answered `OK`; a dump that was answered `ERROR` left nothing. -/
theorem dump_files_are_log
    {cfg : Config} {f : Formato} {fs : Proceso f} {es : List SucesoVolcado} {s : MemoriaYDisco f}
    (hf : f.Exacto)
    (hperm : ∀ l, (cfg.listSort ordenarPorBase l).Perm l)
    (hfs : inicializarFs f none none [] = some fs)
    (hrun : Run (fun a e b => pasoVolcado cfg f a e = some b) (VuelcaEntero cfg)
      { memoria := inicializar cfg, fs := fs } es s) :
    s.fs.disco.leer f =
      history (pasoVolcado cfg f) registrarVolcado (fun _ => none)
        { memoria := inicializar cfg, fs := fs } es := by
  obtain ⟨hdurable, hvacio⟩ := durable_inicio hf hfs
  have hstart : Registrado cfg (fun _ => none)
      ({ memoria := inicializar cfg, fs := fs } : MemoriaYDisco f) :=
    ⟨regiones_inicializar cfg, memoriaEntera_inicializar cfg, hdurable,
      congrArg Almacen.archivos hvacio⟩
  exact (hrun.history hstart (fun ha hok hstep => ha.paso hf hperm hok hstep)).archivos

/-- A process of eight bytes, its dump, and the file system starting again. -/
theorem dump_files_are_log_ocho :
    ∃ (fs : Proceso formatoDeOcho) (s : MemoriaYDisco formatoDeOcho),
      inicializarFs formatoDeOcho none none [] = some fs ∧
      execute (pasoVolcado configDinamicas formatoDeOcho)
        { memoria := inicializar configDinamicas, fs := fs }
        [.pide (.processCreate 1 8), .vuelca ⟨1, 0⟩ ⟨['t'], false, true⟩, .reinicia] = some s ∧
      s.fs.disco.leer formatoDeOcho =
        history (pasoVolcado configDinamicas formatoDeOcho) registrarVolcado (fun _ => none)
          { memoria := inicializar configDinamicas, fs := fs }
          [.pide (.processCreate 1 8), .vuelca ⟨1, 0⟩ ⟨['t'], false, true⟩, .reinicia] := by
  obtain ⟨fs, hfs⟩ := Option.isSome_iff_exists.mp
    (show (inicializarFs formatoDeOcho none none []).isSome = true by decide)
  obtain ⟨g, hg⟩ := Option.isSome_iff_exists.mp
    (show (atiende configDinamicas (inicializar configDinamicas) (.processCreate 1 8)).isSome = true
      by decide)
  have hregular : Regular (inicializar configDinamicas) (.processCreate 1 8) := rfl
  have hp : buscarProcesoPorPid g 1 = some (nuevoProceso 1 0 8 8) := by
    have hcreado : (atiende configDinamicas (inicializar configDinamicas)
        (.processCreate 1 8)).bind (fun g => buscarProcesoPorPid g 1) =
          some (nuevoProceso 1 0 8 8) := by
      decide
    rwa [hg] at hcreado
  have hbase : BaseAlineada configDinamicas (nuevoProceso 1 0 8 8) :=
    ⟨by decide, Or.inr (Or.inl (by decide))⟩
  obtain ⟨r, hr⟩ := exists_volcar (s := { memoria := g, fs := fs }) (d := ⟨1, 0⟩)
    (x := ⟨['t'], false, true⟩) fs
    ((regiones_inicializar configDinamicas).step estable_configDinamicas.perm hregular hg)
    ((memoriaEntera_inicializar configDinamicas).step hg) hp hbase (by decide)
  obtain ⟨fs', hfs'⟩ : ∃ fs', reiniciar formatoDeOcho r.1.disco = some fs' := by
    rw [reiniciar, inicializarFs_eq]
    exact ⟨_, rfl⟩
  have hrun : Run (fun a e b => pasoVolcado configDinamicas formatoDeOcho a e = some b)
      (VuelcaEntero configDinamicas) { memoria := inicializar configDinamicas, fs := fs }
      [.pide (.processCreate 1 8), .vuelca ⟨1, 0⟩ ⟨['t'], false, true⟩, .reinicia]
      { memoria := g, fs := fs' } := by
    refine Run.cons hregular (by simp only [pasoVolcado, hg]; rfl) ?_
    refine Run.cons (a := { memoria := g, fs := r.1 }) ?_ (by simp only [pasoVolcado, hr]; rfl) ?_
    · intro p hp'
      obtain rfl := Option.some.inj (hp.symm.trans hp')
      exact ⟨hbase, Or.inr ⟨by decide, Or.inl (by decide), by decide, by decide⟩⟩
    · exact Run.cons trivial (by simp only [pasoVolcado, hfs']; rfl) Run.nil
  exact ⟨fs, _, hfs, execute_of_run hrun,
    dump_files_are_log exacto_formatoDeOcho estable_configDinamicas.perm hfs hrun⟩

end SinIdeas
